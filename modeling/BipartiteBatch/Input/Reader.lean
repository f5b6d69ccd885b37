import BipartiteBatch.Event
import BipartiteBatch.Input.Line
import BipartiteBatch.Input.Record

/-!
# Reading records in batches

A line reader stands between two lines of an input. It counts the lines it has read and those among them
that were no records, and closes at the end of the input.

* `LineReader.seek` : the next record, past all lines that hold none;
* `LineReader.next` : the next records up to a number, and the events on the way;
* `LineReader.close` : no more records.

A line that cannot be read fails the call that meets it, is gone after it, and is not counted.
-/

namespace BipartiteBatch

/-- A position in an input, `none` after it is closed. -/
structure LineReader where
  rest : Option (List Line)
  lines : Nat := 0
  skipped : Nat := 0

/-- What a search for a record ended with. -/
inductive Found (ρ : Type) where
  | record (r : ρ)
  | ended
  | unreadable (fault : ReadFault)

namespace LineReader

def ofLines (lines : List Line) : LineReader := { rest := some lines }

def ofBytes (bytes : ByteArray) : LineReader := ofLines (Line.ofBytes bytes)

def isOpen (r : LineReader) : Bool := r.rest.isSome

/-- Close the input, and say so if it was open. -/
def close (r : LineReader) : LineReader × List Event :=
  if r.isOpen then ({ r with rest := none }, [.inputClosed r.lines r.skipped]) else (r, [])

/-- The next record of the remaining lines, the reader after it, and the events so far, last first. -/
def seek {ρ : Type} [Record ρ] (lines skipped : Nat) (events : List Event) :
    List Line → Found ρ × LineReader × List Event
  | [] => (.ended, ⟨none, lines, skipped⟩, .inputClosed lines skipped :: events)
  | .error fault :: rest => (.unreadable fault, ⟨some rest, lines, skipped⟩, events)
  | .ok text :: rest =>
    match Reading.ofLine text with
    | .ignored => seek (lines + 1) skipped events rest
    | .record r => (.record r, ⟨some rest, lines + 1, skipped⟩, events)
    | .malformed fault =>
      seek (lines + 1) (skipped + 1) (.lineSkipped (lines + 1) fault :: events) rest

/-- What a call gives: its result, the reader after it and the events of it. -/
structure Step (ρ : Type) where
  result : Except ReadFault (List ρ)
  reader : LineReader
  events : List Event

/-- Read up to `wanted` more records after those in `records`; records and events stand last first. -/
def collect {ρ : Type} [Record ρ] (wanted : Nat) (records : List ρ) (events : List Event)
    (r : LineReader) : Step ρ :=
  match wanted, r.rest with
  | 0, _ => ⟨.ok records.reverse, r, events.reverse⟩
  | _, none => ⟨.ok records.reverse, r, events.reverse⟩
  | wanted + 1, some rest =>
    match seek r.lines r.skipped events rest with
    | (.record x, r, events) => collect wanted (x :: records) events r
    | (.ended, r, events) => ⟨.ok records.reverse, r, events.reverse⟩
    | (.unreadable fault, r, events) => ⟨.error fault, r, events.reverse⟩

/-- The next records, at most `count`; no list if there are none. -/
def next (ρ : Type) [Record ρ] (count : Nat) (r : LineReader) :
    Except Failure (Option (List ρ)) × LineReader × List Event :=
  if fits count (Record.width ρ) then
    let step := collect (ρ := ρ) count [] [] r
    match step.result with
    | .ok [] => (.ok none, step.reader, step.events)
    | .ok records => (.ok (some records), step.reader, step.events)
    | .error fault => (.error (.error (.read fault)), step.reader, step.events)
  else (.error (.abort (.capacity count)), r, [])

end LineReader

end BipartiteBatch
