import BipartiteBatch.Proofs.LineBatches
import Mathlib.Data.List.Range

/-!
# The numbers of lines

A reader counts the lines it has read that have a text, and a malformed line is told of with the count up to
it. So whatever bytes an input has, the count is short by the lines read that are not text, and so is the number
in every warning after them; where all lines so far are text, both are the true ones.

* `Line.fault?` : what is wrong with a malformed line, `Line.number` : how many of the first lines are text;
* `LineReader.told`, `LineReader.seek_tells`, `LineReader.collect_tells` : what a search and a call tell of;
* `LineReader.Call.warnings` : the warnings of a call;
* `LineReader.calls_number` : the count and the warnings of calls over any bytes;
* `LineReader.calls_misnumber` : a line that is not text, before a malformed one.
-/

namespace BipartiteBatch

/-! ## Lines -/

def Line.fault? (ρ : Type) [Record ρ] : Line → Option LineFault
  | .error _ => none
  | .ok text =>
    match (Reading.ofLine text : Reading ρ) with
    | .malformed fault => some fault
    | .ignored => none
    | .record _ => none

/-- How many of the first lines have a text. -/
def Line.number (input : List Line) (lines : Nat) : Nat := (input.take lines).countP Except.isOk

/-- The line and the fault that a warning names. -/
def Event.skipped? : Event → Option (Nat × LineFault)
  | .lineSkipped line fault => some (line, fault)
  | _ => none

namespace LineReader

variable {ρ : Type} [Record ρ]

/-! ## Searching -/

/-- What is told of lines where `n` lines are counted before them: of each malformed one the count up to it and
what is wrong with it. -/
def told (ρ : Type) [Record ρ] (n : Nat) : List Line → List (Nat × LineFault)
  | [] => []
  | line :: lines =>
    let count := n + [line].countP Except.isOk
    ((line.fault? ρ).map fun fault => (count, fault)).toList ++ told ρ count lines

theorem told_ok (n : Nat) (text : String) (lines : List Line) :
    told ρ n (.ok text :: lines)
      = ((Line.fault? ρ (.ok text)).map fun fault => (n + 1, fault)).toList ++ told ρ (n + 1) lines := rfl

theorem told_append (n : Nat) (lines more : List Line) :
    told ρ n (lines ++ more) = told ρ n lines ++ told ρ (n + lines.countP Except.isOk) more := by
  induction lines generalizing n with
  | nil => rfl
  | cons line lines ih =>
    rw [List.cons_append, told, told, ih, ← List.singleton_append (l := lines), List.countP_append,
      List.append_assoc, Nat.add_assoc]

/-- A search tells of the malformed lines that it reads. Events stand last first. -/
theorem seek_tells (n skipped : Nat) (events : List Event) (lines : List Line) :
    ∃ read, Reads read ⟨some lines, n, skipped⟩ (seek (ρ := ρ) n skipped events lines).2.1
      ∧ (seek (ρ := ρ) n skipped events lines).2.2.filterMap Event.skipped?
        = (told ρ n read).reverse ++ events.filterMap Event.skipped? := by
  induction lines generalizing n skipped events with
  | nil => exact ⟨[], ⟨rfl, rfl⟩, rfl⟩
  | cons line lines ih => cases line with
    | error fault => exact ⟨[.error fault], ⟨rfl, rfl⟩, rfl⟩
    | ok text =>
      unfold seek
      cases hline : (Reading.ofLine text : Reading ρ) with
      | record x =>
        refine ⟨[.ok text], .cons_ok text (.refl _), ?_⟩
        simp [told, Line.fault?, hline]
      | ignored =>
        obtain ⟨read, hreads, htold⟩ := ih (n + 1) skipped events
        refine ⟨.ok text :: read, hreads.cons_ok text, ?_⟩
        simpa [told_ok, Line.fault?, hline] using htold
      | malformed fault =>
        obtain ⟨read, hreads, htold⟩ := ih (n + 1) (skipped + 1) (.lineSkipped (n + 1) fault :: events)
        refine ⟨.ok text :: read, hreads.cons_ok text, ?_⟩
        simpa [told_ok, Line.fault?, hline, Event.skipped?] using htold

theorem collect_tells (wanted : Nat) (taken : List ρ) (events : List Event) (r : LineReader) :
    ∃ read, Reads read r (collect wanted taken events r).reader
      ∧ (collect wanted taken events r).events.filterMap Event.skipped?
        = (events.filterMap Event.skipped?).reverse ++ told ρ r.lines read := by
  induction wanted generalizing taken events r with
  | zero =>
    refine ⟨[], ?_, ?_⟩
    · unfold collect
      exact .refl r
    · unfold collect
      simp [told]
  | succ wanted ih =>
    cases hrest : r.rest with
    | none =>
      unfold collect
      rw [hrest]
      exact ⟨[], .refl r, by simp [told]⟩
    | some lines =>
      obtain ⟨read, hreads, htold⟩ := seek_tells (ρ := ρ) r.lines r.skipped events lines
      have hr : (⟨some lines, r.lines, r.skipped⟩ : LineReader) = r := by rw [← hrest]
      rw [hr] at hreads
      unfold collect
      rw [hrest]
      dsimp only
      generalize seek (ρ := ρ) r.lines r.skipped events lines = sought at hreads htold
      obtain ⟨found, r', events'⟩ := sought
      cases found with
      | record x =>
        obtain ⟨more, hmore, htold'⟩ := ih (x :: taken) events' r'
        refine ⟨read ++ more, hreads.trans hmore, ?_⟩
        rw [htold', htold, told_append, hreads.lines_eq]
        simp
      | ended => exact ⟨read, hreads, by simp [htold]⟩
      | unreadable fault => exact ⟨read, hreads, by simp [htold]⟩

/-! ## Calls -/

namespace Call

def warnings (c : Call) (r : LineReader) : List (Nat × LineFault) :=
  (r.next c.ρ c.count).2.2.filterMap Event.skipped?

/-- Whatever lines are left, a call reads the next ones and tells of the malformed ones. -/
theorem reads_tells (c : Call) (r : LineReader) :
    Reads (c.read r) r (c.after r) ∧ c.warnings r = told c.ρ r.lines (c.read r) := by
  obtain ⟨read, hreads, htold⟩ : ∃ read, Reads read r (c.after r)
      ∧ c.warnings r = told c.ρ r.lines read := by
    unfold after warnings
    by_cases hfits : fits c.count (Record.width c.ρ)
    · rw [next_of_fits hfits]
      exact collect_tells c.count [] [] r
    · rw [next_of_not_fits hfits]
      exact ⟨[], .refl r, rfl⟩
  have hread : c.read r = read := hreads.eq_take
  rw [hread]
  exact ⟨hreads, htold⟩

end Call

theorem reads_readBy (calls : List Call) (r : LineReader) :
    Reads (readBy calls r) r (afterCalls calls r) := by
  induction calls generalizing r with
  | nil => exact .refl r
  | cons c calls ih => exact (c.reads_tells r).1.trans (ih (c.after r))

/-! ## Places in the input -/

theorem number_append_cons (before lines : List Line) (line : Line) :
    Line.number (before ++ line :: lines) (before.length + 1)
      = before.countP Except.isOk + [line].countP Except.isOk := by
  rw [Line.number, ← List.singleton_append (l := lines), ← List.append_assoc,
    List.take_left' (by rw [List.length_append, List.length_singleton]), List.countP_append]

/-- What is told of lines that are part of an input, by their places in it. -/
theorem told_eq_filterMap (before read after : List Line) :
    told ρ (before.countP Except.isOk) read
      = (List.range' before.length read.length).filterMap fun i =>
        ((before ++ read ++ after)[i]?.bind (Line.fault? ρ)).map fun fault =>
          (Line.number (before ++ read ++ after) (i + 1), fault) := by
  induction read generalizing before with
  | nil => rfl
  | cons line read ih =>
    have hstep := ih (before ++ [line])
    have hinput : before ++ [line] ++ read ++ after = before ++ (line :: read) ++ after := by simp
    have hline : (before ++ (line :: read) ++ after)[before.length]? = some line := by simp
    have hnumber : Line.number (before ++ (line :: read) ++ after) (before.length + 1)
        = before.countP Except.isOk + [line].countP Except.isOk := by
      rw [List.append_assoc, List.cons_append, number_append_cons]
    rw [hinput, List.countP_append, List.length_append, List.length_singleton] at hstep
    rw [List.length_cons, List.range'_succ, List.filterMap_cons, hline, Option.bind_some, hnumber, told, hstep]
    cases line.fault? ρ <;> rfl

/-- Where all of the first lines have a text, each of them counts. -/
theorem number_eq_iff {input : List Line} {n : Nat} (h : n ≤ input.length) :
    Line.number input n = n ↔ ∀ line ∈ input.take n, ∃ text, line = Except.ok text := by
  have hlength : (input.take n).length = n := List.length_take_of_le h
  have hok : ∀ line : Line, line.isOk = true ↔ ∃ text, line = Except.ok text := by
    intro line
    cases line with
    | error fault => exact iff_of_false nofun nofun
    | ok text => exact iff_of_true rfl ⟨text, rfl⟩
  conv => lhs; rhs; rw [← hlength]
  rw [Line.number, List.countP_eq_length]
  exact forall₂_congr fun line _ => hok line

/-- Whatever bytes are read by whatever calls, the count is how many of the lines read so far have a text. The
next call reads the lines that come next, and its warnings are for the malformed ones of them: each gives how
many of the lines up to the malformed one have a text. Such a number is that of the line if and only if all
lines up to it do. -/
theorem calls_number (bytes : ByteArray) (calls : List Call) (c : Call) :
    let input := Line.ofBytes bytes
    let consumed := readBy calls (ofBytes bytes)
    let r := afterCalls calls (ofBytes bytes)
    consumed ++ r.left = input ∧ c.read r ++ (c.after r).left = r.left
    ∧ r.lines = Line.number input consumed.length
    ∧ c.warnings r = ((List.range' consumed.length (c.read r).length).filterMap fun i =>
      (input[i]?.bind (Line.fault? c.ρ)).map fun fault => (Line.number input (i + 1), fault))
    ∧ ∀ n ≤ input.length, Line.number input n = n ↔ ∀ line ∈ input.take n, ∃ text, line = .ok text := by
  intro input consumed r
  have hreads : Reads consumed (ofBytes bytes) r := reads_readBy calls (ofBytes bytes)
  obtain ⟨hread, hwarnings⟩ := c.reads_tells r
  have hinput : consumed ++ r.left = input := hreads.left_eq
  have hlines : r.lines = consumed.countP Except.isOk := hreads.lines_eq.trans (Nat.zero_add _)
  refine ⟨hinput, hread.left_eq, ?_, ?_, fun n => number_eq_iff⟩
  · rw [hlines, Line.number, ← hinput, List.take_left]
  · rw [hwarnings, hlines, told_eq_filterMap consumed (c.read r) (c.after r).left, List.append_assoc,
      hread.left_eq, hinput]

/-- A node, and a malformed line. -/
theorem calls_number_malformedSecond :
    let bytes : ByteArray := ⟨#[55, 10, 120, 10]⟩
    let r := afterCalls [⟨NodeRecord, 1⟩] (ofBytes bytes)
    r.lines = 1 ∧ Call.warnings ⟨NodeRecord, 1⟩ r = [(2, .nodeId "x" .invalidDigit)]
      ∧ 2 ≤ (Line.ofBytes bytes).length ∧ Line.number (Line.ofBytes bytes) 2 = 2 := by
  intro bytes r
  obtain ⟨-, -, hlines, hwarnings, hnumber⟩ := calls_number bytes [⟨NodeRecord, 1⟩] ⟨NodeRecord, 1⟩
  have htwo : 2 ≤ (Line.ofBytes bytes).length := by decide +kernel
  have htexts : (Line.ofBytes bytes).take 2 = [.ok "7", .ok "x"] := by decide +kernel
  refine ⟨hlines.trans (by decide +kernel), hwarnings.trans (by decide +kernel), htwo, (hnumber 2 htwo).2 ?_⟩
  rw [htexts]
  intro line hline
  obtain rfl | rfl : line = .ok "7" ∨ line = .ok "x" := by simpa using hline
  · exact ⟨_, rfl⟩
  · exact ⟨_, rfl⟩

/-- A line that is not text, and a malformed one. -/
def strayBytes : ByteArray := ⟨#[0xff, 10, 120, 10]⟩

theorem calls_misnumber :
    let calls : List Call := [⟨NodeRecord, 1⟩]
    let r := afterCalls calls (ofBytes strayBytes)
    (readBy calls (ofBytes strayBytes)).length = 1 ∧ r.lines = 0
      ∧ (Line.ofBytes strayBytes)[1]? = some (.ok "x")
      ∧ Call.warnings ⟨NodeRecord, 1⟩ r = [(1, .nodeId "x" .invalidDigit)] := by
  decide +kernel

end LineReader

end BipartiteBatch
