import BipartiteBatch.Node

/-!
# Compressed sparse rows

A block of rows, each a sequence of weighted columns. The entries of all rows stand one after the
other; `rowOffset` holds where each row begins and, last, where the last one ends. A block is built by
adding entries to an open row and closing it; entries after the last offset belong to the open row.

* `emplace`, `addRow`, `clear` : add an entry, close the row, begin again;
* `addRows`, `ofRows` : closed rows after those of a block, and the block with given closed rows;
* `row`, `rows` : closed rows, by number and all in order;
* `rowCount`, `nnz` : the closed rows, and all entries.

A block that was read from a text may hold any offsets. Cutting a row with offsets that run backwards
or past the entries is a fault, `RowBounds`.
-/

namespace BipartiteBatch

abbrev Entry := UInt64 × Float32

/-- Rows of weighted columns. -/
structure Csr where
  rowOffset : Array Nat := #[0]
  col : Array UInt64 := #[]
  value : Array Float32 := #[]

/-- The offsets of a row do not cut out a part of the entries. -/
inductive RowBounds where
  | between (first last : Nat)
  | missing
deriving DecidableEq, Repr

namespace Csr

def empty : Csr := {}

/-- Add an entry to the open row. -/
def emplace (csr : Csr) (col : UInt64) (value : Float32) : Csr :=
  { csr with col := csr.col.push col, value := csr.value.push value }

/-- Close the open row. -/
def addRow (csr : Csr) : Csr :=
  { csr with rowOffset := csr.rowOffset.push csr.col.size }

/-- Remove all rows and entries, and begin again with the first offset. -/
def clear (csr : Csr) : Csr where
  rowOffset := (csr.rowOffset.shrink 0).push 0
  col := csr.col.shrink 0
  value := csr.value.shrink 0

def addEntries (csr : Csr) (entries : List Entry) : Csr :=
  entries.foldl (fun csr e => csr.emplace e.1 e.2) csr

/-- Add a closed row. -/
def pushRow (csr : Csr) (entries : List Entry) : Csr := (csr.addEntries entries).addRow

def addRows (csr : Csr) (rows : List (List Entry)) : Csr := rows.foldl pushRow csr

def ofRows (rows : List (List Entry)) : Csr := empty.addRows rows

/-- The number of closed rows, one less than the offsets. A block without offsets, which only a text
can give, reports the largest 64-bit count. -/
def rowCount (csr : Csr) : Nat :=
  match csr.rowOffset.size with
  | 0 => 0xFFFFFFFFFFFFFFFF
  | n + 1 => n

/-- The number of entries, those of the open row included. -/
def nnz (csr : Csr) : Nat := csr.col.size

def isEmpty (csr : Csr) : Bool := csr.rowCount == 0

/-- The entries from position `first` up to `last`. -/
def slice (csr : Csr) (first last : Nat) : Except RowBounds (List Entry) :=
  if first ≤ last ∧ last ≤ csr.col.size ∧ last ≤ csr.value.size then
    .ok ((csr.col.extract first last).toList.zip (csr.value.extract first last).toList)
  else .error (.between first last)

def row (csr : Csr) (i : Nat) : Except RowBounds (Option (List Entry)) :=
  if csr.rowCount ≤ i then .ok none
  else
    match csr.rowOffset[i]?, csr.rowOffset[i + 1]? with
    | some first, some last => (csr.slice first last).map some
    | _, _ => .error .missing

/-- The rows between neighbouring offsets. -/
def rowsFrom (csr : Csr) : List Nat → Except RowBounds (List (List Entry))
  | first :: last :: rest => do
    let row ← csr.slice first last
    let rows ← csr.rowsFrom (last :: rest)
    return row :: rows
  | _ => .ok []

def rows (csr : Csr) : Except RowBounds (List (List Entry)) := csr.rowsFrom csr.rowOffset.toList

/-- The same offsets and columns, and values that compare equal as floats. -/
protected def beq (a b : Csr) : Bool :=
  a.rowOffset == b.rowOffset && a.col == b.col && a.value == b.value

instance : BEq Csr := ⟨Csr.beq⟩

theorem clear_eq_empty (csr : Csr) : csr.clear = empty := by
  simp [clear, empty, Array.shrink_eq_take]

/-- Rows that are added to a block that was cleared make up the block, whatever it held. -/
theorem addRows_clear (csr : Csr) (rows : List (List Entry)) : csr.clear.addRows rows = ofRows rows := by
  rw [clear_eq_empty, ofRows]

end Csr

end BipartiteBatch
