import BipartiteBatch.Csr
import Mathlib.Data.List.Basic

/-!
# Blocks as lists of rows

A block stands for a list of closed rows and the entries of an open row. Adding an entry and closing the
row act on these two, and whatever is read from the block is read from them.

* `Csr.Holds` : the block stands for given rows and a given open row;
* `Csr.Holds.emplace`, `Csr.Holds.addRow` : how the two grow;
* `Csr.Holds.row_eq`, `Csr.Holds.rows_eq`, `Csr.Holds.rowCount_eq` : what is read from a block;
* `Csr.holds_ofRows` : a block made of rows stands for them.
-/

namespace BipartiteBatch.Csr

/-- Where each row begins if the first one begins at `first`, and last where the last one ends. -/
def offsetsFrom (first : Nat) : List (List Entry) → List Nat
  | [] => [first]
  | row :: rows => first :: offsetsFrom (first + row.length) rows

/-- The block stands for closed rows and an open row. -/
structure Holds (csr : Csr) (rows : List (List Entry)) (pending : List Entry) : Prop where
  rowOffset : csr.rowOffset.toList = offsetsFrom 0 rows
  col : csr.col.toList = (rows.flatten ++ pending).map Prod.fst
  value : csr.value.toList = (rows.flatten ++ pending).map Prod.snd

/-! ## Offsets -/

theorem length_offsetsFrom (first : Nat) (rows : List (List Entry)) :
    (offsetsFrom first rows).length = rows.length + 1 := by
  induction rows generalizing first with
  | nil => rfl
  | cons row rows ih => simp [offsetsFrom, ih]

theorem offsetsFrom_eq_cons (first : Nat) (rows : List (List Entry)) :
    ∃ offsets, offsetsFrom first rows = first :: offsets := by
  cases rows <;> exact ⟨_, rfl⟩

theorem offsetsFrom_concat (first : Nat) (rows : List (List Entry)) (row : List Entry) :
    offsetsFrom first (rows ++ [row])
      = offsetsFrom first rows ++ [first + (rows ++ [row]).flatten.length] := by
  induction rows generalizing first with
  | nil => simp [offsetsFrom]
  | cons r rows ih =>
    rw [List.cons_append, offsetsFrom, ih, offsetsFrom]
    simp only [List.cons_append, List.flatten_cons, List.length_append, Nat.add_assoc]

theorem getElem?_offsetsFrom (first : Nat) (rows : List (List Entry)) (i : Nat)
    (hi : i ≤ rows.length) :
    (offsetsFrom first rows)[i]? = some (first + (rows.take i).flatten.length) := by
  induction rows generalizing first i with
  | nil =>
    obtain rfl : i = 0 := by simpa using hi
    rfl
  | cons row rows ih =>
    cases i with
    | zero => rfl
    | succ i =>
      rw [offsetsFrom, List.getElem?_cons_succ, ih _ _ (by simpa using hi)]
      simp only [List.take_succ_cons, List.flatten_cons, List.length_append, Nat.add_assoc]

/-! ## Growing -/

theorem holds_empty : empty.Holds [] [] := ⟨rfl, rfl, rfl⟩

variable {csr : Csr} {rows : List (List Entry)} {pending : List Entry}

theorem Holds.emplace (h : csr.Holds rows pending) (col : UInt64) (value : Float32) :
    (csr.emplace col value).Holds rows (pending ++ [(col, value)]) where
  rowOffset := h.rowOffset
  col := by simp [Csr.emplace, h.col]
  value := by simp [Csr.emplace, h.value]

theorem Holds.addEntries (h : csr.Holds rows pending) (entries : List Entry) :
    (csr.addEntries entries).Holds rows (pending ++ entries) := by
  induction entries generalizing csr pending with
  | nil => rwa [List.append_nil]
  | cons e entries ih =>
    have := ih (h.emplace e.1 e.2)
    rwa [List.append_assoc] at this

theorem Holds.addRow (h : csr.Holds rows pending) : csr.addRow.Holds (rows ++ [pending]) [] where
  rowOffset := by
    have hsize : csr.col.size = (rows ++ [pending]).flatten.length := by
      rw [← Array.length_toList, h.col, List.length_map, List.flatten_concat]
    rw [offsetsFrom_concat, Nat.zero_add, ← h.rowOffset, ← hsize]
    simp [Csr.addRow]
  col := by simp [Csr.addRow, h.col]
  value := by simp [Csr.addRow, h.value]

theorem Holds.pushRow (h : csr.Holds rows []) (row : List Entry) :
    (csr.pushRow row).Holds (rows ++ [row]) [] := by
  have := (h.addEntries row).addRow
  rwa [List.nil_append] at this

theorem Holds.foldl_pushRow (h : csr.Holds rows []) (more : List (List Entry)) :
    (more.foldl Csr.pushRow csr).Holds (rows ++ more) [] := by
  induction more generalizing csr rows with
  | nil => rwa [List.append_nil]
  | cons row more ih =>
    have := ih (h.pushRow row)
    rwa [List.append_assoc] at this

/-- A block made of rows stands for them, and no row is open. -/
theorem holds_ofRows (rows : List (List Entry)) : (ofRows rows).Holds rows [] :=
  holds_empty.foldl_pushRow rows

/-! ## Reading -/

theorem Holds.size_rowOffset (h : csr.Holds rows pending) : csr.rowOffset.size = rows.length + 1 := by
  rw [← Array.length_toList, h.rowOffset, length_offsetsFrom]

theorem Holds.rowCount_eq (h : csr.Holds rows pending) : csr.rowCount = rows.length := by
  simp only [Csr.rowCount, h.size_rowOffset]

theorem Holds.nnz_eq (h : csr.Holds rows pending) : csr.nnz = (rows.flatten ++ pending).length := by
  rw [Csr.nnz, ← Array.length_toList, h.col, List.length_map]

/-- Without an open row the last offset is the number of entries. -/
theorem Holds.back?_rowOffset (h : csr.Holds rows []) : csr.rowOffset.back? = some csr.nnz := by
  have hlast := getElem?_offsetsFrom 0 rows rows.length (Nat.le_refl _)
  rw [List.take_length, ← h.rowOffset, Array.getElem?_toList, Nat.zero_add] at hlast
  rw [Array.back?_eq_getElem?, h.size_rowOffset, Nat.add_sub_cancel, hlast, h.nnz_eq, List.append_nil]

theorem Holds.slice_eq (h : csr.Holds rows pending) {first last : Nat} (hle : first ≤ last)
    (hlast : last ≤ (rows.flatten ++ pending).length) :
    csr.slice first last
      = .ok (((rows.flatten ++ pending).drop first).take (last - first)) := by
  have hcol : csr.col.size = (rows.flatten ++ pending).length := by
    rw [← Array.length_toList, h.col, List.length_map]
  have hvalue : csr.value.size = (rows.flatten ++ pending).length := by
    rw [← Array.length_toList, h.value, List.length_map]
  rw [Csr.slice, if_pos ⟨hle, hcol ▸ hlast, hvalue ▸ hlast⟩, Array.toList_extract,
    Array.toList_extract, h.col, h.value]
  simp only [List.extract_eq_take_drop, ← List.map_drop, ← List.map_take]
  rw [← List.zip_of_prod rfl rfl]

theorem Holds.slice_row {done rest : List (List Entry)} {row : List Entry}
    (h : csr.Holds (done ++ row :: rest) pending) :
    csr.slice done.flatten.length (done.flatten.length + row.length) = .ok row := by
  have hentries : (done ++ row :: rest).flatten ++ pending
      = done.flatten ++ (row ++ (rest.flatten ++ pending)) := by
    simp only [List.flatten_append, List.flatten_cons, List.append_assoc]
  have hlength : done.flatten.length + row.length
      ≤ ((done ++ row :: rest).flatten ++ pending).length := by
    simp only [hentries, List.length_append]
    omega
  rw [h.slice_eq (Nat.le_add_right _ _) hlength, Nat.add_sub_cancel_left, hentries, List.drop_left,
    List.take_left]

theorem Holds.row_eq (h : csr.Holds rows pending) (i : Nat) : csr.row i = .ok rows[i]? := by
  unfold Csr.row
  rw [h.rowCount_eq]
  by_cases hi : rows.length ≤ i
  · rw [if_pos hi, List.getElem?_eq_none hi]
  · have hlt : i < rows.length := Nat.not_le.1 hi
    have hsplit : rows = rows.take i ++ rows[i] :: rows.drop (i + 1) := by
      rw [List.getElem_cons_drop, List.take_append_drop]
    have hfirst := getElem?_offsetsFrom 0 rows i (by omega)
    have hlast := getElem?_offsetsFrom 0 rows (i + 1) (by omega)
    have hnext : (rows.take (i + 1)).flatten.length
        = (rows.take i).flatten.length + rows[i].length := by
      rw [List.take_succ_eq_append_getElem hlt, List.flatten_concat, List.length_append]
    have hslice : csr.slice (rows.take i).flatten.length
        ((rows.take i).flatten.length + rows[i].length) = .ok rows[i] := by
      rw [hsplit] at h
      exact h.slice_row
    rw [← h.rowOffset, Array.getElem?_toList, Nat.zero_add] at hfirst hlast
    rw [if_neg hi, hfirst, hlast, hnext]
    simp only [hslice, List.getElem?_eq_getElem hlt]
    rfl

theorem Holds.rowsFrom_eq {done rest : List (List Entry)} (h : csr.Holds (done ++ rest) pending) :
    csr.rowsFrom (offsetsFrom done.flatten.length rest) = .ok rest := by
  induction rest generalizing done with
  | nil => rfl
  | cons row rest ih =>
    have hslice := h.slice_row
    have htail : csr.rowsFrom (offsetsFrom (done.flatten.length + row.length) rest) = .ok rest := by
      rw [← List.length_append, ← List.flatten_concat]
      apply ih
      rwa [List.append_assoc]
    obtain ⟨offsets, hoffsets⟩ := offsetsFrom_eq_cons (done.flatten.length + row.length) rest
    rw [offsetsFrom, hoffsets, Csr.rowsFrom, hslice, ← hoffsets, htail]
    rfl

theorem Holds.rows_eq (h : csr.Holds rows pending) : csr.rows = .ok rows := by
  have hstart : csr.Holds ([] ++ rows) pending := h
  rw [Csr.rows, h.rowOffset]
  exact hstart.rowsFrom_eq

theorem exists_row_of_mem_col {rows : List (List Entry)} {col : UInt64} (h : col ∈ (ofRows rows).col) :
    ∃ row ∈ rows, col ∈ row.map Prod.fst := by
  rw [← Array.mem_toList_iff, (holds_ofRows rows).col, List.append_nil] at h
  obtain ⟨entry, hentry, rfl⟩ := List.mem_map.1 h
  obtain ⟨row, hrow, hentry⟩ := List.mem_flatten.1 hentry
  exact ⟨row, hrow, List.mem_map_of_mem hentry⟩

end BipartiteBatch.Csr
