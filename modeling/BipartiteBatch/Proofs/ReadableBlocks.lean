import BipartiteBatch.Proofs.Results
import BipartiteBatch.Proofs.Rows
import Mathlib.Data.List.Chain

/-!
# Blocks that can be read

A block that is built keeps a form: its offsets begin at zero, do not run backwards and stay within the
columns, and there is a value for each column. Nothing else keeps it. A block of any offsets still is a
block, but a row is a part of the entries only where its two offsets cut one out.

* `Csr.Cuts`, `Csr.rows_isOk_iff`, `Csr.row_isOk_iff` : when the rows of a block can be read;
* `Csr.Reads`, `Csr.exists_reads_iff` : all rows of a block can be read, and both ways of it agree;
* `Csr.WellFormed`, `Csr.wellFormed_iff` : the form of the blocks that are built;
* `Csr.WellFormed.exists_reads` : a block of this form can be read.
-/

namespace BipartiteBatch.Csr

/-! ## Reading -/

/-- The offsets cut a row out of the entries. -/
def Cuts (csr : Csr) (first last : Nat) : Prop :=
  first ≤ last ∧ last ≤ csr.col.size ∧ last ≤ csr.value.size

instance (csr : Csr) : DecidableRel csr.Cuts := fun _ _ => inferInstanceAs (Decidable (_ ∧ _))

/-- What is read from the block: its rows, as many as it counts, all in order or by number. -/
structure Reads (csr : Csr) (rows : List (List Entry)) : Prop where
  rowCount_eq : csr.rowCount = rows.length
  rows_eq : csr.rows = .ok rows
  row_eq : ∀ i, csr.row i = .ok rows[i]?

variable {csr : Csr}

theorem slice_isOk_iff {first last : Nat} :
    (∃ row, csr.slice first last = .ok row) ↔ csr.Cuts first last := by
  unfold slice Cuts
  split
  · exact ⟨fun _ => ‹_›, fun _ => ⟨_, rfl⟩⟩
  · exact ⟨nofun, fun h => absurd h ‹_›⟩

theorem rowsFrom_cons_eq_ok {first last : Nat} {rest : List Nat} {rows : List (List Entry)} :
    csr.rowsFrom (first :: last :: rest) = .ok rows
      ↔ ∃ row, csr.slice first last = .ok row
        ∧ ∃ more, csr.rowsFrom (last :: rest) = .ok more ∧ row :: more = rows := by
  simp only [rowsFrom, except_bind_eq_ok, except_pure_eq_ok]

theorem rowsFrom_isOk_iff {offsets : List Nat} :
    (∃ rows, csr.rowsFrom offsets = .ok rows) ↔ offsets.IsChain csr.Cuts := by
  induction offsets with
  | nil => exact ⟨fun _ => .nil, fun _ => ⟨[], rfl⟩⟩
  | cons first rest ih =>
    cases rest with
    | nil => exact ⟨fun _ => .singleton first, fun _ => ⟨[], rfl⟩⟩
    | cons last rest =>
      rw [List.isChain_cons_cons, ← slice_isOk_iff, ← ih]
      constructor
      · rintro ⟨rows, hrows⟩
        obtain ⟨row, hrow, more, hmore, -⟩ := rowsFrom_cons_eq_ok.1 hrows
        exact ⟨⟨row, hrow⟩, more, hmore⟩
      · rintro ⟨⟨row, hrow⟩, more, hmore⟩
        exact ⟨row :: more, rowsFrom_cons_eq_ok.2 ⟨row, hrow, more, hmore, rfl⟩⟩

/-- All rows can be read in order if and only if each two neighboring offsets cut one out. -/
theorem rows_isOk_iff : (∃ rows, csr.rows = .ok rows) ↔ csr.rowOffset.toList.IsChain csr.Cuts :=
  rowsFrom_isOk_iff

theorem length_of_rowsFrom {offsets : List Nat} {rows : List (List Entry)}
    (h : csr.rowsFrom offsets = .ok rows) : rows.length = offsets.length - 1 := by
  induction offsets generalizing rows with
  | nil => cases h; rfl
  | cons first rest ih =>
    cases rest with
    | nil => cases h; rfl
    | cons last rest =>
      obtain ⟨row, -, more, hmore, rfl⟩ := rowsFrom_cons_eq_ok.1 h
      simp [ih hmore]

theorem slice_of_rowsFrom {offsets : List Nat} {rows : List (List Entry)}
    (h : csr.rowsFrom offsets = .ok rows) {i : Nat} (hi : i + 1 < offsets.length) :
    ∃ row, csr.slice offsets[i] offsets[i + 1] = .ok row ∧ rows[i]? = some row := by
  induction offsets generalizing rows i with
  | nil => cases hi
  | cons first rest ih =>
    cases rest with
    | nil => simp at hi
    | cons last rest =>
      obtain ⟨row, hrow, more, hmore, rfl⟩ := rowsFrom_cons_eq_ok.1 h
      cases i with
      | zero => exact ⟨row, hrow, rfl⟩
      | succ i =>
        obtain ⟨row, hrow, hget⟩ := ih hmore (by simpa using hi)
        exact ⟨row, hrow, by rwa [List.getElem?_cons_succ]⟩

theorem rowCount_of_ne_empty (h : csr.rowOffset ≠ #[]) :
    csr.rowOffset.size = csr.rowCount + 1 := by
  unfold rowCount
  split
  · rename_i hsize
    exact absurd (Array.eq_empty_of_size_eq_zero hsize) h
  · assumption

theorem row_eq_slice {i : Nat} (hi : i + 1 < csr.rowOffset.toList.length) :
    csr.row i = (csr.slice csr.rowOffset.toList[i] csr.rowOffset.toList[i + 1]).map some := by
  have hne : csr.rowOffset ≠ #[] := by
    rintro hempty
    simp [hempty] at hi
  have hcount := rowCount_of_ne_empty hne
  have hsize : i + 1 < csr.rowOffset.size := by simpa using hi
  unfold row
  rw [if_neg (by omega), Array.getElem?_eq_getElem (by omega), Array.getElem?_eq_getElem hsize]
  simp

/-- A row can be read if and only if it is none of those counted, or the offsets on its two sides are
there and cut one out. -/
theorem row_isOk_iff {i : Nat} : (∃ row, csr.row i = .ok row) ↔ csr.rowCount ≤ i
    ∨ ∃ first last, csr.rowOffset[i]? = some first ∧ csr.rowOffset[i + 1]? = some last
      ∧ csr.Cuts first last := by
  unfold row
  by_cases hi : csr.rowCount ≤ i
  · rw [if_pos hi]
    exact ⟨fun _ => .inl hi, fun _ => ⟨_, rfl⟩⟩
  · rw [if_neg hi]
    cases csr.rowOffset[i]? with
    | none => simp [hi]
    | some first =>
      cases csr.rowOffset[i + 1]? with
      | none => simp [hi]
      | some last =>
        simp only [hi, false_or, Option.some.injEq, exists_and_left, exists_eq_left', ← slice_isOk_iff]
        constructor
        · rintro ⟨row, hrow⟩
          obtain ⟨entries, hentries, -⟩ := except_map_eq_ok.1 hrow
          exact ⟨entries, hentries⟩
        · rintro ⟨entries, hentries⟩
          exact ⟨some entries, except_map_eq_ok.2 ⟨entries, hentries, rfl⟩⟩

theorem reads_of_rows {rows : List (List Entry)} (hne : csr.rowOffset ≠ #[])
    (hrows : csr.rows = .ok rows) : csr.Reads rows := by
  have hcount := rowCount_of_ne_empty hne
  have hlength : csr.rowCount = rows.length := by
    rw [length_of_rowsFrom hrows, Array.length_toList]
    omega
  refine ⟨hlength, hrows, fun i => ?_⟩
  by_cases hi : csr.rowCount ≤ i
  · rw [row, if_pos hi, List.getElem?_eq_none (hlength ▸ hi)]
  · have hlt : i + 1 < csr.rowOffset.toList.length := by
      rw [Array.length_toList]
      omega
    obtain ⟨row, hslice, hget⟩ := slice_of_rowsFrom hrows hlt
    rw [row_eq_slice hlt, hslice, hget]
    rfl

/-- A block can be read if and only if it has an offset and each two neighboring offsets cut a row out. -/
theorem exists_reads_iff : (∃ rows, csr.Reads rows)
    ↔ csr.rowOffset ≠ #[] ∧ csr.rowOffset.toList.IsChain csr.Cuts := by
  constructor
  · rintro ⟨rows, h⟩
    refine ⟨fun hempty => ?_, rows_isOk_iff.1 ⟨rows, h.rows_eq⟩⟩
    have hcount := h.rowCount_eq
    rw [length_of_rowsFrom h.rows_eq, hempty, rowCount, hempty] at hcount
    cases hcount
  · rintro ⟨hne, hchain⟩
    obtain ⟨rows, hrows⟩ := rows_isOk_iff.2 hchain
    exact ⟨rows, reads_of_rows hne hrows⟩

/-! ## The form of a block -/

/-- The first offset is zero, the offsets do not run backwards, the last one is within the columns, and
there are as many values as columns. -/
structure WellFormed (csr : Csr) : Prop where
  start : csr.rowOffset.toList.head? = some 0
  ascending : csr.rowOffset.toList.Pairwise (· ≤ ·)
  stop : ∀ last ∈ csr.rowOffset.toList.getLast?, last ≤ csr.col.size
  values : csr.value.size = csr.col.size

theorem wellFormed_iff_forall : csr.WellFormed
    ↔ csr.rowOffset.toList.head? = some 0 ∧ csr.rowOffset.toList.Pairwise (· ≤ ·)
      ∧ (∀ last ∈ csr.rowOffset.toList.getLast?, last ≤ csr.col.size)
      ∧ csr.value.size = csr.col.size :=
  ⟨fun h => ⟨h.start, h.ascending, h.stop, h.values⟩, fun ⟨h, h', h'', h'''⟩ => ⟨h, h', h'', h'''⟩⟩

instance : Decidable csr.WellFormed := decidable_of_iff' _ wellFormed_iff_forall

theorem WellFormed.le_of_mem (h : csr.WellFormed) {offset : Nat} (hmem : offset ∈ csr.rowOffset.toList) :
    offset ≤ csr.col.size := by
  have hne := List.ne_nil_of_mem hmem
  have hlast := h.stop _ (List.getLast?_eq_some_getLast hne)
  exact (h.ascending.rel_getLast hmem).trans hlast

theorem WellFormed.cuts (h : csr.WellFormed) : csr.rowOffset.toList.IsChain csr.Cuts := by
  have hcuts : csr.rowOffset.toList.Pairwise csr.Cuts := by
    refine (List.Pairwise.and_mem.1 h.ascending).imp ?_
    rintro first last ⟨-, hlast, hle⟩
    have hcol := h.le_of_mem hlast
    exact ⟨hle, hcol, h.values ▸ hcol⟩
  exact hcuts.isChain

/-- A well-formed block can be read. -/
theorem WellFormed.exists_reads (h : csr.WellFormed) : ∃ rows, csr.Reads rows := by
  refine exists_reads_iff.2 ⟨fun hempty => ?_, h.cuts⟩
  have hstart := h.start
  rw [hempty] at hstart
  cases hstart

/-! ## Building -/

theorem le_of_mem_offsetsFrom {first offset : Nat} {rows : List (List Entry)}
    (h : offset ∈ offsetsFrom first rows) :
    first ≤ offset ∧ offset ≤ first + rows.flatten.length := by
  induction rows generalizing first with
  | nil =>
    obtain rfl := List.mem_singleton.1 h
    simp
  | cons row rows ih =>
    rw [List.flatten_cons, List.length_append]
    rcases List.mem_cons.1 h with rfl | h
    · omega
    · have := ih h
      omega

theorem pairwise_offsetsFrom (first : Nat) (rows : List (List Entry)) :
    (offsetsFrom first rows).Pairwise (· ≤ ·) := by
  induction rows generalizing first with
  | nil => exact List.pairwise_singleton ..
  | cons row rows ih =>
    refine List.pairwise_cons.2 ⟨fun offset hoffset => ?_, ih _⟩
    have := (le_of_mem_offsetsFrom hoffset).1
    omega

theorem Holds.wellFormed {rows : List (List Entry)} {pending : List Entry}
    (h : csr.Holds rows pending) : csr.WellFormed where
  start := by
    obtain ⟨offsets, hoffsets⟩ := offsetsFrom_eq_cons 0 rows
    rw [h.rowOffset, hoffsets, List.head?_cons]
  ascending := h.rowOffset ▸ pairwise_offsetsFrom 0 rows
  stop := by
    intro last hlast
    have hmem := List.mem_of_getLast? hlast
    rw [h.rowOffset] at hmem
    have hle := (le_of_mem_offsetsFrom hmem).2
    have hnnz := h.nnz_eq
    rw [List.length_append] at hnnz
    unfold nnz at hnnz
    omega
  values := by
    rw [← Array.length_toList, ← Array.length_toList, h.col, h.value, List.length_map, List.length_map]

/-- Offsets that do not run backwards and stay within the entries cut these into rows, and into the
entries that are left. -/
theorem exists_rows_of_offsets (entries : List Entry) {first : Nat} {offsets : List Nat}
    (hascending : (first :: offsets).Pairwise (· ≤ ·))
    (hwithin : ∀ offset ∈ first :: offsets, offset ≤ entries.length) :
    ∃ rows pending, offsetsFrom first rows = first :: offsets
      ∧ rows.flatten ++ pending = entries.drop first := by
  -- the entries before `first` are in rows that are cut off already
  induction offsets generalizing first with
  | nil => exact ⟨[], entries.drop first, rfl, rfl⟩
  | cons last offsets ih =>
    obtain ⟨hfirst, hrest⟩ := List.pairwise_cons.1 hascending
    obtain ⟨-, hwithin⟩ := List.forall_mem_cons.1 hwithin
    obtain ⟨rows, pending, hoffsets, hentries⟩ := ih hrest hwithin
    have hle := hfirst last List.mem_cons_self
    have hlast := hwithin last List.mem_cons_self
    have hlength : ((entries.drop first).take (last - first)).length = last - first := by
      rw [List.length_take, List.length_drop]
      omega
    refine ⟨(entries.drop first).take (last - first) :: rows, pending, ?_, ?_⟩
    · rw [offsetsFrom, hlength, Nat.add_sub_cancel' hle, hoffsets]
    · have hdrop : entries.drop last = (entries.drop first).drop (last - first) := by
        rw [List.drop_drop, Nat.add_sub_cancel' hle]
      rw [List.flatten_cons, List.append_assoc, hentries, hdrop, List.take_append_drop]

theorem WellFormed.exists_holds (h : csr.WellFormed) : ∃ rows pending, csr.Holds rows pending := by
  obtain ⟨offsets, hoffsets⟩ : ∃ offsets, csr.rowOffset.toList = 0 :: offsets := by
    have hstart := h.start
    cases hlist : csr.rowOffset.toList with
    | nil => simp [hlist] at hstart
    | cons first offsets =>
      obtain rfl : first = 0 := by simpa [hlist] using hstart
      exact ⟨offsets, rfl⟩
  have hlength : csr.col.toList.length = csr.value.toList.length := by simp [h.values]
  have hwithin : ∀ offset ∈ 0 :: offsets,
      offset ≤ (csr.col.toList.zip csr.value.toList).length := by
    intro offset hoffset
    have := h.le_of_mem (hoffsets ▸ hoffset)
    simpa [h.values] using this
  obtain ⟨rows, pending, hrows, hentries⟩ :=
    exists_rows_of_offsets (csr.col.toList.zip csr.value.toList) (hoffsets ▸ h.ascending) hwithin
  rw [List.drop_zero] at hentries
  refine ⟨rows, pending, hoffsets.trans hrows.symm, ?_, ?_⟩
  · rw [hentries, List.map_fst_zip hlength.le]
  · rw [hentries, List.map_snd_zip hlength.ge]

/-- Rows and open entries determine the block. -/
theorem Holds.unique {other : Csr} {rows : List (List Entry)} {pending : List Entry}
    (h : csr.Holds rows pending) (h' : other.Holds rows pending) : csr = other := by
  obtain ⟨rowOffset, col, value⟩ := csr
  obtain ⟨rowOffset', col', value'⟩ := other
  obtain rfl : rowOffset = rowOffset' := Array.toList_inj.1 (h.rowOffset.trans h'.rowOffset.symm)
  obtain rfl : col = col' := Array.toList_inj.1 (h.col.trans h'.col.symm)
  obtain rfl : value = value' := Array.toList_inj.1 (h.value.trans h'.value.symm)
  rfl

theorem holds_addEntries (rows : List (List Entry)) (pending : List Entry) :
    ((ofRows rows).addEntries pending).Holds rows pending := by
  simpa using (holds_ofRows rows).addEntries pending

theorem wellFormed_ofRows (rows : List (List Entry)) : (ofRows rows).WellFormed :=
  (holds_ofRows rows).wellFormed

/-- The well-formed blocks are those that are built of closed rows and of entries of an open row. -/
theorem wellFormed_iff : csr.WellFormed ↔ ∃ rows pending, csr = (ofRows rows).addEntries pending := by
  constructor
  · intro h
    obtain ⟨rows, pending, hholds⟩ := h.exists_holds
    exact ⟨rows, pending, hholds.unique (holds_addEntries rows pending)⟩
  · rintro ⟨rows, pending, rfl⟩
    exact (holds_addEntries rows pending).wellFormed

end BipartiteBatch.Csr
