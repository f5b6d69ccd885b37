import BipartiteBatch.Proofs.ReadableBlocks

/-!
# Blocks while they are built

A block is built by changes: an entry is added to the open row, the open row is closed, or everything is
removed. Beside it stands a draft, the closed rows as lists and the entries of the open row, on which the
changes are plain operations of lists. After any changes the block stands for the draft, so that what is read
from the block is read from the draft, and two blocks are equal if and only if their drafts are.

* `Csr.Change`, `Csr.built` : changes, and the block after them;
* `Csr.Draft`, `Csr.Draft.of` : a draft, and the one after changes;
* `Csr.Holds.change`, `Csr.holds_built` : a change keeps the block and the draft together, and so do all;
* `Csr.Holds.beq_eq` : when blocks are equal;
* `Csr.built_reads` : all of this of a block that was built.
-/

namespace BipartiteBatch.Csr

/-! ## Changes -/

inductive Change where
  | emplace (col : UInt64) (value : Float32)
  | addRow
  | clear

def change (csr : Csr) : Change → Csr
  | .emplace col value => csr.emplace col value
  | .addRow => csr.addRow
  | .clear => csr.clear

def built (changes : List Change) : Csr := changes.foldl change empty

/-- Closed rows, and the entries of the open row. Drafts are equal if their entries are, the values compared
as floats. -/
structure Draft where
  closed : List (List Entry) := []
  pending : List Entry := []
deriving BEq

namespace Draft

def change (d : Draft) : Change → Draft
  | .emplace col value => { d with pending := d.pending ++ [(col, value)] }
  | .addRow => { closed := d.closed ++ [d.pending] }
  | .clear => {}

def of (changes : List Change) : Draft := changes.foldl change {}

end Draft

/-- A change of the block is the change of the draft. -/
theorem Holds.change {csr : Csr} {d : Draft} (h : csr.Holds d.closed d.pending) (c : Change) :
    (csr.change c).Holds (d.change c).closed (d.change c).pending := by
  cases c with
  | emplace col value => exact h.emplace col value
  | addRow => exact h.addRow
  | clear =>
    rw [Csr.change, clear_eq_empty]
    exact holds_empty

theorem Holds.foldl_change {csr : Csr} {d : Draft} (h : csr.Holds d.closed d.pending)
    (changes : List Change) : (changes.foldl Csr.change csr).Holds
      (changes.foldl Draft.change d).closed (changes.foldl Draft.change d).pending := by
  induction changes generalizing csr d with
  | nil => exact h
  | cons c changes ih => exact ih (h.change c)

/-- A block that was built stands for the draft. -/
theorem holds_built (changes : List Change) :
    (built changes).Holds (Draft.of changes).closed (Draft.of changes).pending :=
  Holds.foldl_change (d := {}) holds_empty changes

/-! ## Entries that wait for their row to be closed -/

theorem Draft.of_append (changes more : List Change) :
    of (changes ++ more) = more.foldl change (of changes) :=
  List.foldl_append

theorem Draft.foldl_emplace (d : Draft) (entries : List Entry) :
    (entries.map fun e => Change.emplace e.1 e.2).foldl change d
      = { d with pending := d.pending ++ entries } := by
  induction entries generalizing d with
  | nil => rw [List.append_nil]; rfl
  | cons e entries ih =>
    rw [List.map_cons, List.foldl_cons, ih, Draft.change, List.append_assoc, List.singleton_append]

/-- Entries that are added stay in the open row, -/
theorem Draft.closed_emplaced (changes : List Change) (entries : List Entry) :
    (of (changes ++ entries.map fun e => .emplace e.1 e.2)).closed = (of changes).closed := by
  rw [of_append, foldl_emplace]

/-- and become a row, with those before them, when the row is closed. -/
theorem Draft.closed_addRow (changes : List Change) (entries : List Entry) :
    (of (changes ++ (entries.map fun e => .emplace e.1 e.2) ++ [.addRow])).closed
      = (of changes).closed ++ [(of changes).pending ++ entries] := by
  rw [of_append, of_append, foldl_emplace]
  rfl

/-! ## Equality -/

section Lists
variable {α β : Type} [BEq α] [BEq β]

theorem beq_pairs (xs ys : List (α × β)) :
    (xs == ys) = (xs.map Prod.fst == ys.map Prod.fst && xs.map Prod.snd == ys.map Prod.snd) := by
  induction xs generalizing ys with
  | nil => cases ys <;> rfl
  | cons x xs ih => cases ys with
    | nil => rfl
    | cons y ys =>
      have hpair : (x == y) = (x.1 == y.1 && x.2 == y.2) := rfl
      simp only [List.map_cons, List.cons_beq_cons, ih, hpair]
      ac_rfl

/-- Lists whose first parts are of one length are compared part by part. -/
theorem beq_append {xs xs' : List α} (hlength : xs.length = xs'.length) (ys ys' : List α) :
    (xs ++ ys == xs' ++ ys') = (xs == xs' && ys == ys') := by
  induction xs generalizing xs' with
  | nil =>
    obtain rfl := List.eq_nil_of_length_eq_zero hlength.symm
    rfl
  | cons x xs ih => cases xs' with
    | nil => cases hlength
    | cons x' xs' =>
      rw [List.cons_append, List.cons_append, List.cons_beq_cons, List.cons_beq_cons,
        ih (Nat.succ.inj hlength), Bool.and_assoc]

/-- Lists of lists whose lengths agree are compared by all of their items in order. -/
theorem beq_flatten_append {xss yss : List (List α)}
    (hlengths : xss.map List.length = yss.map List.length) (xs ys : List α) :
    (xss.flatten ++ xs == yss.flatten ++ ys) = (xss == yss && xs == ys) := by
  induction xss generalizing yss with
  | nil =>
    obtain rfl := List.map_eq_nil_iff.1 hlengths.symm
    rfl
  | cons first xss ih => cases yss with
    | nil => cases hlengths
    | cons first' yss =>
      obtain ⟨hfirst, hrest⟩ := List.cons.inj hlengths
      rw [List.flatten_cons, List.flatten_cons, List.append_assoc, List.append_assoc, beq_append hfirst,
        ih hrest, List.cons_beq_cons, Bool.and_assoc]

theorem lengths_eq_of_beq {xss yss : List (List α)} (h : (xss == yss) = true) :
    xss.map List.length = yss.map List.length := by
  induction xss generalizing yss with
  | nil => cases yss with
    | nil => rfl
    | cons ys yss => cases h
  | cons xs xss ih => cases yss with
    | nil => cases h
    | cons ys yss =>
      rw [List.cons_beq_cons, Bool.and_eq_true] at h
      rw [List.map_cons, List.map_cons, List.length_eq_of_beq h.1, ih h.2]

end Lists

theorem offsetsFrom_ne_nil (first : Nat) (rows : List (List Entry)) : offsetsFrom first rows ≠ [] := by
  cases rows <;> exact List.cons_ne_nil _ _

theorem eq_of_offsetsFrom_eq {first first' : Nat} {rows rows' : List (List Entry)}
    (h : offsetsFrom first rows = offsetsFrom first' rows') : first = first' := by
  cases rows <;> cases rows' <;> exact (List.cons.inj h).1

/-- The offsets of rows say how long each of them is, and nothing else. -/
theorem offsetsFrom_inj {first : Nat} {rows rows' : List (List Entry)} :
    offsetsFrom first rows = offsetsFrom first rows' ↔ rows.map List.length = rows'.map List.length := by
  induction rows generalizing first rows' with
  | nil => cases rows' with
    | nil => exact iff_of_true rfl rfl
    | cons row' rows' => simp [offsetsFrom, (offsetsFrom_ne_nil _ rows').symm]
  | cons row rows ih => cases rows' with
    | nil => simp [offsetsFrom, offsetsFrom_ne_nil]
    | cons row' rows' =>
      rw [offsetsFrom, offsetsFrom, List.cons_inj_right, List.map_cons, List.map_cons, List.cons.injEq]
      constructor
      · intro h
        -- the next offsets are where the first rows end
        have hrow : row.length = row'.length := Nat.add_left_cancel (eq_of_offsetsFrom_eq h)
        rw [hrow] at h
        exact ⟨hrow, ih.1 h⟩
      · rintro ⟨hrow, hrows⟩
        rw [hrow, ih.2 hrows]

/-- Blocks are equal if and only if the rows and the open rows that they stand for are. -/
theorem Holds.beq_eq {csr other : Csr} {rows rows' : List (List Entry)} {pending pending' : List Entry}
    (h : csr.Holds rows pending) (h' : other.Holds rows' pending') :
    (csr == other) = (rows == rows' && pending == pending') := by
  show (csr.rowOffset == other.rowOffset && csr.col == other.col && csr.value == other.value) = _
  rw [← Array.beq_toList, ← Array.beq_toList, ← Array.beq_toList, h.rowOffset, h'.rowOffset,
    h.col, h'.col, h.value, h'.value, Bool.and_assoc, ← beq_pairs]
  by_cases hlengths : rows.map List.length = rows'.map List.length
  · rw [offsetsFrom_inj.2 hlengths, beq_self_eq_true, Bool.true_and, beq_flatten_append hlengths]
  · have hoffsets : (offsetsFrom 0 rows == offsetsFrom 0 rows') = false :=
      beq_eq_false_iff_ne.2 (mt offsetsFrom_inj.1 hlengths)
    have hrows : (rows == rows') = false := Bool.eq_false_iff.2 (mt lengths_eq_of_beq hlengths)
    rw [hoffsets, hrows, Bool.false_and, Bool.false_and]

/-! ## What is read -/

/-- Whatever changes a block was built by, its rows are the closed rows of the draft, read in order or by
number, and as many as it counts; the entries of the open row count as entries and are no row until it is
closed. The offsets, one more than rows, begin at zero, do not run backwards and stay within the entries, each
of which has a column and a value. Two blocks that were built are equal if and only if their drafts are. -/
theorem built_reads (changes : List Change) :
    (built changes).Reads (Draft.of changes).closed
    ∧ (built changes).nnz = (Draft.of changes).closed.flatten.length + (Draft.of changes).pending.length
    ∧ (∀ entries : List Entry,
      let emplaced := changes ++ entries.map fun e => .emplace e.1 e.2
      (built emplaced).rows = (built changes).rows
      ∧ (built (emplaced ++ [.addRow])).rows
        = .ok ((Draft.of changes).closed ++ [(Draft.of changes).pending ++ entries]))
    ∧ (built changes).rowOffset.size = (built changes).rowCount + 1
    ∧ (built changes).rowOffset[0]? = some 0
    ∧ (built changes).rowOffset.toList.Pairwise (· ≤ ·)
    ∧ (∀ offset ∈ (built changes).rowOffset, offset ≤ (built changes).nnz)
    ∧ (built changes).value.size = (built changes).col.size
    ∧ ∀ others, (built others == built changes) = (Draft.of others == Draft.of changes) := by
  have hholds := holds_built changes
  have hform := hholds.wellFormed
  refine ⟨⟨hholds.rowCount_eq, hholds.rows_eq, hholds.row_eq⟩, ?_, fun entries => ⟨?_, ?_⟩, ?_, ?_,
    hform.ascending, fun offset hoffset => hform.le_of_mem (Array.mem_toList_iff.2 hoffset), hform.values,
    fun others => (holds_built others).beq_eq hholds⟩
  · rw [hholds.nnz_eq, List.length_append]
  · rw [(holds_built _).rows_eq, hholds.rows_eq, Draft.closed_emplaced]
  · rw [(holds_built _).rows_eq, Draft.closed_addRow]
  · rw [hholds.size_rowOffset, hholds.rowCount_eq]
  · rw [← Array.getElem?_toList, ← List.head?_eq_getElem?]
    exact hform.start

/-- Removing everything in the middle of a row leaves nothing of it, and an empty row counts as one. -/
theorem built_reads_clearedInRow :
    let changes : List Change :=
      [.emplace 1 1.0, .addRow, .emplace 2 0.25, .clear, .addRow, .emplace 4 0.75, .addRow, .emplace 5 0.5]
    (built changes).Reads [[], [(4, 0.75)]] ∧ (built changes).nnz = 2
      ∧ (built (changes ++ [.emplace 6 1.0, .addRow])).rows = .ok [[], [(4, 0.75)], [(5, 0.5), (6, 1.0)]] := by
  intro changes
  obtain ⟨hreads, hnnz, hpending, -⟩ := built_reads changes
  exact ⟨hreads, hnnz, (hpending [(6, 1.0)]).2⟩

end BipartiteBatch.Csr
