import BipartiteBatch.Proofs.FirstSeen

/-!
# Indexings while they are built

An indexing is built by inserting nodes and by removing all of them. It then holds the distinct nodes that were
inserted since the last removal, each at the place where it was first seen, and its indices are these places:
an insertion moves no node that has one.

* `Indexing.Change`, `Indexing.built` : changes, and the indexing after them;
* `Indexing.present`, `Indexing.nodes_built` : the nodes inserted since the last removal, which it holds;
* `Indexing.Inserted`, `Indexing.inserted_insert` : what an insertion does;
* `Indexing.beq_iff` : when indexings are equal;
* `Indexing.built_numbers` : all of this of an indexing that was built.
-/

namespace BipartiteBatch.Indexing

/-! ## Changes -/

inductive Change where
  | insert (node : NodeId)
  | clear

def change (ix : Indexing) : Change → Indexing
  | .insert node => (ix.insert node).1
  | .clear => ix.clear

def built (changes : List Change) : Indexing := changes.foldl change empty

/-- The nodes inserted since the last removal, after one more change. -/
def Change.keep (nodes : List NodeId) : Change → List NodeId
  | .insert node => nodes ++ [node]
  | .clear => []

/-- The nodes inserted since the last removal, in order and with their repetitions. -/
def present (changes : List Change) : List NodeId := changes.foldl Change.keep []

theorem nodes_clear (ix : Indexing) : ix.clear.nodes = [] := by
  simp [clear, nodes, Array.shrink_eq_take]

/-- A change keeps to the distinct nodes in first-seen order. -/
theorem nodes_change {ix : Indexing} {nodes : List NodeId} (h : ix.nodes = nodes.eraseDups) (c : Change) :
    (ix.change c).nodes = (c.keep nodes).eraseDups := by
  cases c with
  | insert node =>
    rw [change, nodes_insert, h, Change.keep, eraseDups_concat]
    simp
  | clear => exact nodes_clear ix

theorem nodes_foldl_change {ix : Indexing} {nodes : List NodeId} (h : ix.nodes = nodes.eraseDups)
    (changes : List Change) :
    (changes.foldl change ix).nodes = (changes.foldl Change.keep nodes).eraseDups := by
  induction changes generalizing ix nodes with
  | nil => exact h
  | cons c changes ih => exact ih (nodes_change h c)

/-- An indexing holds the distinct nodes inserted since the last removal, in first-seen order. -/
theorem nodes_built (changes : List Change) : (built changes).nodes = (present changes).eraseDups :=
  nodes_foldl_change rfl changes

/-! ## Reading -/

variable {ix other : Indexing} {node : NodeId}

theorem contains_iff_mem : ix.contains node = true ↔ node ∈ ix.nodes := by
  rw [contains, Std.HashMap.contains_eq_isSome_getElem?, Option.isSome_iff_ne_none]
  exact (not_congr get?_eq_none_iff).trans Decidable.not_not

theorem isEmpty_iff : ix.isEmpty = true ↔ ix.nodes = [] := by
  rw [isEmpty, Array.isEmpty_iff, nodes, Array.toList_eq_nil_iff]

theorem get?_eq_some_iff_lt {i : Nat} :
    ix.get? node = some i ↔ i < ix.size ∧ ix.nodes[i]? = some node :=
  ⟨fun h => ⟨lt_size_of_get? h, get?_eq_some_iff.1 h⟩, fun h => get?_eq_some_iff.2 h.2⟩

/-! ## Inserting -/

/-- What an insertion gives: the index that the node has afterwards, every index that there was, and one more
node if and only if it was not there. -/
structure Inserted (ix : Indexing) (node : NodeId) (ix' : Indexing) (i : Nat) : Prop where
  get?_self : ix'.get? node = some i
  get?_other : ∀ other j, ix.get? other = some j → ix'.get? other = some j
  size_eq : ix'.size = if node ∈ ix.nodes then ix.size else ix.size + 1

theorem inserted_insert (ix : Indexing) (node : NodeId) :
    Inserted ix node (ix.insert node).1 (ix.insert node).2 := by
  cases hget : ix.get? node with
  | some i =>
    rw [insert_of_get?_eq_some hget]
    refine ⟨hget, fun _ _ => id, ?_⟩
    rw [if_pos (List.mem_iff_getElem?.2 ⟨i, get?_eq_some_iff.1 hget⟩)]
  | none =>
    rw [insert_of_get?_eq_none hget]
    refine ⟨?_, fun other j hother => ?_, ?_⟩
    · rw [get?_eq_some_iff, nodes_push, ← length_nodes, List.getElem?_concat_length]
    · rw [get?_eq_some_iff, nodes_push]
      exact getElem?_of_isPrefix (List.prefix_append _ _) (get?_eq_some_iff.1 hother)
    · rw [if_neg (get?_eq_none_iff.1 hget), ← length_nodes, nodes_push, List.length_append,
        List.length_singleton, length_nodes]

/-! ## Equality -/

theorem get?_congr (h : ix.nodes = other.nodes) (node : NodeId) : ix.get? node = other.get? node := by
  refine Option.ext fun i => ?_
  rw [get?_eq_some_iff, get?_eq_some_iff, h]

/-- The order of the nodes says all of an indexing. -/
theorem beq_iff : (ix == other) = true ↔ ix.nodes = other.nodes := by
  show Indexing.beq ix other = true ↔ _
  rw [Indexing.beq, Bool.and_eq_true, Bool.and_eq_true, beq_iff_eq, ← Array.toList_inj]
  refine ⟨fun h => h.1.1, fun h => ⟨⟨h, ?_⟩, ?_⟩⟩
  · have hequiv : ix.position.Equiv other.position := .of_forall_getElem?_eq (get?_congr h)
    rw [hequiv.size_eq, beq_self_eq_true]
  · rw [List.all_eq_true]
    rintro ⟨node, i⟩ hmem
    have hget : ix.get? node = some i := Std.HashMap.mem_toList_iff_getElem?_eq_some.1 hmem
    show (other.get? node == some i) = true
    rw [← get?_congr h, hget, beq_self_eq_true]

theorem ofList_nodes_beq (h : ix.nodes.Nodup) : (ofList ix.nodes == ix) = true :=
  beq_iff.2 (nodes_ofList_of_nodup h)

/-! ## What is built -/

/-- Whatever nodes were inserted and removed, an indexing holds the distinct nodes inserted since the last
removal in first-seen order. A node has an index if and only if it is one of them, and then its place; the next
insertion gives the index that its node has from then on, moves no other and adds a node if and only if it is
new. Indexings are equal if and only if they hold the same nodes in the same order; so the indexing of the
nodes that were inserted, and that of the nodes it holds, are equal to it, and so are the indexings of one
sequence. -/
theorem built_numbers (changes : List Change) :
    let ix := built changes
    ix.nodes = (present changes).eraseDups
    ∧ (∀ node i, ix.get? node = some i ↔ i < ix.size ∧ ix.nodes[i]? = some node)
    ∧ (∀ node, ix.get? node = none ↔ node ∉ present changes)
    ∧ (∀ node, ix.contains node = true ↔ node ∈ present changes)
    ∧ ix.size = ix.nodes.length ∧ (ix.isEmpty = true ↔ present changes = [])
    ∧ (∀ node, Inserted ix node (ix.insert node).1 (ix.insert node).2)
    ∧ (∀ others, (built others == ix) = true ↔ (built others).nodes = ix.nodes)
    ∧ (ofList (present changes) == ix) = true ∧ (ofList ix.nodes == ix) = true
    ∧ ∀ nodes, (ofList nodes == ofList nodes) = true
      ∧ (ofList (ofList nodes).nodes == ofList nodes) = true := by
  intro ix
  have hnodes : ix.nodes = (present changes).eraseDups := nodes_built changes
  have hmem : ∀ node, node ∈ ix.nodes ↔ node ∈ present changes := fun node => by
    rw [hnodes, List.mem_eraseDups]
  refine ⟨hnodes, fun node i => get?_eq_some_iff_lt, fun node => ?_, fun node => ?_,
    (length_nodes ix).symm, ?_, inserted_insert ix, fun others => beq_iff, beq_iff.2 ?_,
    ofList_nodes_beq (hnodes ▸ nodup_eraseDups _), fun nodes => ⟨beq_iff.2 rfl, ofList_nodes_beq ?_⟩⟩
  · rw [get?_eq_none_iff, hmem]
  · rw [contains_iff_mem, hmem]
  · rw [isEmpty_iff, hnodes, eraseDups_eq_nil_iff]
  · rw [nodes_ofList, hnodes]
  · rw [nodes_ofList]
    exact nodup_eraseDups nodes

/-- A node that was inserted before the others were removed is gone, and one that is inserted again keeps its
place. -/
theorem built_numbers_insertedAgain :
    let changes : List Change := [.insert 30, .insert 10, .clear, .insert 20, .insert 10, .insert 20]
    (built changes).nodes = [20, 10] ∧ (built changes).get? 30 = none
      ∧ ((built changes).insert 10).1.get? 10 = some ((built changes).insert 10).2
      ∧ (ofList [20, 10, 20] == built changes) = true := by
  intro changes
  obtain ⟨hnodes, -, hnone, -, -, -, hinserted, -, hbuilt, -⟩ := built_numbers changes
  exact ⟨hnodes, (hnone 30).2 (by decide), (hinserted 10).get?_self, hbuilt⟩

end BipartiteBatch.Indexing
