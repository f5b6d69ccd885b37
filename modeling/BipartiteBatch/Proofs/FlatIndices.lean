import BipartiteBatch.FlatIndex
import BipartiteBatch.Proofs.FirstSeen

/-!
# The flat index as a bijection

The nodes of a flat index make one list, users first, and the index of a node is its position there. So
no two nodes share an index, and an index lies in the range of the group of its node. Where the indexing of
each group has only nodes of that group, each index is taken.

* `GroupTags.Known` : a node of either group, `GroupTags.groupOf?_eq_none` : one of neither;
* `FlatIndex.nodes` : the list, `FlatIndex.getElem?_of_index` : what stands at an index;
* `FlatIndex.index_eq_ok`, `FlatIndex.index_eq_error` : the outcomes of a look-up;
* `FlatIndex.InRange` : the indices of a group, `FlatIndex.existsUnique_inRange` : they are those of no
  other;
* `FlatIndex.index_bijective` : all of this for any tags and indexings.
-/

namespace BipartiteBatch

/-! ## Groups -/

namespace GroupTags

/-- The node is a user or an item. -/
def Known (tags : GroupTags) (node : NodeId) : Prop :=
  node.tag = tags.user ∨ node.tag = tags.item

instance (tags : GroupTags) (node : NodeId) : Decidable (tags.Known node) :=
  inferInstanceAs (Decidable (_ ∨ _))

variable {tags : GroupTags} {node : NodeId}

theorem Known.exists_group (h : tags.Known node) : ∃ group, tags.groupOf? node = some group := by
  unfold groupOf?
  by_cases huser : node.tag = tags.user
  · exact ⟨.user, if_pos huser⟩
  · have hitem : node.tag = tags.item := h.resolve_left huser
    exact ⟨.item, by rw [if_neg huser, if_pos hitem]⟩

theorem groupOf?_eq_none : tags.groupOf? node = none ↔ ¬ tags.Known node := by
  constructor
  · intro h hknown
    obtain ⟨group, hgroup⟩ := hknown.exists_group
    rw [h] at hgroup
    cases hgroup
  · intro h
    obtain ⟨huser, hitem⟩ := not_or.1 h
    rw [groupOf?, if_neg huser, if_neg hitem]

theorem groupOf?_eq_user : tags.groupOf? node = some .user ↔ node.tag = tags.user := by
  unfold groupOf?
  by_cases huser : node.tag = tags.user
  · simp [huser]
  · by_cases hitem : node.tag = tags.item
    · rw [if_neg huser, if_pos hitem]
      simp [huser]
    · rw [if_neg huser, if_neg hitem]
      simp [huser]

theorem groupOf?_eq_item (hne : tags.user ≠ tags.item) :
    tags.groupOf? node = some .item ↔ node.tag = tags.item := by
  unfold groupOf?
  by_cases huser : node.tag = tags.user
  · simp [huser, hne]
  · by_cases hitem : node.tag = tags.item
    · simp [hitem, Ne.symm hne]
    · simp [huser, hitem]

theorem groupOf?_eq_some (hne : tags.user ≠ tags.item) {group : Group} :
    tags.groupOf? node = some group ↔ node.tag = tags.tagOf group := by
  cases group with
  | user => exact groupOf?_eq_user
  | item => exact groupOf?_eq_item hne

end GroupTags

namespace FlatIndex

variable {flat : FlatIndex} {node : NodeId} {i : Nat}

/-! ## The nodes of a flat index -/

def nodes (flat : FlatIndex) : List NodeId := flat.users.nodes ++ flat.items.nodes

theorem length_nodes : flat.nodes.length = flat.size := by
  rw [nodes, List.length_append, Indexing.length_nodes, Indexing.length_nodes, size]

/-! ## Look-ups -/

theorem index_eq_ok :
    flat.index node = .ok i ↔ ∃ group j, flat.tags.groupOf? node = some group
      ∧ (flat.indexing group).get? node = some j ∧ i = (flat.range group).1 + j := by
  unfold index GroupTags.groupOf
  cases hgroup : flat.tags.groupOf? node with
  | none => simp
  | some group =>
    cases hget : (flat.indexing group).get? node with
    | none => simp [hget]
    | some j => simp [hget, eq_comm]

theorem exists_index {group : Group} (hgroup : flat.tags.groupOf? node = some group)
    (hmem : node ∈ (flat.indexing group).nodes) : ∃ i, flat.index node = .ok i := by
  obtain ⟨j, hj⟩ := Indexing.exists_get?_of_mem hmem
  exact ⟨_, index_eq_ok.2 ⟨group, j, hgroup, hj, rfl⟩⟩

/-- The nodes with an index are those in the indexing of their group. -/
theorem exists_index_iff :
    (∃ i, flat.index node = .ok i)
      ↔ ∃ group, flat.tags.groupOf? node = some group ∧ node ∈ (flat.indexing group).nodes := by
  constructor
  · rintro ⟨i, h⟩
    obtain ⟨group, j, hgroup, hget, -⟩ := index_eq_ok.1 h
    exact ⟨group, hgroup, List.mem_of_getElem? (Indexing.get?_eq_some_iff.1 hget)⟩
  · rintro ⟨group, hgroup, hmem⟩
    exact exists_index hgroup hmem

/-- A node of no group is told as such, and a node that its group's indexing lacks as well. -/
theorem index_eq_error {e : NodeError} :
    flat.index node = .error e
      ↔ (¬ flat.tags.Known node ∧ e = .unknownGroup node flat.tags)
        ∨ ∃ group, flat.tags.groupOf? node = some group ∧ node ∉ (flat.indexing group).nodes
          ∧ e = .notIndexed node group := by
  unfold index GroupTags.groupOf
  rw [← GroupTags.groupOf?_eq_none]
  cases hgroup : flat.tags.groupOf? node with
  | none => simp [eq_comm]
  | some group =>
    cases hget : (flat.indexing group).get? node with
    | none =>
      have hlacks := Indexing.get?_eq_none_iff.1 hget
      simp [hget, hlacks, eq_comm]
    | some j =>
      have hmem := List.mem_of_getElem? (Indexing.get?_eq_some_iff.1 hget)
      simp [hget, hmem]

theorem getElem?_of_index (h : flat.index node = .ok i) : flat.nodes[i]? = some node := by
  obtain ⟨group, j, -, hget, rfl⟩ := index_eq_ok.1 h
  have hj := Indexing.get?_eq_some_iff.1 hget
  cases group with
  | user =>
    have hlt : j < flat.users.nodes.length := (List.getElem?_eq_some_iff.1 hj).1
    rw [nodes, range, Nat.zero_add, List.getElem?_append_left hlt]
    exact hj
  | item =>
    have hge : flat.users.nodes.length ≤ flat.users.size + j := by
      rw [Indexing.length_nodes]
      omega
    rw [nodes, range, List.getElem?_append_right hge, Indexing.length_nodes,
      Nat.add_sub_cancel_left]
    exact hj

/-- No two nodes have the same index. -/
theorem eq_of_index {a b : NodeId} (ha : flat.index a = .ok i) (hb : flat.index b = .ok i) : a = b :=
  Option.some.inj ((getElem?_of_index ha).symm.trans (getElem?_of_index hb))

/-! ## Ranges -/

def InRange (flat : FlatIndex) (group : Group) (i : Nat) : Prop :=
  (flat.range group).1 ≤ i ∧ i < (flat.range group).2

theorem inRange_user : flat.InRange .user i ↔ i < flat.users.size := by
  simp only [InRange, range, Nat.zero_le, true_and]

theorem inRange_of_index (h : flat.index node = .ok i) {group : Group}
    (hgroup : flat.tags.groupOf? node = some group) : flat.InRange group i := by
  obtain ⟨found, j, hfound, hget, rfl⟩ := index_eq_ok.1 h
  obtain rfl := Option.some.inj (hgroup.symm.trans hfound)
  have hlt := (List.getElem?_eq_some_iff.1 (Indexing.get?_eq_some_iff.1 hget)).1
  rw [Indexing.length_nodes] at hlt
  cases group with
  | user =>
    rw [inRange_user, range, Nat.zero_add]
    exact hlt
  | item => exact ⟨Nat.le_add_right _ _, Nat.add_lt_add_left hlt _⟩

theorem lt_size_of_inRange {group : Group} (h : flat.InRange group i) : i < flat.size := by
  have hle : flat.users.size ≤ flat.size := Nat.le_add_right _ _
  cases group with
  | user => exact Nat.lt_of_lt_of_le (inRange_user.1 h) hle
  | item => exact h.2

/-- The ranges of the two groups are apart, and together they have the indices below the size. -/
theorem existsUnique_inRange : (∃! group, flat.InRange group i) ↔ i < flat.size := by
  constructor
  · rintro ⟨group, hrange, -⟩
    exact lt_size_of_inRange hrange
  · intro hi
    rcases Nat.lt_or_ge i flat.users.size with hlt | hge
    · refine ⟨.user, inRange_user.2 hlt, fun group hrange => ?_⟩
      cases group with
      | user => rfl
      | item => exact absurd hlt (Nat.not_lt.2 hrange.1)
    · refine ⟨.item, ⟨hge, hi⟩, fun group hrange => ?_⟩
      cases group with
      | user => exact absurd (inRange_user.1 hrange) (Nat.not_lt.2 hge)
      | item => rfl

/-- If each indexing has only nodes of its own group, the node at a place has that place as its index. -/
theorem index_of_getElem? (howned : ∀ group, ∀ node ∈ (flat.indexing group).nodes,
      flat.tags.groupOf? node = some group) (h : flat.nodes[i]? = some node) :
    flat.index node = .ok i := by
  rw [nodes, List.getElem?_append] at h
  split at h
  · have hgroup := howned .user node (List.mem_of_getElem? h)
    exact index_eq_ok.2 ⟨.user, i, hgroup, Indexing.get?_eq_some_iff.2 h, (Nat.zero_add i).symm⟩
  · next hge =>
    have hgroup := howned .item node (List.mem_of_getElem? h)
    refine index_eq_ok.2 ⟨.item, _, hgroup, Indexing.get?_eq_some_iff.2 h, ?_⟩
    rw [Indexing.length_nodes] at hge ⊢
    show i = flat.users.size + (i - flat.users.size)
    omega

/-- A look-up tells a node of no group, tells a node that the indexing of its group lacks, and gives any
other node an index. No two nodes have the same one, and it lies in the range of the group of the node; the
ranges of the two groups share no index and have all below the size. With different tags and only nodes of
its own group in each indexing, each index below the size is that of one node. -/
theorem index_bijective (flat : FlatIndex) :
    (∀ node e, flat.index node = .error e
      ↔ (¬ flat.tags.Known node ∧ e = .unknownGroup node flat.tags)
        ∨ ∃ group, flat.tags.groupOf? node = some group ∧ node ∉ (flat.indexing group).nodes
          ∧ e = .notIndexed node group)
    ∧ (∀ node, (∃ i, flat.index node = .ok i)
      ↔ ∃ group, flat.tags.groupOf? node = some group ∧ node ∈ (flat.indexing group).nodes)
    ∧ (∀ a b i, flat.index a = .ok i → flat.index b = .ok i → a = b)
    ∧ (∀ node i group, flat.index node = .ok i → flat.tags.groupOf? node = some group →
      flat.InRange group i)
    ∧ (∀ i, (∃! group, flat.InRange group i) ↔ i < flat.size)
    ∧ (∀ i group, flat.InRange group i → i < flat.size)
    ∧ (flat.tags.user ≠ flat.tags.item →
      (∀ group, ∀ node ∈ (flat.indexing group).nodes, node.tag = flat.tags.tagOf group) →
        ∀ i < flat.size, ∃! node, flat.index node = .ok i) := by
  refine ⟨fun node e => index_eq_error, fun node => exists_index_iff, fun a b i => eq_of_index,
    fun node i group h => inRange_of_index h, fun i => existsUnique_inRange, fun i group => lt_size_of_inRange,
    fun hne hown i hi => ?_⟩
  have howned : ∀ group, ∀ node ∈ (flat.indexing group).nodes, flat.tags.groupOf? node = some group :=
    fun group node hmem => (GroupTags.groupOf?_eq_some hne).2 (hown group node hmem)
  rw [← length_nodes] at hi
  have hat : flat.nodes[i]? = some flat.nodes[i] := List.getElem?_eq_getElem hi
  have hindex := index_of_getElem? howned hat
  exact ⟨flat.nodes[i], hindex, fun other hother => eq_of_index hother hindex⟩

/-- Two users, one of them seen twice, and an item. -/
def twoUsersOneItem : FlatIndex where
  tags := {}
  users := Indexing.ofList [5, 3, 5]
  items := Indexing.ofList [0x1000000000001]

theorem index_bijective_twoUsersOneItem :
    (twoUsersOneItem.tags.user ≠ twoUsersOneItem.tags.item)
    ∧ (∀ group, ∀ node ∈ (twoUsersOneItem.indexing group).nodes,
      node.tag = twoUsersOneItem.tags.tagOf group)
    ∧ twoUsersOneItem.size = 3 ∧ ∃! node, twoUsersOneItem.index node = .ok 2 := by
  have hne : twoUsersOneItem.tags.user ≠ twoUsersOneItem.tags.item := by decide
  have husers : twoUsersOneItem.users.nodes = [5, 3] := Indexing.nodes_ofList _
  have hitems : twoUsersOneItem.items.nodes = [0x1000000000001] := Indexing.nodes_ofList _
  have hown : ∀ group, ∀ node ∈ (twoUsersOneItem.indexing group).nodes,
      node.tag = twoUsersOneItem.tags.tagOf group := by
    intro group
    cases group with
    | user =>
      rw [indexing, husers, List.forall_mem_cons, List.forall_mem_singleton]
      decide
    | item =>
      rw [indexing, hitems, List.forall_mem_singleton]
      decide
  have hsize : twoUsersOneItem.size = 3 := by rw [← length_nodes, nodes, husers, hitems]; rfl
  obtain ⟨-, -, -, -, -, -, honto⟩ := index_bijective twoUsersOneItem
  exact ⟨hne, hown, hsize, honto hne hown 2 (by rw [hsize]; decide)⟩

end FlatIndex

end BipartiteBatch
