import BipartiteBatch.Partition
import BipartiteBatch.Proofs.FlatIndices

/-!
# Fields of nodes, and sorting by tag

A node is its tag times `2 ^ 48` plus its value. So fields that fit make one node, which gives them back, and each
node is made of its own fields. The nodes of a tag are `2 ^ 48` words in a row, and nodes are sorted into groups by
the row in which they lie.

* `NodeId.toNat_tag`, `NodeId.toNat_value`, `NodeId.toNat_join` : the fields of a word and the word of two fields;
* `NodeId.make_eq`, `NodeId.make_eq_ok` : which fields fit, and the node that they make;
* `NodeId.InSpan`, `NodeId.inSpan_iff` : the words of a tag;
* `Sorting.Extends`, `Sorting.extends_extend` : the lists after more nodes, `Sorting.extend_append` : after the nodes
  of one list and then of another;
* `nodes_sorted_by_fields` : all of this for any fields, tags and lists.
-/

namespace BipartiteBatch

/-! ## Fields -/

namespace NodeId

variable {tag value : UInt64} {node : NodeId}

theorem toNat_tag (node : NodeId) : node.tag.toNat = node.toNat / 2 ^ 48 := by
  have hlt : node.toNat < 2 ^ 64 := node.toNat_lt
  rw [NodeId.tag, UInt64.toNat_toUInt16, UInt64.toNat_shiftRight, show (48 : UInt64).toNat % 64 = 48 from rfl,
    Nat.shiftRight_eq_div_pow]
  omega

theorem toNat_value (node : NodeId) : node.value.toNat = node.toNat % 2 ^ 48 := by
  rw [NodeId.value, UInt64.toNat_and, show maxValue.toNat = 2 ^ 48 - 1 from rfl, Nat.and_two_pow_sub_one_eq_mod]

theorem toNat_join (htag : tag.toNat < 2 ^ 16) (hvalue : value.toNat < 2 ^ 48) :
    (tag <<< 48 ||| value).toNat = tag.toNat * 2 ^ 48 + value.toNat := by
  have hshift : (tag <<< 48).toNat = tag.toNat <<< 48 := by
    rw [UInt64.toNat_shiftLeft, show (48 : UInt64).toNat % 64 = 48 from rfl, Nat.mod_eq_of_lt]
    rw [Nat.shiftLeft_eq]
    omega
  rw [UInt64.toNat_or, hshift, ← Nat.shiftLeft_add_eq_or_of_lt hvalue, Nat.shiftLeft_eq]

theorem make_eq (tag value : UInt64) : make tag value =
    if 2 ^ 16 ≤ tag.toNat then .error (.tagTooLarge tag)
    else if 2 ^ 48 ≤ value.toNat then .error (.valueTooLarge value)
    else .ok (tag <<< 48 ||| value) := by
  have htag : 0xFFFF < tag ↔ 2 ^ 16 ≤ tag.toNat := UInt64.lt_iff_toNat_lt
  have hvalue : maxValue < value ↔ 2 ^ 48 ≤ value.toNat := UInt64.lt_iff_toNat_lt
  simp only [make, htag, hvalue]

theorem make_eq_tagTooLarge : make tag value = .error (.tagTooLarge tag) ↔ 2 ^ 16 ≤ tag.toNat := by
  rw [make_eq]
  split_ifs <;> simp_all

theorem make_eq_valueTooLarge : make tag value = .error (.valueTooLarge value)
    ↔ tag.toNat < 2 ^ 16 ∧ 2 ^ 48 ≤ value.toNat := by
  rw [make_eq]
  split_ifs <;> simp_all

theorem exists_make_iff : (∃ node, make tag value = .ok node) ↔ tag.toNat < 2 ^ 16 ∧ value.toNat < 2 ^ 48 := by
  rw [make_eq]
  split_ifs <;> simp_all

/-- The fields of a node make that node and no other. -/
theorem make_eq_ok : make tag value = .ok node ↔ node.tag.toUInt64 = tag ∧ node.value = value := by
  have htagOf := toNat_tag node
  have hvalueOf := toNat_value node
  constructor
  · intro h
    obtain ⟨htag, hvalue⟩ := exists_make_iff.1 ⟨node, h⟩
    rw [make_eq, if_neg (Nat.not_le.2 htag), if_neg (Nat.not_le.2 hvalue)] at h
    obtain rfl := Except.ok.inj h
    -- division by `2 ^ 48` takes the word of two fields apart again
    rw [toNat_join htag hvalue] at htagOf hvalueOf
    constructor
    · apply UInt64.toNat_inj.1
      rw [UInt16.toNat_toUInt64]
      omega
    · apply UInt64.toNat_inj.1
      omega
  · rintro ⟨rfl, rfl⟩
    have hlt : node.toNat < 2 ^ 64 := node.toNat_lt
    have htag : node.tag.toUInt64.toNat < 2 ^ 16 := by
      rw [UInt16.toNat_toUInt64]
      omega
    have hvalue : node.value.toNat < 2 ^ 48 := by omega
    rw [make_eq, if_neg (Nat.not_le.2 htag), if_neg (Nat.not_le.2 hvalue)]
    apply congrArg
    apply UInt64.toNat_inj.1
    rw [toNat_join htag hvalue, UInt16.toNat_toUInt64]
    omega

/-! ## Spans -/

/-- The node is one of the `2 ^ 48` words that have a tag. -/
def InSpan (tag : Tag) (node : NodeId) : Prop :=
  tag.toNat * 2 ^ 48 ≤ node.toNat ∧ node.toNat < (tag.toNat + 1) * 2 ^ 48

instance (tag : Tag) (node : NodeId) : Decidable (InSpan tag node) :=
  inferInstanceAs (Decidable (_ ∧ _))

theorem inSpan_iff {tag : Tag} : InSpan tag node ↔ node.tag = tag := by
  rw [← UInt16.toNat_inj, toNat_tag, InSpan]
  omega

end NodeId

theorem GroupTags.groupOf?_eq_some_iff_inSpan {tags : GroupTags} (hne : tags.user ≠ tags.item) {node : NodeId}
    {group : Group} : tags.groupOf? node = some group ↔ NodeId.InSpan (tags.tagOf group) node := by
  rw [groupOf?_eq_some hne, NodeId.inSpan_iff]

/-! ## Sorting -/

namespace Sorting

variable {tags : GroupTags}

def size (s : Sorting) : Nat := s.users.size + s.items.size + s.unknown.size

/-- A node goes to one list. -/
theorem size_add (tags : GroupTags) (s : Sorting) (node : NodeId) : (s.add tags node).size = s.size + 1 := by
  unfold add
  split <;> simp only [size, Array.size_push] <;> omega

theorem size_foldl_add (tags : GroupTags) (s : Sorting) (nodes : List NodeId) :
    (nodes.foldl (add tags) s).size = s.size + nodes.length := by
  induction nodes generalizing s with
  | nil => rfl
  | cons node nodes ih =>
    rw [List.foldl_cons, ih, size_add, List.length_cons]
    omega

/-- Sorting more nodes: the users and the items among them come after those so far, each in their order, the
others are the unknown ones, and there are no more and no less. -/
structure Extends (tags : GroupTags) (s : Sorting) (nodes : List NodeId) (s' : Sorting) : Prop where
  users : s'.users.toList = s.users.toList ++ nodes.filter fun node => NodeId.InSpan tags.user node
  items : s'.items.toList = s.items.toList ++ nodes.filter fun node => NodeId.InSpan tags.item node
  unknown : s'.unknown.toList
    = nodes.filter fun node => ¬ NodeId.InSpan tags.user node ∧ ¬ NodeId.InSpan tags.item node
  size : s'.size = s.users.size + s.items.size + nodes.length

theorem extends_extend (hne : tags.user ≠ tags.item) (s : Sorting) (nodes : List NodeId) :
    s.Extends tags nodes (s.extend tags nodes) := by
  have hparts := partition_extend tags s nodes
  rw [Partition.ofList_eq] at hparts
  have huser : ∀ node, tags.groupOf? node = some .user ↔ NodeId.InSpan tags.user node :=
    fun _ => GroupTags.groupOf?_eq_some_iff_inSpan hne
  have hitem : ∀ node, tags.groupOf? node = some .item ↔ NodeId.InSpan tags.item node :=
    fun _ => GroupTags.groupOf?_eq_some_iff_inSpan hne
  have hnone : ∀ node, tags.groupOf? node = none
      ↔ ¬ NodeId.InSpan tags.user node ∧ ¬ NodeId.InSpan tags.item node := fun node => by
    rw [GroupTags.groupOf?_eq_none, GroupTags.Known, not_or, NodeId.inSpan_iff, NodeId.inSpan_iff]
  simp only [huser, hitem, hnone] at hparts
  refine ⟨congrArg Partition.users hparts, congrArg Partition.items hparts,
    congrArg Partition.unknown hparts, ?_⟩
  rw [extend, size_foldl_add]
  rfl

/-- Sorting one list and then another gives the users and the items of both at once, and the unknown nodes of
both are those of the one and of the other. -/
theorem extend_append (tags : GroupTags) (s : Sorting) (xs ys : List NodeId) :
    ((s.extend tags xs).extend tags ys).users = (s.extend tags (xs ++ ys)).users
    ∧ ((s.extend tags xs).extend tags ys).items = (s.extend tags (xs ++ ys)).items
    ∧ (s.extend tags xs).unknown ++ ((s.extend tags xs).extend tags ys).unknown
      = (s.extend tags (xs ++ ys)).unknown := by
  -- all three runs are read as what they add to the lists before them
  have hfirst := partition_extend tags s xs
  have hsecond := partition_extend tags (s.extend tags xs) ys
  have hboth := partition_extend tags s (xs ++ ys)
  rw [hfirst] at hsecond
  rw [Partition.ofList_append] at hboth
  simp only [← Array.toList_inj, Array.toList_append]
  simp only [partition, Partition.append, Partition.mk.injEq] at hfirst hsecond hboth
  simp [hfirst, hsecond, hboth]

end Sorting

/-! ## Sorting by fields -/

/-- A tag of more than 16 bits is refused, then a value of more than 48, and all other fields make a node, the
one with these fields; so each node is made of its own fields. With two different tags the group of a node is the
one in whose span of `2 ^ 48` words it lies. Sorting nodes onto lists adds to each group's list the nodes in the
group's span in their order, gives the nodes of neither, and loses none. Sorting in two parts gives the lists of
sorting at once, and the numbers of the nodes of neither group add up. -/
theorem nodes_sorted_by_fields :
    (∀ tag value : UInt64,
      (NodeId.make tag value = .error (.tagTooLarge tag) ↔ 2 ^ 16 ≤ tag.toNat)
      ∧ (NodeId.make tag value = .error (.valueTooLarge value) ↔ tag.toNat < 2 ^ 16 ∧ 2 ^ 48 ≤ value.toNat)
      ∧ ((∃ node, NodeId.make tag value = .ok node) ↔ tag.toNat < 2 ^ 16 ∧ value.toNat < 2 ^ 48)
      ∧ ∀ node, NodeId.make tag value = .ok node ↔ node.tag.toUInt64 = tag ∧ node.value = value)
    ∧ (∀ node : NodeId, NodeId.make node.tag.toUInt64 node.value = .ok node)
    ∧ (∀ tags : GroupTags, tags.user ≠ tags.item →
      (∀ node group, tags.groupOf? node = some group ↔ NodeId.InSpan (tags.tagOf group) node)
      ∧ ∀ (s : Sorting) (nodes : List NodeId), s.Extends tags nodes (s.extend tags nodes))
    ∧ ∀ (tags : GroupTags) (s : Sorting) (xs ys : List NodeId),
      ((s.extend tags xs).extend tags ys).users = (s.extend tags (xs ++ ys)).users
      ∧ ((s.extend tags xs).extend tags ys).items = (s.extend tags (xs ++ ys)).items
      ∧ (s.extend tags xs).unknown.size + ((s.extend tags xs).extend tags ys).unknown.size
        = (s.extend tags (xs ++ ys)).unknown.size := by
  refine ⟨fun tag value => ⟨NodeId.make_eq_tagTooLarge, NodeId.make_eq_valueTooLarge, NodeId.exists_make_iff,
    fun node => NodeId.make_eq_ok⟩, fun node => NodeId.make_eq_ok.2 ⟨rfl, rfl⟩, ?_, ?_⟩
  · intro tags hne
    exact ⟨fun node group => GroupTags.groupOf?_eq_some_iff_inSpan hne, Sorting.extends_extend hne⟩
  · intro tags s xs ys
    obtain ⟨husers, hitems, hunknown⟩ := Sorting.extend_append tags s xs ys
    refine ⟨husers, hitems, ?_⟩
    rw [← hunknown, Array.size_append]

/-- The last word is a user, the last word below the next tag an item, and the word after it neither. -/
theorem nodes_sorted_by_fields_limits :
    let tags : GroupTags := { user := 0xFFFF, item := 0 }
    let s : Sorting := { users := #[0xFFFF000000000000], unknown := #[0x2000000000000] }
    let nodes : List NodeId := [0xFFFFFFFFFFFFFFFF, 0x1000000000000, 0xFFFFFFFFFFFF]
    NodeId.make 0xFFFF 0xFFFFFFFFFFFF = .ok 0xFFFFFFFFFFFFFFFF ∧ tags.user ≠ tags.item
      ∧ (s.extend tags nodes).users.toList = [0xFFFF000000000000, 0xFFFFFFFFFFFFFFFF]
      ∧ (s.extend tags nodes).items.toList = [0xFFFFFFFFFFFF]
      ∧ (s.extend tags nodes).unknown.toList = [0x1000000000000] := by
  intro tags s nodes
  obtain ⟨hmake, -, hsorted, -⟩ := nodes_sorted_by_fields
  have hne : tags.user ≠ tags.item := by decide
  have hextends := (hsorted tags hne).2 s nodes
  refine ⟨((hmake _ _).2.2.2 _).2 ⟨by decide, by decide⟩, hne, ?_, ?_, ?_⟩
  · exact hextends.users.trans (by decide)
  · exact hextends.items.trans (by decide)
  · exact hextends.unknown.trans (by decide)

end BipartiteBatch
