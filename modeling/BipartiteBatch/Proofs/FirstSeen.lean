import BipartiteBatch.Negative.Sampler
import BipartiteBatch.Subgraph
import Mathlib.Data.FinEnum

/-!
# Distinct nodes in first-seen order

Three structures keep the distinct nodes of a sequence in the order in which they are first seen: an
indexing, a frontier and a tally. All three hold `List.eraseDups` of what they were fed.

* `Indexing.nodes_ofList`, `Frontier.nodes_seeAll`, `distinctCounts_nodes` : the nodes that each holds;
* `Indexing.get?_eq_some_iff` : an index is the position of a node in that list;
* `distinctCounts_eq` : a tally counts how often each of them occurs;
* `length_le_of_nodup` : there are no more distinct nodes than words, so that no index overflows.
-/

namespace BipartiteBatch

/-! ## Lists -/

section Lists
variable {α : Type} [BEq α] [LawfulBEq α]

theorem eraseDups_concat (xs : List α) (y : α) :
    (xs ++ [y]).eraseDups = if y ∈ xs then xs.eraseDups else xs.eraseDups ++ [y] := by
  rw [List.eraseDups_append]
  by_cases hy : y ∈ xs
  · have hremove : [y].removeAll xs = [] := by simpa [List.removeAll] using hy
    rw [hremove, if_pos hy, List.eraseDups_nil, List.append_nil]
  · have hremove : [y].removeAll xs = [y] := by simpa [List.removeAll] using hy
    rw [hremove, if_neg hy]
    rfl

theorem nodup_eraseDups (xs : List α) : xs.eraseDups.Nodup := by
  induction xs using List.reverseRecOn with
  | nil => exact List.nodup_nil
  | append_singleton xs y ih =>
    rw [eraseDups_concat]
    by_cases hy : y ∈ xs
    · rwa [if_pos hy]
    · rw [if_neg hy, List.nodup_append]
      refine ⟨ih, List.nodup_singleton y, fun a ha b hb hab => hy ?_⟩
      rw [List.mem_singleton] at hb
      subst hab hb
      exact List.mem_eraseDups.1 ha

theorem eraseDups_of_nodup {xs : List α} (h : xs.Nodup) : xs.eraseDups = xs := by
  induction xs using List.reverseRecOn with
  | nil => rfl
  | append_singleton xs y ih =>
    obtain ⟨hxs, -, hne⟩ := List.nodup_append.1 h
    have hy : y ∉ xs := fun hy => hne y hy y (List.mem_singleton_self y) rfl
    rw [eraseDups_concat, if_neg hy, ih hxs]

theorem eraseDups_eq_nil_iff {xs : List α} : xs.eraseDups = [] ↔ xs = [] := by
  simp only [List.eq_nil_iff_forall_not_mem, List.mem_eraseDups]

omit [BEq α] [LawfulBEq α] in
theorem getElem?_of_isPrefix {xs ys : List α} (h : xs <+: ys) {i : Nat} {x : α}
    (hi : xs[i]? = some x) : ys[i]? = some x := by
  obtain ⟨hlt, rfl⟩ := List.getElem?_eq_some_iff.1 hi
  exact List.prefix_iff_getElem?.1 h i hlt

end Lists

/-! ## Indices of distinct nodes -/

theorem length_le_of_nodup {nodes : List NodeId} (h : nodes.Nodup) : nodes.length ≤ 2 ^ 64 := by
  have hcard := h.length_le_card
  rwa [← FinEnum.card_eq_fintypeCard, FinEnum.card_UInt64] at hcard

theorem toNat_ofNat_of_nodup {nodes : List NodeId} (h : nodes.Nodup) {i : Nat}
    (hi : i < nodes.length) : (UInt64.ofNat i).toNat = i := by
  exact UInt64.toNat_ofNat_of_lt' (Nat.lt_of_lt_of_le hi (length_le_of_nodup h))

namespace Indexing

theorem get?_eq_some_iff {ix : Indexing} {node : NodeId} {i : Nat} :
    ix.get? node = some i ↔ ix.nodes[i]? = some node := by
  rw [nodes, Array.getElem?_toList]
  exact ix.position_eq_some_iff node i

theorem get?_eq_none_iff {ix : Indexing} {node : NodeId} : ix.get? node = none ↔ node ∉ ix.nodes := by
  constructor
  · intro h hmem
    obtain ⟨i, hi⟩ := List.mem_iff_getElem?.1 hmem
    rw [get?_eq_some_iff.2 hi] at h
    exact Option.some_ne_none i h
  · intro h
    cases hget : ix.get? node with
    | none => rfl
    | some i => exact absurd (List.mem_iff_getElem?.2 ⟨i, get?_eq_some_iff.1 hget⟩) h

theorem exists_get?_of_mem {ix : Indexing} {node : NodeId} (h : node ∈ ix.nodes) :
    ∃ i, ix.get? node = some i := by
  obtain ⟨i, hi⟩ := List.mem_iff_getElem?.1 h
  exact ⟨i, get?_eq_some_iff.2 hi⟩

@[simp] theorem length_nodes (ix : Indexing) : ix.nodes.length = ix.size := by
  simp [nodes, size]

@[simp] theorem nodes_push (ix : Indexing) (node : NodeId) (h : ix.get? node = none) :
    (ix.push node h).nodes = ix.nodes ++ [node] := by
  simp [nodes, push]

theorem nodes_insert (ix : Indexing) (node : NodeId) :
    (ix.insert node).1.nodes
      = if node ∈ ix.nodes then ix.nodes else ix.nodes ++ [node] := by
  cases hget : ix.get? node with
  | some i =>
    rw [insert_of_get?_eq_some hget, if_pos (List.mem_iff_getElem?.2 ⟨i, get?_eq_some_iff.1 hget⟩)]
  | none => rw [insert_of_get?_eq_none hget, if_neg (get?_eq_none_iff.1 hget), nodes_push]

/-- The indexing of a sequence holds its distinct nodes in first-seen order. -/
theorem nodes_ofList (xs : List NodeId) : (ofList xs).nodes = xs.eraseDups := by
  induction xs using List.reverseRecOn with
  | nil => rfl
  | append_singleton xs y ih =>
    have hstep : ofList (xs ++ [y]) = ((ofList xs).insert y).1 := by
      simp only [ofList, List.foldl_append, List.foldl_cons, List.foldl_nil]
    rw [hstep, nodes_insert, ih, eraseDups_concat]
    simp

theorem nodes_ofList_of_nodup {xs : List NodeId} (h : xs.Nodup) : (ofList xs).nodes = xs := by
  rw [nodes_ofList, eraseDups_of_nodup h]

/-- In the indexing of distinct nodes an index is a position. -/
theorem get?_ofList_of_nodup {xs : List NodeId} (h : xs.Nodup) {node : NodeId} {i : Nat} :
    (ofList xs).get? node = some i ↔ xs[i]? = some node := by
  rw [get?_eq_some_iff, nodes_ofList_of_nodup h]

end Indexing

/-! ## Frontiers -/

namespace Frontier

theorem nodup_nodes (f : Frontier) : f.nodes.Nodup := f.nodup

theorem nodes_see (f : Frontier) (node : NodeId) :
    (f.see node).nodes = if node ∈ f.nodes then f.nodes else f.nodes ++ [node] := by
  have hseen : node ∈ f.seen ↔ node ∈ f.nodes := f.mem_seen_iff node
  unfold see
  split
  · next h => rw [if_pos (hseen.1 h)]
  · next h =>
    rw [if_neg fun hmem => h (hseen.2 hmem)]
    simp [nodes, push]

/-- A frontier that sees more nodes holds the distinct ones of all. -/
theorem nodes_seeAll (f : Frontier) (xs : List NodeId) :
    (f.seeAll xs).nodes = (f.nodes ++ xs).eraseDups := by
  induction xs using List.reverseRecOn with
  | nil => rw [List.append_nil, eraseDups_of_nodup f.nodup_nodes]; rfl
  | append_singleton xs y ih =>
    have hstep : f.seeAll (xs ++ [y]) = (f.seeAll xs).see y := by
      simp only [seeAll, List.foldl_append, List.foldl_cons, List.foldl_nil]
    rw [hstep, nodes_see, ih, ← List.append_assoc, eraseDups_concat]
    simp

theorem nodes_ofSeeds (seeds : List NodeId) : (ofSeeds seeds).nodes = seeds.eraseDups :=
  nodes_seeAll {} seeds

end Frontier

/-! ## Tallies -/

theorem count_concat (xs : List NodeId) (y node : NodeId) :
    (xs ++ [y]).count node = if node = y then xs.count node + 1 else xs.count node := by
  rw [List.count_append]
  by_cases h : node = y
  · rw [if_pos h, h, List.count_singleton_self]
  · have hnone : [y].count node = 0 := List.count_eq_zero_of_not_mem (by simpa using h)
    rw [if_neg h, hnone, Nat.add_zero]

/-- One more occurrence of a node counts at its place among distinct nodes. -/
theorem modify_map_count {nodes : List NodeId} (hnodup : nodes.Nodup) {i : Nat} {y : NodeId}
    (hi : nodes[i]? = some y) (xs : List NodeId) :
    (nodes.map fun node => (node, xs.count node)).modify i (fun e => (e.1, e.2 + 1))
      = nodes.map fun node => (node, (xs ++ [y]).count node) := by
  refine List.ext_getElem? fun j => ?_
  rw [List.getElem?_modify, List.getElem?_map, List.getElem?_map]
  cases hj : nodes[j]? with
  | none => rfl
  | some node =>
    have hplace : i = j ↔ node = y := by
      constructor
      · rintro rfl
        exact Option.some.inj (hj.symm.trans hi)
      · rintro rfl
        exact (List.getElem?_inj (List.getElem?_eq_some_iff.1 hi).1 hnodup).1 (hi.trans hj.symm)
    simp only [Option.map_some, Option.map_eq_map, count_concat, hplace]
    split <;> rfl

namespace Tally

variable {t : Tally} {xs : List NodeId}

theorem getElem?_place (h : t.counts.toList = xs.eraseDups.map fun node => (node, xs.count node))
    (node : NodeId) (i : Nat) : t.place[node]? = some i ↔ xs.eraseDups[i]? = some node := by
  rw [t.place_eq_some_iff, ← Array.getElem?_toList, Array.toList_map, h, List.map_map]
  exact iff_of_eq (congrArg (·[i]? = some node) (List.map_id _))

theorem counts_add (h : t.counts.toList = xs.eraseDups.map fun node => (node, xs.count node)) (y : NodeId) :
    (t.add y).counts.toList = (xs ++ [y]).eraseDups.map fun node => (node, (xs ++ [y]).count node) := by
  rw [eraseDups_concat]
  unfold add
  split
  · next i hplace =>
    -- a node that has a place was seen before
    have hi := (getElem?_place h y i).1 hplace
    have hmem : y ∈ xs := List.mem_eraseDups.1 (List.mem_iff_getElem?.2 ⟨i, hi⟩)
    rw [if_pos hmem, raise, Array.toList_modify, h, modify_map_count (nodup_eraseDups xs) hi]
  · next hplace =>
    have hnot : y ∉ xs := fun hy => by
      obtain ⟨i, hi⟩ := List.mem_iff_getElem?.1 (List.mem_eraseDups.2 hy)
      rw [(getElem?_place h y i).2 hi] at hplace
      cases hplace
    -- the first occurrence changes no other count
    rw [if_neg hnot, push, Array.toList_push, h, List.map_append, List.map_singleton, count_concat, if_pos rfl,
      List.count_eq_zero_of_not_mem hnot]
    congr 1
    refine List.map_congr_left fun node hnode => ?_
    have hne : node ≠ y := by
      rintro rfl
      exact hnot (List.mem_eraseDups.1 hnode)
    rw [count_concat, if_neg hne]

end Tally

/-- The candidates of a population are its distinct nodes in first-seen order, each with how often it
occurs. -/
theorem distinctCounts_eq (population : List NodeId) :
    distinctCounts population = population.eraseDups.map fun node => (node, population.count node) := by
  unfold distinctCounts
  induction population using List.reverseRecOn with
  | nil => rfl
  | append_singleton xs y ih =>
    rw [List.foldl_append, List.foldl_cons, List.foldl_nil]
    exact Tally.counts_add ih y

theorem distinctCounts_nodes (population : List NodeId) :
    (distinctCounts population).map (·.1) = population.eraseDups := by
  rw [distinctCounts_eq, List.map_map]
  exact List.map_id _

end BipartiteBatch
