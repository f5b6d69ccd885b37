import BipartiteBatch.Graph.Replay
import BipartiteBatch.Proofs.Levels
import Mathlib.Algebra.BigOperators.Group.List.Lemmas
import Mathlib.Algebra.GroupWithZero.Nat

/-!
# Occurrences of distinct nodes

The candidates of a population, the indexing of a sequence and the first level around seeds are three passes over
nodes with repetitions, each with its own record of what was seen. They give the same nodes in the same order, so
the place of a candidate is also its index and its row in the first level. The counts of the candidates add up to
the length of the population.

* `sum_count_eraseDups` : how often the distinct items of a list occur in all;
* `getElem?_distinctCounts` : what stands at a place among the candidates;
* `Subgraph.sample_nil` : a subgraph without hops;
* `distinctCounts_agrees` : the three passes side by side.
-/

namespace BipartiteBatch

/-! ## Counts -/

/-- Each item of a list is an occurrence of one of its distinct items. -/
theorem sum_count_eraseDups (xs : List NodeId) : (xs.eraseDups.map fun node => xs.count node).sum = xs.length := by
  have hperm : xs.eraseDups.Perm xs.dedup := by
    rw [List.perm_ext_iff_of_nodup (nodup_eraseDups xs) xs.nodup_dedup]
    intro node
    rw [List.mem_eraseDups, List.mem_dedup]
  calc (xs.eraseDups.map fun node => xs.count node).sum
      = (xs.dedup.map fun node => xs.count node).sum := (hperm.map _).sum_eq
    _ = xs.length := List.sum_map_count_dedup_eq_length xs

/-- The places of the candidates are the indices of their nodes. -/
theorem getElem?_distinctCounts {xs : List NodeId} {i : Nat} {node : NodeId} {count : Nat} :
    (distinctCounts xs)[i]? = some (node, count)
      ↔ (Indexing.ofList xs).get? node = some i ∧ count = xs.count node := by
  rw [distinctCounts_eq, List.getElem?_map, Option.map_eq_some_iff, Indexing.get?_eq_some_iff,
    Indexing.nodes_ofList]
  constructor
  · rintro ⟨other, hi, he⟩
    obtain ⟨rfl, rfl⟩ := Prod.mk.inj he
    exact ⟨hi, rfl⟩
  · rintro ⟨hi, rfl⟩
    exact ⟨node, hi, rfl⟩

theorem count_pos_of_mem_distinctCounts {xs : List NodeId} {e : NodeId × Nat} (h : e ∈ distinctCounts xs) :
    1 ≤ e.2 := by
  rw [distinctCounts_eq, List.mem_map] at h
  obtain ⟨node, hnode, rfl⟩ := h
  exact List.count_pos_iff.2 (List.mem_eraseDups.1 hnode)

theorem sum_distinctCounts (xs : List NodeId) : ((distinctCounts xs).map Prod.snd).sum = xs.length := by
  rw [distinctCounts_eq, List.map_map]
  exact sum_count_eraseDups xs

theorem Subgraph.sample_nil {γ : Type} [GraphClient γ] (seeds : List NodeId) (g : γ) :
    sample seeds [] g = (.ok { levels := [seeds.eraseDups] }, g) :=
  sample_eq_ok.2 ⟨[], .done g _, rfl⟩

/-! ## The three passes -/

/-- The candidates of a population are its distinct nodes in first-seen order. The indexing of the same nodes has
them in this order, and so has the first level of every subgraph around them, whatever the client and the
numbers of neighbors, where the one without hops always exists. The place of a candidate is the index of its node,
and its count is how often the node occurs; so each count is positive, and they add up to the number of nodes. -/
theorem distinctCounts_agrees (xs : List NodeId) :
    (distinctCounts xs).map Prod.fst = xs.eraseDups
    ∧ (Indexing.ofList xs).nodes = (distinctCounts xs).map Prod.fst
    ∧ (∀ (γ : Type) [GraphClient γ] (fanout : List Nat) (g g' : γ) (sub : Subgraph),
      Subgraph.sample xs fanout g = (.ok sub, g') →
        sub.levels[0]? = some ((distinctCounts xs).map Prod.fst))
    ∧ (∀ (γ : Type) [GraphClient γ] (g : γ),
      Subgraph.sample xs [] g = (.ok { levels := [(distinctCounts xs).map Prod.fst] }, g))
    ∧ (∀ (i : Nat) (node : NodeId) (count : Nat), (distinctCounts xs)[i]? = some (node, count)
      ↔ (Indexing.ofList xs).get? node = some i ∧ count = xs.count node)
    ∧ (∀ e ∈ distinctCounts xs, 1 ≤ e.2)
    ∧ ((distinctCounts xs).map Prod.snd).sum = xs.length := by
  have hnodes := distinctCounts_nodes xs
  refine ⟨hnodes, ?_, ?_, ?_, fun i node count => getElem?_distinctCounts,
    fun e => count_pos_of_mem_distinctCounts, sum_distinctCounts xs⟩
  · rw [Indexing.nodes_ofList, hnodes]
  · intro γ _ fanout g g' sub h
    rw [hnodes]
    exact Subgraph.levels_zero_of_sample h
  · intro γ _ g
    rw [hnodes]
    exact Subgraph.sample_nil xs g

/-- A node that comes twice, and a hop that finds a seed and a new node. -/
theorem distinctCounts_agrees_repeatedNode :
    let g : ReplayedGraph := { neighbors := [.ok [[⟨10, 1.0⟩], [⟨40, 1.0⟩], []]] }
    ∃ sub g', Subgraph.sample [30, 10, 30, 20] [1] g = (.ok sub, g') ∧ sub.levels[0]? = some [30, 10, 20]
      ∧ (Indexing.ofList [30, 10, 30, 20]).get? 20 = some 2
      ∧ ((distinctCounts [30, 10, 30, 20]).map Prod.snd).sum = 4 := by
  intro g
  obtain ⟨hnodes, -, hlevels, -, hplaces, -, hsum⟩ := distinctCounts_agrees [30, 10, 30, 20]
  have hsample : Subgraph.sample [30, 10, 30, 20] [1] g = (.ok _, { g with neighbors := [] }) :=
    Subgraph.sample_eq_ok.2 ⟨[[[⟨10, 1.0⟩], [⟨40, 1.0⟩], []]], .hop rfl rfl (.done _ _), rfl⟩
  refine ⟨_, _, hsample, ?_, ((hplaces 2 20 1).1 ?_).1, hsum⟩
  · rw [hlevels _ _ _ _ _ hsample, hnodes]
    rfl
  · rw [distinctCounts_eq]
    rfl

end BipartiteBatch
