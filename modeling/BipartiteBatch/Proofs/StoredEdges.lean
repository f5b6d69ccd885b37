import BipartiteBatch.Proofs.NeighborSamples
import Mathlib.Algebra.BigOperators.Group.Finset.Basic

/-!
# The edges of a graph in number

A graph that edges were added to has a list of edges for exactly those nodes at which an added edge
begins, and counts the edges of all lists together.

* `Graph.Tallies` : a graph counts these edges, `Graph.tallies_ofAdditions` : those that were added;
* `Graph.exists_nodes` : the nodes of a graph, and its numbers by means of them.
-/

namespace BipartiteBatch

namespace Graph

variable {g : Graph} {edges : List (NodeId × Neighbor)}

/-- The graph has lists for the near ends of these edges, and counts the edges. -/
structure Tallies (g : Graph) (edges : List (NodeId × Neighbor)) : Prop where
  mem_adjacency : ∀ node, node ∈ g.adjacency ↔ node ∈ edges.map Prod.fst
  numEdges_eq : g.numEdges = edges.length

theorem tallies_empty : Tallies empty [] where
  mem_adjacency node := by simp [empty]
  numEdges_eq := rfl

theorem Tallies.addEdge (h : Tallies g edges) (src dst : NodeId) (weight : Float32) :
    Tallies (g.addEdge src dst weight) (edges ++ [(src, ⟨dst, weight⟩)]) where
  mem_adjacency node := by
    show node ∈ g.adjacency.alter src _ ↔ _
    rw [Std.HashMap.mem_alter, h.mem_adjacency, List.map_append, List.mem_append]
    by_cases hnode : src = node
    · simp [hnode]
    · simp [hnode, Ne.symm hnode]
  numEdges_eq := by
    rw [List.length_append, ← h.numEdges_eq]
    rfl

theorem Tallies.add (h : Tallies g edges) (addition : EdgeAddition) :
    Tallies (g.add addition) (edges ++ addition.edges) := by
  cases addition with
  | oneWay src dst weight => exact h.addEdge src dst weight
  | bothWays a b weight =>
    have hboth := (h.addEdge a b weight).addEdge b a weight
    rwa [List.append_assoc] at hboth

theorem tallies_ofAdditions (additions : List EdgeAddition) :
    Tallies (ofAdditions additions) (additions.flatMap EdgeAddition.edges) := by
  induction additions using List.reverseRecOn with
  | nil => exact tallies_empty
  | append_singleton additions addition ih =>
    rw [ofAdditions_concat, List.flatMap_append, List.flatMap_singleton]
    exact ih.add addition

theorem length_storedBy (additions : List EdgeAddition) (node : NodeId) :
    (storedBy additions node).length
      = ((additions.flatMap EdgeAddition.edges).map Prod.fst).count node := by
  rw [storedBy, List.length_map, ← List.countP_eq_length_filter, List.count, List.countP_map]
  rfl

/-- The nodes with stored neighbors are as many as the graph counts, and so are their neighbors in all. -/
theorem exists_nodes (additions : List EdgeAddition) : ∃ nodes : Finset NodeId,
    (∀ node, node ∈ nodes ↔ (ofAdditions additions).neighbors node ≠ [])
    ∧ (ofAdditions additions).numNodes = nodes.card
    ∧ (ofAdditions additions).numEdges
      = ∑ node ∈ nodes, ((ofAdditions additions).neighbors node).length := by
  have htallies := tallies_ofAdditions additions
  -- the near ends of the edges, each once
  let nodes := ((additions.flatMap EdgeAddition.edges).map Prod.fst).toFinset
  have hkeys : nodes = (ofAdditions additions).adjacency.keys.toFinset := by
    ext node
    rw [List.mem_toFinset, List.mem_toFinset, Std.HashMap.mem_keys, htallies.mem_adjacency]
  refine ⟨nodes, fun node => ?_, ?_, ?_⟩
  · rw [List.mem_toFinset, neighbors_ofAdditions, ← List.length_pos_iff, length_storedBy,
      List.count_pos_iff]
  · rw [hkeys, List.toFinset_card_of_nodup Std.HashMap.nodup_keys, Std.HashMap.length_keys]
    rfl
  · simp only [neighbors_ofAdditions, length_storedBy]
    rw [List.sum_toFinset_count_eq_length, List.length_map, htallies.numEdges_eq]

end Graph

end BipartiteBatch
