import BipartiteBatch.Graph.Stored
import BipartiteBatch.Proofs.Draws
import BipartiteBatch.Proofs.Positions
import Mathlib.Data.List.Induction

/-!
# Samples of stored neighbors

A graph that edges were added to keeps for each node the far ends of its edges in the order of their
addition. A sample of a node is all of them or, if there are more than were asked for, those at distinct
positions. Only the latter takes draws, so the nodes that give all their neighbors can be put into a
question or left out of it without a change for the others.

* `EdgeAddition`, `Graph.ofAdditions`, `Graph.storedBy` : graphs by what was added to them;
* `Graph.neighbors_ofAdditions` : the stored neighbors of such a graph;
* `SampledFrom` : a sample without replacement, `Graph.sampledFrom_sample` : a graph gives such samples;
* `Graph.sampleNeighbors_sampled` : the answer to a question.
-/

namespace BipartiteBatch

/-! ## Graphs by what was added -/

inductive EdgeAddition where
  | oneWay (src dst : NodeId) (weight : Float32)
  | bothWays (a b : NodeId) (weight : Float32)

/-- The edges that are stored, each as its near end and its far end. -/
def EdgeAddition.edges : EdgeAddition → List (NodeId × Neighbor)
  | oneWay src dst weight => [(src, ⟨dst, weight⟩)]
  | bothWays a b weight => [(a, ⟨b, weight⟩), (b, ⟨a, weight⟩)]

namespace Graph

def add (g : Graph) : EdgeAddition → Graph
  | .oneWay src dst weight => g.addEdge src dst weight
  | .bothWays a b weight => g.addUndirectedEdge a b weight

def ofAdditions (additions : List EdgeAddition) : Graph := additions.foldl add empty

/-- The far ends of the edges of a node, in the order of their addition. -/
def storedBy (additions : List EdgeAddition) (node : NodeId) : List Neighbor :=
  ((additions.flatMap EdgeAddition.edges).filter fun e => e.1 == node).map Prod.snd

theorem neighbors_addEdge (g : Graph) (src dst : NodeId) (weight : Float32) (node : NodeId) :
    (g.addEdge src dst weight).neighbors node
      = g.neighbors node ++ if src = node then [⟨dst, weight⟩] else [] := by
  unfold neighbors adjacent addEdge
  rw [Std.HashMap.getElem?_alter]
  by_cases h : src = node
  · subst h
    simp
  · simp [h]

theorem neighbors_add (g : Graph) (addition : EdgeAddition) (node : NodeId) :
    (g.add addition).neighbors node = g.neighbors node ++ storedBy [addition] node := by
  cases addition with
  | oneWay src dst weight =>
    rw [add, neighbors_addEdge]
    by_cases h : src = node <;> simp [storedBy, EdgeAddition.edges, h]
  | bothWays a b weight =>
    rw [add, addUndirectedEdge, neighbors_addEdge, neighbors_addEdge, List.append_assoc]
    by_cases ha : a = node <;> by_cases hb : b = node <;> simp [storedBy, EdgeAddition.edges, ha, hb]

theorem ofAdditions_concat (additions : List EdgeAddition) (addition : EdgeAddition) :
    ofAdditions (additions ++ [addition]) = (ofAdditions additions).add addition := by
  simp only [ofAdditions, List.foldl_append, List.foldl_cons, List.foldl_nil]

theorem neighbors_ofAdditions (additions : List EdgeAddition) (node : NodeId) :
    (ofAdditions additions).neighbors node = storedBy additions node := by
  induction additions using List.reverseRecOn with
  | nil => simp [ofAdditions, storedBy, neighbors, adjacent, empty]
  | append_singleton additions addition ih =>
    rw [ofAdditions_concat, neighbors_add, ih]
    simp only [storedBy, List.flatMap_append, List.filter_append, List.map_append]

end Graph

/-! ## Samples -/

/-- A list holds all of the stored neighbors, if there are at most `count`, and otherwise those at `count`
distinct positions. -/
structure SampledFrom (stored : List Neighbor) (count : Nat) (list : List Neighbor) : Prop where
  all : stored.length ≤ count → list = stored
  drawn : count < stored.length → ∃ positions, Draw.Chosen stored.length count positions
    ∧ list.map some = positions.map fun p => stored[p]?

theorem SampledFrom.nil {count : Nat} {list : List Neighbor} (h : SampledFrom [] count list) :
    list = [] := h.all (Nat.zero_le count)

namespace Graph

open Draw

variable {g : Graph} {count : Nat} {node : NodeId}

theorem length_neighbors : (g.neighbors node).length = (g.adjacent node).size := Array.length_toList

theorem sample_of_le (h : (g.neighbors node).length ≤ count) (s : Keystream) :
    g.sample count node s = (g.neighbors node, s) := by
  rw [length_neighbors] at h
  unfold sample
  rw [if_pos h]
  rfl

theorem filterMap_eq_map_some {α β : Type} {f : α → Option β} {xs : List α}
    (h : ∀ x ∈ xs, (f x).isSome) : (xs.filterMap f).map some = xs.map f := by
  induction xs with
  | nil => rfl
  | cons x xs ih =>
    rw [List.forall_mem_cons] at h
    obtain ⟨y, hy⟩ := Option.isSome_iff_exists.1 h.1
    rw [List.filterMap_cons_some hy, List.map_cons, List.map_cons, ih h.2, hy]

/-- A sample of a node is one without replacement. -/
theorem sampledFrom_sample (s : Keystream) :
    SampledFrom (g.neighbors node) count (g.sample count node s).1 where
  all h := by rw [sample_of_le h]
  drawn h := by
    rw [length_neighbors] at h ⊢
    have hchosen := chosen_positions (Nat.le_of_lt h) s
    refine ⟨(positions (g.adjacent node).size count s).1, hchosen, ?_⟩
    simp only [sample, if_neg (Nat.not_le.2 h), neighbors, Array.getElem?_toList]
    refine filterMap_eq_map_some fun p hp => ?_
    rw [Array.getElem?_eq_getElem (hchosen.lt p hp), Option.isSome_some]

theorem sampleNeighbors_eq (g : Graph) (nodes : List NodeId) (count : Nat) :
    GraphClient.sampleNeighbors nodes count g
      = (.ok (mapDraws (g.sample count) nodes g.stream).1,
        { g with stream := (mapDraws (g.sample count) nodes g.stream).2 }) := rfl

/-- Nodes that give all of their neighbors can be left out of a question: the others have the same lists,
and the random stream moves on as far. -/
theorem sampleNeighbors_append {before inserted after : List NodeId}
    (h : ∀ node ∈ inserted, (g.neighbors node).length ≤ count) :
    GraphClient.sampleNeighbors (before ++ after) count g
      = (.ok ((mapDraws (g.sample count) (before ++ inserted ++ after) g.stream).1.take before.length
          ++ (mapDraws (g.sample count) (before ++ inserted ++ after) g.stream).1.drop
            (before ++ inserted).length),
        { g with
          stream := (mapDraws (g.sample count) (before ++ inserted ++ after) g.stream).2 }) := by
  have hstill : mapDraws (g.sample count) inserted (mapDraws (g.sample count) before g.stream).2
      = (inserted.map g.neighbors, (mapDraws (g.sample count) before g.stream).2) :=
    mapDraws_of_still fun node hnode => sample_of_le (h node hnode) _
  have htake : (mapDraws (g.sample count) before g.stream).1.length = before.length :=
    length_mapDraws before g.stream
  rw [sampleNeighbors_eq, mapDraws_append, mapDraws_append, mapDraws_append, hstill]
  simp only [List.append_assoc]
  rw [List.take_left' htake, List.length_append, ← htake, ← List.drop_drop, List.drop_left,
    List.drop_left' (List.length_map _)]

/-- Whatever edges were added to a graph, a question for `count` neighbors of nodes is answered with one
list per node. A node with at most `count` stored neighbors gives all of them in their order, any other
node `count` of them from distinct positions; a node without edges gives none. Nodes of the first kind
take no draw: without some of them the other lists and the random stream afterwards are the same. -/
theorem sampleNeighbors_sampled (additions : List EdgeAddition) (s : Keystream) (nodes : List NodeId)
    (count : Nat) :
    let g : Graph := { ofAdditions additions with stream := s }
    ∃ lists s', GraphClient.sampleNeighbors nodes count g = (.ok lists, { g with stream := s' })
      ∧ List.Forall₂ (fun node list => SampledFrom (storedBy additions node) count list
          ∧ ((∀ e ∈ additions.flatMap EdgeAddition.edges, e.1 ≠ node) → list = [])) nodes lists
      ∧ ∀ before inserted after, nodes = before ++ inserted ++ after →
        (∀ node ∈ inserted, (storedBy additions node).length ≤ count) →
          GraphClient.sampleNeighbors (before ++ after) count g
            = (.ok (lists.take before.length ++ lists.drop (before ++ inserted).length),
              { g with stream := s' }) := by
  intro g
  have hstored : ∀ node, g.neighbors node = storedBy additions node := neighbors_ofAdditions additions
  refine ⟨_, _, sampleNeighbors_eq g nodes count, ?_, ?_⟩
  · refine forall₂_mapDraws (fun node _ s => ?_) s
    have hsampled : SampledFrom (g.neighbors node) count (g.sample count node s).1 :=
      sampledFrom_sample s
    rw [hstored] at hsampled
    refine ⟨hsampled, fun hnone => ?_⟩
    have hempty : storedBy additions node = [] := by
      rw [storedBy, List.map_eq_nil_iff, List.filter_eq_nil_iff]
      exact fun e he heq => hnone e he (beq_iff_eq.1 heq)
    rw [hempty] at hsampled
    exact hsampled.nil
  · rintro before inserted after rfl hinserted
    exact sampleNeighbors_append fun node hnode => (hstored node).symm ▸ hinserted node hnode

end Graph

end BipartiteBatch
