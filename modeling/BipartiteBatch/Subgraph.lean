import BipartiteBatch.Graph.Client
import Std.Data.HashMap
import Std.Data.HashSet

/-!
# Sampled subgraphs

From seed nodes a subgraph is sampled hop by hop. Its first level holds the distinct seeds in first-seen
order. Each hop asks for neighbors of all nodes of a level and gives the next level: the same nodes, and
after them the neighbors that were not seen before, in the order of the answer.

* `Frontier` : the nodes seen so far, each once, which are at the same time the level reached;
* `Subgraph` : the levels, and for each hop the sampled neighbors of each node;
* `Subgraph.sample` : sampling with a number of neighbors for each hop.
-/

namespace BipartiteBatch

/-- The distinct nodes seen so far, in first-seen order. -/
structure Frontier where
  seen : Std.HashSet NodeId := {}
  level : Array NodeId := #[]
  mem_seen_iff : ∀ node, node ∈ seen ↔ node ∈ level.toList := by simp
  nodup : level.toList.Nodup := by simp

namespace Frontier

def push (f : Frontier) (node : NodeId) (h : node ∉ f.seen) : Frontier where
  seen := f.seen.insert node
  level := f.level.push node
  mem_seen_iff other := by
    have old := f.mem_seen_iff other
    simp only [Std.HashSet.mem_insert, beq_iff_eq, Array.toList_push, List.mem_append,
      List.mem_singleton, old]
    exact ⟨fun h => h.symm.imp id Eq.symm, fun h => h.symm.imp Eq.symm id⟩
  nodup := by
    rw [Array.toList_push, List.nodup_append]
    refine ⟨f.nodup, List.pairwise_singleton _ _, fun a ha b hb hab => ?_⟩
    rw [List.mem_singleton] at hb
    exact h ((f.mem_seen_iff node).2 (hb ▸ hab ▸ ha))

def see (f : Frontier) (node : NodeId) : Frontier :=
  if h : node ∈ f.seen then f else f.push node h

def seeAll (f : Frontier) (nodes : List NodeId) : Frontier := nodes.foldl see f

def ofSeeds (seeds : List NodeId) : Frontier := ({} : Frontier).seeAll seeds

def nodes (f : Frontier) : List NodeId := f.level.toList

end Frontier

/-- The sampled neighbors of the nodes of a level. -/
abbrev NeighborMap := Std.HashMap NodeId (List Neighbor)

namespace NeighborMap

def ofLists (nodes : List NodeId) (lists : List (List Neighbor)) : NeighborMap :=
  (nodes.zip lists).foldl (fun map e => map.insert e.1 e.2) {}

/-- The neighbors of a node, none if it was not asked about. -/
def neighbors (map : NeighborMap) (node : NodeId) : List Neighbor := map[node]?.getD []

end NeighborMap

/-- Levels of nodes, and the neighbors sampled from each level to the next. -/
structure Subgraph where
  levels : List (List NodeId) := []
  maps : List NeighborMap := []

namespace Subgraph

def deepest (sub : Subgraph) : List NodeId := sub.levels.getLastD []

/-- A hop: the neighbors it found, and the level it led to. -/
structure Hop where
  map : NeighborMap
  level : List NodeId

variable {γ : Type} [GraphClient γ]

/-- One hop from a frontier, asking for `count` neighbors of each node. -/
def hop (f : Frontier) (count : Nat) : Query γ (NeighborMap × Frontier) := do
  let lists ← GraphClient.sampleNeighbors f.nodes count
  if lists.length = f.nodes.length then
    return (NeighborMap.ofLists f.nodes lists, f.seeAll (lists.flatten.map Neighbor.node))
  else Query.fail (.graph (.listCount lists.length f.nodes.length))

def hops (f : Frontier) : (fanout : List Nat) → Query γ (List Hop)
  | [] => return []
  | count :: fanout => do
    let (map, f) ← hop f count
    let rest ← hops f fanout
    return ⟨map, f.nodes⟩ :: rest

/-- Sample a subgraph around seeds, hop by hop. -/
def sample (seeds : List NodeId) (fanout : List Nat) : Query γ Subgraph := do
  let start := Frontier.ofSeeds seeds
  let hops ← hops start fanout
  return { levels := start.nodes :: hops.map Hop.level, maps := hops.map Hop.map }

end Subgraph

end BipartiteBatch
