import BipartiteBatch.Indexing
import BipartiteBatch.Instance
import BipartiteBatch.Subgraph

/-!
# Adjacency blocks

For each hop of a subgraph two blocks tell where the nodes of a level and their sampled neighbors stand
in the next level. A row of the self block holds the index of its node; a row of the neighbor block the
indices of the neighbors, weighted so that they sum to one.

* `weights` : the weights of neighbors, equal or by the weights of the edges;
* `rowPair`, `blockPair` : the rows of a node, and the blocks of a hop;
* `adjacency` : both blocks of all hops;
* `writeAdjacency` : the instance with the blocks in two slots.

Nothing is written unless all blocks could be built.
-/

namespace BipartiteBatch.Block

/-- The weights of neighbors: equal, or if `directed` in proportion to the edges, so long as the weights
of these do not sum to zero or less. -/
def weights (directed : Bool) (neighbors : List Neighbor) : List Float32 :=
  let mean := 1.0 / Float32.ofNat neighbors.length
  let total := neighbors.foldl (fun sum n => sum + n.weight) 0
  neighbors.map fun n => if !directed || total ≤ 0 then mean else n.weight / total

def indexAt (number : Nat) (indexing : Indexing) (node : NodeId) : Except BatchError UInt64 :=
  match indexing.get? node with
  | some i => .ok (UInt64.ofNat i)
  | none => .error (.graph (.notIndexed node number))

structure RowPair where
  self : List Entry
  neighbors : List Entry

/-- The rows of a node whose hop leads to the level with a number. -/
def rowPair (directed : Bool) (number : Nat) (next : Indexing) (map : NeighborMap) (node : NodeId) :
    Except BatchError RowPair := do
  let i ← indexAt number next node
  let neighbors := map.neighbors node
  let indices ← neighbors.mapM fun n => indexAt number next n.node
  return ⟨[(i, 1.0)], indices.zip (weights directed neighbors)⟩

structure BlockPair where
  self : Csr
  neighbors : Csr

def blockPair (directed : Bool) (number : Nat) (next : Indexing) (map : NeighborMap)
    (level : List NodeId) : Except BatchError BlockPair := do
  let rows ← level.mapM (rowPair directed number next map)
  return ⟨.ofRows (rows.map RowPair.self), .ofRows (rows.map RowPair.neighbors)⟩

/-- The blocks of the hops to the levels with the numbers `number`, `number + 1`, and so on. -/
def blockPairs (directed : Bool) (number : Nat) :
    List (List NodeId) → List NeighborMap → List Indexing → Except BatchError (List BlockPair)
  | level :: levels, map :: maps, next :: nexts => do
    let pair ← blockPair directed number next map level
    let pairs ← blockPairs directed (number + 1) levels maps nexts
    return pair :: pairs
  | _, _, _ => return []

/-- The blocks of all hops of a subgraph, given an indexing for each level. -/
def adjacency (directed : Bool) (sub : Subgraph) (indexings : List Indexing) :
    Except BatchError (List BlockPair) :=
  if indexings.length = sub.levels.length ∧ sub.maps.length + 1 = sub.levels.length then
    blockPairs directed 1 sub.levels sub.maps indexings.tail
  else .error (.graph (.depth sub.levels.length sub.maps.length indexings.length))

def writeAdjacency (selfSlot neighborSlot : String) (pairs : List BlockPair) (inst : Instance) :
    Instance :=
  (inst.update selfSlot .csrList fun _ => pairs.map BlockPair.self).update neighborSlot .csrList
    fun _ => pairs.map BlockPair.neighbors

theorem writeAdjacency_eq (selfSlot neighborSlot : String) (pairs : List BlockPair) (inst : Instance) :
    writeAdjacency selfSlot neighborSlot pairs inst
      = (inst.insert selfSlot (.csrList (pairs.map BlockPair.self))).insert neighborSlot
        (.csrList (pairs.map BlockPair.neighbors)) := by
  rw [writeAdjacency, Instance.update_eq_insert, Instance.update_eq_insert]
  rfl

end BipartiteBatch.Block
