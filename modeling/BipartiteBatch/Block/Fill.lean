import BipartiteBatch.Block.Adjacency
import BipartiteBatch.Block.Edge
import BipartiteBatch.Block.Feature

/-!
# Fills

The four operations that fill slots of an instance: the feature blocks of the nodes and of the neighbors
of the deepest level of a subgraph, the adjacency blocks of its hops, and the rows of edges. Only the first
two ask the graph. The other two write when all that they write has been built.

* `fillAdjacency`, `fillEdges` : the adjacency blocks, and the rows of edges;
* `Fill` : an operation with its slots and with what it is to fill them from, `Fill.run` : the operation
  carried out.
-/

namespace BipartiteBatch.Block

variable {γ : Type}

def Filling.modify (change : Instance → Instance) : Query (Filling γ) Unit := fun f =>
  (.ok (), { f with inst := change f.inst })

def fillAdjacency (selfSlot neighborSlot : String) (directed : Bool) (sub : Subgraph)
    (indexings : List Indexing) : Query (Filling γ) Unit := do
  let pairs ← Query.lift ((adjacency directed sub indexings).mapError .error)
  Filling.modify (writeAdjacency selfSlot neighborSlot pairs)

def fillEdges (srcSlot dstSlot labelSlot : String) (srcIndex dstIndex : IndexFn)
    (srcs dsts : List NodeId) (lists : List (List NodeId)) : Query (Filling γ) Unit := do
  let rows ← Query.lift ((edgeRows srcIndex dstIndex srcs dsts lists).mapError .error)
  Filling.modify (writeEdges srcSlot dstSlot labelSlot rows)

/-- An operation that fills slots. -/
inductive Fill where
  | nodeFeature (slot : String) (sub : Subgraph)
  | neighborFeature (slot : String) (sub : Subgraph)
  | adjacency (selfSlot neighborSlot : String) (directed : Bool) (sub : Subgraph)
    (indexings : List Indexing)
  | edges (srcSlot dstSlot labelSlot : String) (srcIndex dstIndex : IndexFn)
    (srcs dsts : List NodeId) (lists : List (List NodeId))

def Fill.run [GraphClient γ] : Fill → Query (Filling γ) Unit
  | nodeFeature slot sub => fillNodeFeature slot sub.deepest
  | neighborFeature slot sub => fillNeighborFeature slot sub.deepest
  | adjacency selfSlot neighborSlot directed sub indexings =>
    fillAdjacency selfSlot neighborSlot directed sub indexings
  | edges srcSlot dstSlot labelSlot srcIndex dstIndex srcs dsts lists =>
    fillEdges srcSlot dstSlot labelSlot srcIndex dstIndex srcs dsts lists

end BipartiteBatch.Block
