import BipartiteBatch.Instance
import BipartiteBatch.Graph.Client

/-!
# Feature blocks

A feature block has one row for each node of the deepest level of a subgraph, in the order of the level.
A node without features of its own has itself as its only feature; a node whose neighbors make up no
features has an empty row. The graph may answer with too many rows, of which the first are taken, or
with too few, which is an error after the block is written.

* `nodeRow` : the row of a node;
* `writeRows` : the block in a slot, cleared and given new rows;
* `fillNodeFeature`, `fillNeighborFeature` : ask the graph, write the rows.
-/

namespace BipartiteBatch.Block

structure Filling (γ : Type) where
  inst : Instance
  graph : γ

namespace Filling

variable {γ α : Type}

def ask (q : Query γ α) : Query (Filling γ) α :=
  Query.focus Filling.graph (fun f graph => { f with graph }) q

/-- Change the block in a slot, and give it as it is then. -/
def updateBlock (slot : String) (change : Csr → Csr) : Query (Filling γ) Csr := fun f =>
  let (block, inst) := f.inst.getOrInsert slot .csr
  (.ok (change block), { f with inst := inst.insert slot (.csr (change block)) })

theorem updateBlock_eq (slot : String) (change : Csr → Csr) (f : Filling γ) :
    updateBlock slot change f = (.ok (change (f.inst.getOrInsert slot .csr).1),
      { f with inst := f.inst.insert slot (.csr (change (f.inst.getOrInsert slot .csr).1)) }) := by
  rw [← Instance.getOrInsert_insert f.inst slot .csr]
  rfl

end Filling

/-- The row of a node: its features, or the node itself. -/
def nodeRow (node : NodeId) (row : FeatureRow) : FeatureRow :=
  if row.isEmpty then [(node, 1.0)] else row

def nodeRows (nodes : List NodeId) (rows : List FeatureRow) : List FeatureRow :=
  nodes.zipWith nodeRow rows

def neighborRows (nodes : List NodeId) (rows : List FeatureRow) : List FeatureRow :=
  rows.take nodes.length

def nodeBlock (nodes : List NodeId) (rows : List FeatureRow) : Csr := .ofRows (nodeRows nodes rows)

def neighborBlock (nodes : List NodeId) (rows : List FeatureRow) : Csr :=
  .ofRows (neighborRows nodes rows)

variable {γ : Type} [GraphClient γ]

/-- Write rows to the block in a slot, in place of its own, and check that they are as many as nodes. -/
def writeRows (slot : String) (rows : List FeatureRow) (count : Nat) : Query (Filling γ) Unit := do
  let block ← Filling.updateBlock slot fun block => block.clear.addRows rows
  if block.rowCount = count then return ()
  else Query.fail (.graph (.featureRows slot block.rowCount count))

def fillNodeFeature (slot : String) (nodes : List NodeId) : Query (Filling γ) Unit := do
  let rows ← Filling.ask (GraphClient.nodeFeatures nodes)
  writeRows slot (nodeRows nodes rows) nodes.length

def fillNeighborFeature (slot : String) (nodes : List NodeId) : Query (Filling γ) Unit := do
  let rows ← Filling.ask (GraphClient.neighborFeatures nodes)
  writeRows slot (neighborRows nodes rows) nodes.length

end BipartiteBatch.Block
