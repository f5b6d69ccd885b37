import BipartiteBatch.Error
import BipartiteBatch.FlatIndex
import BipartiteBatch.Instance

/-!
# Edge rows and lookup rows

A training batch lists its edges as rows of a source index, a destination index and a label: first a
positive edge with the label one, then, with the label zero, its source with each of its negatives. A
prediction batch looks each of its nodes up in a block with one entry per row.

The columns of the rows are laid out before the first row is known, and whether there is room for them
is not asked here. They have an entry for each node the batch is made of, so they fit where the nodes do
(`Reader.HasRoom`).

* `edgeRows` : the rows of edges and their negatives, or the first error of an index function;
* `writeEdges` : the instance with the columns of the rows in three slots;
* `lookupBlock` : the block of the indices of nodes;
* `writeLookup` : the instance with that block and the nodes in two slots.
-/

namespace BipartiteBatch.Block

structure EdgeRow where
  src : Nat
  dst : Nat
  label : Float32

abbrev IndexFn := NodeId → Except BatchError Nat

/-- The rows of an edge: itself, and its source with each negative. -/
def rowsOfEdge (srcIndex dstIndex : IndexFn) (src dst : NodeId) (negatives : List NodeId) :
    Except BatchError (List EdgeRow) := do
  let i ← srcIndex src
  let j ← dstIndex dst
  let js ← negatives.mapM dstIndex
  return ⟨i, j, 1.0⟩ :: js.map fun j => ⟨i, j, 0.0⟩

def rowsOfEdges (srcIndex dstIndex : IndexFn) :
    List NodeId → List NodeId → List (List NodeId) → Except BatchError (List (List EdgeRow))
  | src :: srcs, dst :: dsts, negatives :: lists => do
    let rows ← rowsOfEdge srcIndex dstIndex src dst negatives
    let rest ← rowsOfEdges srcIndex dstIndex srcs dsts lists
    return rows :: rest
  | _, _, _ => return []

/-- The rows of edges whose ends and negatives stand in three lists of one length. -/
def edgeRows (srcIndex dstIndex : IndexFn) (srcs dsts : List NodeId)
    (lists : List (List NodeId)) : Except BatchError (List EdgeRow) :=
  if srcs.length = dsts.length ∧ dsts.length = lists.length then
    (rowsOfEdges srcIndex dstIndex srcs dsts lists).map List.flatten
  else .error (.graph (.edgeLengths srcs.length dsts.length lists.length))

def writeEdges (srcSlot dstSlot labelSlot : String) (rows : List EdgeRow) (inst : Instance) :
    Instance :=
  ((inst.update srcSlot .indices fun _ => rows.map EdgeRow.src).update dstSlot .indices
    fun _ => rows.map EdgeRow.dst).update labelSlot .labels fun _ => rows.map EdgeRow.label

theorem writeEdges_eq (srcSlot dstSlot labelSlot : String) (rows : List EdgeRow) (inst : Instance) :
    writeEdges srcSlot dstSlot labelSlot rows inst
      = ((inst.insert srcSlot (.indices (rows.map EdgeRow.src))).insert dstSlot
        (.indices (rows.map EdgeRow.dst))).insert labelSlot (.labels (rows.map EdgeRow.label)) := by
  rw [writeEdges, Instance.update_eq_insert, Instance.update_eq_insert, Instance.update_eq_insert]
  rfl

def flatIndex (flat : FlatIndex) : IndexFn := fun node =>
  match flat.index node with
  | .ok i => .ok i
  | .error e => .error (.node e)

/-- A block with a row for each node, which holds its flat index. -/
def lookupBlock (flat : FlatIndex) (nodes : List NodeId) : Except BatchError Csr := do
  let indices ← nodes.mapM (flatIndex flat)
  return .ofRows (indices.map fun i => [(UInt64.ofNat i, 1.0)])

def writeLookup (blockSlot nodeSlot : String) (block : Csr) (nodes : List NodeId) (inst : Instance) :
    Instance :=
  (inst.update blockSlot .csr fun _ => block).update nodeSlot .nodes fun _ => nodes

theorem writeLookup_eq (blockSlot nodeSlot : String) (block : Csr) (nodes : List NodeId)
    (inst : Instance) : writeLookup blockSlot nodeSlot block nodes inst
      = (inst.insert blockSlot (.csr block)).insert nodeSlot (.nodes nodes) := by
  rw [writeLookup, Instance.update_eq_insert, Instance.update_eq_insert]
  rfl

end BipartiteBatch.Block
