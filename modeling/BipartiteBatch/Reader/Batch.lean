import BipartiteBatch.Block.Adjacency
import BipartiteBatch.Block.Edge
import BipartiteBatch.Negative.Sampler
import BipartiteBatch.Reader.Assembly

/-!
# Batches

A training batch has edges; each destination gets negatives drawn from the destinations of the batch,
and all nodes are split into users and items, whose two encoders each get a sampled subgraph with its
feature and adjacency blocks. The edges are then listed by the flat indices of their ends. A prediction
batch has nodes; both encoders are filled in the same way, each node is looked up by its flat index, and
nothing is drawn.

* `drawNegatives`, `fillEncoder` : the parts of a batch;
* `trainOn`, `predictFor` : the two kinds of batches;
* `Reader.fill` : the next batch of a reader.

A call that does not give a batch, because the input is exhausted or because of an error, leaves a
cleared instance.
-/

namespace BipartiteBatch

namespace Negatives

/-- The number of negatives that equal their destination, provided that each destination has `count`
negatives. -/
def countSelf (count : Nat) : List NodeId → List (List NodeId) → Except BatchError Nat
  | dst :: dsts, negatives :: lists =>
    if negatives.length = count then do
      return negatives.count dst + (← countSelf count dsts lists)
    else .error (.sampling (.listLength negatives.length count dst))
  | _, _ => return 0

/-- The same, provided also that there is one list for each destination. -/
def check (count : Nat) (dsts : List NodeId) (lists : List (List NodeId)) :
    Except BatchError Nat :=
  if lists.length = dsts.length then countSelf count dsts lists
  else .error (.sampling (.listCount lists.length dsts.length))

end Negatives

namespace Assembly

variable {γ σ : Type} [GraphClient γ] [NegativeSampler σ]

/-- Draw the negatives of destinations from the destinations, and count those that equal theirs. -/
def drawNegatives (dsts : List NodeId) : Assembling γ σ (List (List NodeId)) := do
  let a ← get
  let count := a.reader.config.numNeg.toNat
  let lists ← askSampler (NegativeSampler.negatives count dsts dsts)
  let selfNegatives ← result (Negatives.check count dsts lists)
  if 0 < selfNegatives then tell [.selfNegatives selfNegatives dsts.length]
  modifyStats fun s => s.addSelfNegatives selfNegatives
  return lists

/-- Fill the slots of an encoder from a subgraph around its nodes, and give the indexing of these. -/
def fillEncoder (group : Group) (nodes : List NodeId) : Assembling γ σ Indexing := do
  let a ← get
  let config := a.reader.config
  let slots := a.reader.slots.encoder group
  let sub ← askGraph (Subgraph.sample nodes (config.numNeighbors.map UInt64.toNat))
  fill (Block.fillNodeFeature slots.nodeFeature sub.deepest)
  if config.useNeighFeat then
    fill (Block.fillNeighborFeature slots.neighborFeature sub.deepest)
  let indexings := Indexing.ofLevels sub.levels
  let pairs ← result (Block.adjacency false sub indexings)
  modifyInstance (Block.writeAdjacency slots.selfBlock slots.neighborBlock pairs)
  return indexings.headD .empty

/-- Fill both encoders, and give the flat index of their nodes. -/
def fillEncoders (p : Partition) : Assembling γ σ FlatIndex := do
  let users ← fillEncoder .user p.users
  let items ← fillEncoder .item p.items
  let a ← get
  return ⟨a.reader.config.tags, users, items⟩

/-- Make edges into a training batch. -/
def trainOn (records : List EdgeRecord) : Assembling γ σ Unit := do
  let a ← get
  let slots := a.reader.slots
  let srcs := records.map EdgeRecord.src
  let dsts := records.map EdgeRecord.dst
  let lists ← drawNegatives dsts
  let p ← partition (srcs ++ dsts ++ lists.flatten)
  let flat ← fillEncoders p
  let rows ← result (Block.edgeRows (Block.flatIndex flat) (Block.flatIndex flat) srcs dsts lists)
  modifyInstance (Block.writeEdges slots.srcId slots.dstId slots.label rows)
  countBatch records.length rows.length p.unknown.length

/-- Make nodes into a prediction batch. -/
def predictFor (records : List NodeRecord) : Assembling γ σ Unit := do
  let a ← get
  let slots := a.reader.slots
  let nodes := records.map NodeRecord.node
  let p ← partition nodes
  let flat ← fillEncoders p
  let block ← result (Block.lookupBlock flat nodes)
  modifyInstance (Block.writeLookup slots.srcId slots.predictNode block nodes)
  countBatch records.length records.length p.unknown.length

def nextBatch (ρ : Type) [Record ρ] (make : List ρ → Assembling γ σ Unit) :
    Assembling γ σ Bool := do
  match ← nextRecords ρ with
  | none => finish
  | some records =>
    make records
    return true

def nextOf : Mode → Assembling γ σ Bool
  | .train => nextBatch EdgeRecord trainOn
  | .predict => nextBatch NodeRecord predictFor

end Assembly

/-- Fill the instance with the next batch; false if the input is exhausted. -/
def Reader.fill {γ σ : Type} [GraphClient γ] [NegativeSampler σ] : Assembling γ σ Bool := fun a =>
  match Assembly.nextOf a.reader.config.mode { a with inst := .empty } with
  | (.ok b, a) => (.ok b, a)
  | (.error e, a) => (.error e, { a with inst := .empty })

end BipartiteBatch
