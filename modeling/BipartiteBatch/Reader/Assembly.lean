import BipartiteBatch.Block.Feature
import BipartiteBatch.Partition
import BipartiteBatch.Reader.Basic

/-!
# The work of one call

A call of a reader works on the reader, on the states of the graph and the sampler, and on the instance
that is to hold the batch; it tells events on the way. All of this is one state, an `Assembly`, and a
call is a sequence of steps on it. The first error ends the sequence and leaves the state as it is then.

* `get`, `tell`, `modifyInstance`, `modifyStats`, `result` : steps without a question;
* `askGraph`, `askSampler`, `fill` : questions to the collaborators;
* `nextRecords`, `finish`, `countBatch` : the ends of a batch.
-/

namespace BipartiteBatch

/-- What a call of a reader works on, and the events it has caused. -/
structure Assembly (γ σ : Type) where
  reader : Reader
  graph : γ
  sampler : σ
  inst : Instance
  events : List Event := []

abbrev Assembling (γ σ α : Type) := Query (Assembly γ σ) α

namespace Assembly

variable {γ σ α : Type}

def get : Assembling γ σ (Assembly γ σ) := fun a => (.ok a, a)

def tell (events : List Event) : Assembling γ σ Unit := fun a =>
  (.ok (), { a with events := a.events ++ events })

def modifyInstance (f : Instance → Instance) : Assembling γ σ Unit := fun a =>
  (.ok (), { a with inst := f a.inst })

def modifyStats (f : Stats → Stats) : Assembling γ σ Unit := fun a =>
  (.ok (), { a with reader := { a.reader with stats := f a.reader.stats } })

def askGraph (q : Query γ α) : Assembling γ σ α :=
  Query.focus Assembly.graph (fun a graph => { a with graph }) q

def askSampler (q : Query σ α) : Assembling γ σ α :=
  Query.focus Assembly.sampler (fun a sampler => { a with sampler }) q

/-- A question to the graph, with an answer written to the instance. -/
def fill (q : Query (Block.Filling γ) α) : Assembling γ σ α :=
  Query.focus (fun a => ⟨a.inst, a.graph⟩)
    (fun a f => { a with inst := f.inst, graph := f.graph }) q

def result (r : Except BatchError α) : Assembling γ σ α := Query.lift (r.mapError .error)

def nextRecords (ρ : Type) [Record ρ] : Assembling γ σ (Option (List ρ)) := fun a =>
  let (r, input, events) := a.reader.input.next ρ a.reader.config.batch.toNat
  (r, { a with reader := { a.reader with input }, events := a.events ++ events })

/-- Close the input and clear the instance: there is no batch. -/
def finish : Assembling γ σ Bool := fun a =>
  let (input, events) := a.reader.input.close
  let s := a.reader.stats
  (.ok false,
    { a with
      reader := { a.reader with input }
      inst := .empty
      events := a.events ++ events ++ [.inputExhausted s.batches s.records] })

/-- Split nodes by group, and tell those of no group. -/
def partition (nodes : List NodeId) : Assembling γ σ Partition := do
  let a ← get
  let p := Partition.ofList a.reader.config.tags nodes
  tell (p.events a.reader.config.tags)
  return p

def countBatch (records rows invalid : Nat) : Assembling γ σ Unit := do
  modifyInstance fun inst => inst.withBatchSize records
  modifyStats fun s => s.addBatch records rows invalid

end Assembly

end BipartiteBatch
