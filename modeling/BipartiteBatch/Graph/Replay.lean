import BipartiteBatch.Graph.Client

/-!
# Replayed answers

A graph client that does not look at what it is asked: each kind of question takes the next of the
answers recorded for it. When they are used up, each node has an empty list.
-/

namespace BipartiteBatch

abbrev Recorded (α : Type) := Except BatchError (List (List α))

/-- The answers that are left for each kind of question. -/
structure ReplayedGraph where
  neighbors : List (Recorded Neighbor) := []
  nodeFeatures : List (Recorded Entry) := []
  neighborFeatures : List (Recorded Entry) := []

def Recorded.answer {α : Type} : Recorded α → Except Failure (List (List α))
  | .ok lists => .ok lists
  | .error e => .error (.error e)

instance : GraphClient ReplayedGraph where
  sampleNeighbors nodes _ := fun g =>
    match g.neighbors with
    | [] => (.ok (nodes.map fun _ => []), g)
    | r :: rest => (r.answer, { g with neighbors := rest })
  nodeFeatures nodes := fun g =>
    match g.nodeFeatures with
    | [] => (.ok (nodes.map fun _ => []), g)
    | r :: rest => (r.answer, { g with nodeFeatures := rest })
  neighborFeatures nodes := fun g =>
    match g.neighborFeatures with
    | [] => (.ok (nodes.map fun _ => []), g)
    | r :: rest => (r.answer, { g with neighborFeatures := rest })

end BipartiteBatch
