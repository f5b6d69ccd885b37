import BipartiteBatch.Query

/-!
# Graph clients

What a graph is asked for while batches are built. A client answers a list of nodes with one list per
node, though nothing in the types makes it give the right number of lists or answer at all; its state
may change with every question.
-/

namespace BipartiteBatch

/-- The far end of an edge, and its weight. -/
structure Neighbor where
  node : NodeId
  weight : Float32

abbrev FeatureRow := List Entry

/-- A source of neighbors and features with state `γ`. -/
class GraphClient (γ : Type) where
  /-- Up to `count` neighbors of each node. -/
  sampleNeighbors (nodes : List NodeId) (count : Nat) : Query γ (List (List Neighbor))
  /-- The features of each node. -/
  nodeFeatures (nodes : List NodeId) : Query γ (List FeatureRow)
  /-- The features that the neighbors of each node make up. -/
  neighborFeatures (nodes : List NodeId) : Query γ (List FeatureRow)

end BipartiteBatch
