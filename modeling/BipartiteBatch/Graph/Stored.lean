import BipartiteBatch.Graph.Client
import BipartiteBatch.Draw.Subset
import Std.Data.HashMap

/-!
# Graphs held in memory

The edges of a node stand in the order in which they were added, parallel edges and loops included. A
node with at most as many neighbors as are asked for gives them all, in that order; of any other node
distinct places among its edges are drawn.

* `addEdge`, `addUndirectedEdge`, `setFeatures`, `withSeed` : building a graph;
* `neighbors`, `features` : the stored lists;
* `sample` : a sample of a node's neighbors;
* `GraphClient Graph` : the graph as a client.
-/

namespace BipartiteBatch

open Draw

/-- Stored edges and features, and the random stream of the graph. -/
structure Graph where
  adjacency : Std.HashMap NodeId (Array Neighbor) := {}
  featureRows : Std.HashMap NodeId FeatureRow := {}
  numEdges : Nat := 0
  stream : Keystream := .ofSeed 0

namespace Graph

def empty : Graph := {}

/-- The graph with its stream at the start of another seed. -/
def withSeed (g : Graph) (seed : UInt64) : Graph := { g with stream := .ofSeed seed }

def adjacent (g : Graph) (node : NodeId) : Array Neighbor := g.adjacency[node]?.getD #[]

def neighbors (g : Graph) (node : NodeId) : List Neighbor := (g.adjacent node).toList

def features (g : Graph) (node : NodeId) : FeatureRow := g.featureRows[node]?.getD []

def addEdge (g : Graph) (src dst : NodeId) (weight : Float32) : Graph :=
  { g with
    adjacency := g.adjacency.alter src fun edges => some ((edges.getD #[]).push ⟨dst, weight⟩)
    numEdges := g.numEdges + 1 }

def addUndirectedEdge (g : Graph) (a b : NodeId) (weight : Float32) : Graph :=
  (g.addEdge a b weight).addEdge b a weight

def setFeatures (g : Graph) (node : NodeId) (row : FeatureRow) : Graph :=
  { g with featureRows := g.featureRows.insert node row }

/-- The number of nodes with a stored edge from them. -/
def numNodes (g : Graph) : Nat := g.adjacency.size

/-- A sample of `count` stored neighbors of a node, or all of them if there are no more. -/
def sample (g : Graph) (count : Nat) (node : NodeId) (s : Keystream) : List Neighbor × Keystream :=
  let edges := g.adjacent node
  if edges.size ≤ count then (edges.toList, s)
  else
    let chosen := positions edges.size count s
    (chosen.1.filterMap fun i => edges[i]?, chosen.2)

instance : GraphClient Graph where
  sampleNeighbors nodes count := fun g =>
    let lists := mapDraws (g.sample count) nodes g.stream
    (.ok lists.1, { g with stream := lists.2 })
  nodeFeatures nodes := fun g => (.ok (nodes.map g.features), g)
  neighborFeatures nodes := fun g =>
    (.ok (nodes.map fun node => (g.neighbors node).map fun n => (n.node, n.weight)), g)

end Graph

end BipartiteBatch
