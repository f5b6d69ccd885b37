import BipartiteBatch.Draw.Bounded
import BipartiteBatch.Indexing
import BipartiteBatch.Query

/-!
# Negative samplers

For each query node a sampler gives a number of nodes from a population, the negatives of the query. A
sampler may be told to leave the query itself out. What is drawn from are the distinct nodes of the
population in first-seen order, the candidates.

* `NegativeSampler` : the interface;
* `Tally`, `distinctCounts` : the candidates, each with how often it occurs;
* `excludedPosition?` : the place of the query among the candidates, if it is to be left out; the only
  candidate is never left out;
* `answer` : what all samplers have in common, the requests that need no draw.
-/

namespace BipartiteBatch

open Draw

inductive SelfExclusion where
  | allow
  | excludeQuery
deriving DecidableEq, Repr

namespace SelfExclusion

def name : SelfExclusion → String
  | allow => "allow"
  | excludeQuery => "exclude_query"

def all : List SelfExclusion := [allow, excludeQuery]

end SelfExclusion

/-- A source of negatives with state `σ`. -/
class NegativeSampler (σ : Type) where
  /-- A list of `count` nodes of the population for each query. -/
  negatives (count : Nat) (population queries : List NodeId) : Query σ (List (List NodeId))
  /-- Whether a query may be its own negative. -/
  selfExclusion : σ → SelfExclusion

/-- Distinct nodes in first-seen order, each with how often it occurred, and the place of each. -/
structure Tally where
  place : Std.HashMap NodeId Nat := {}
  counts : Array (NodeId × Nat) := #[]
  place_eq_some_iff : ∀ (node : NodeId) (i : Nat),
    place[node]? = some i ↔ (counts.map Prod.fst)[i]? = some node := by simp

namespace Tally

def raise (t : Tally) (i : Nat) : Tally where
  place := t.place
  counts := t.counts.modify i fun e => (e.1, e.2 + 1)
  place_eq_some_iff node j := by
    rw [t.place_eq_some_iff, Array.getElem?_map, Array.getElem?_map, Array.getElem?_modify]
    split
    · cases t.counts[j]? <;> rfl
    · rfl

def push (t : Tally) (node : NodeId) (h : t.place[node]? = none) : Tally where
  place := t.place.insert node t.counts.size
  counts := t.counts.push (node, 1)
  place_eq_some_iff other j := by
    have hnew := Indexing.getElem?_insert_size_iff t.place_eq_some_iff h other j
    rw [Array.size_map] at hnew
    rwa [Array.map_push]

def add (t : Tally) (node : NodeId) : Tally :=
  match h : t.place[node]? with
  | some i => t.raise i
  | none => t.push node h

end Tally

/-- The distinct nodes in first-seen order, each with how often it occurs. -/
def distinctCounts (population : List NodeId) : List (NodeId × Nat) :=
  (population.foldl Tally.add {}).counts.toList

/-- The position of the query among the candidates, if it is to be left out. -/
def excludedPosition? (candidates : Array NodeId) (query : NodeId) :
    SelfExclusion → Option Nat
  | .allow => none
  | .excludeQuery => if candidates.size = 1 then none else candidates.findIdx? (· == query)

/-- The lists for all queries, each drawn by `draw`. Nothing is drawn where nothing is wanted, and
nothing can be drawn from no one. -/
def answer (count : Nat) (population queries : List NodeId)
    (draw : Except Abort (NodeId → Keystream → List NodeId × Keystream)) :
    Query Keystream (List (List NodeId)) := fun s =>
  if count = 0 ∨ queries = [] then (.ok (queries.map fun _ => []), s)
  else if population = [] then
    (.error (.error (.sampling (.emptyPopulation count queries.length))), s)
  else
    match draw with
    | .error e => (.error (.abort e), s)
    | .ok draw =>
      if fits count 8 then
        let lists := mapDraws draw queries s
        (.ok lists.1, lists.2)
      else (.error (.abort (.capacity count)), s)

end BipartiteBatch
