import BipartiteBatch.Negative.Sampler

/-!
# Uniform negatives

Each candidate other than an excluded query is equally likely, however often it occurs in the
population. One bounded draw makes one negative: with a position left out, draws from that position on
stand for the candidates one further.

* `choices`, `admitted` : the values that a draw can have, and the candidate that one stands for;
* `UniformSampler` : the sampler.
-/

namespace BipartiteBatch

open Draw

/-- A sampler for which all candidates are equally likely. -/
structure UniformSampler where
  exclusion : SelfExclusion := .excludeQuery
  stream : Keystream := .ofSeed 0x123456789abcdef0

namespace UniformSampler

/-- The number of values that a draw can have. -/
def choices (candidates : Array NodeId) : (skip : Option Nat) → Nat
  | some _ => candidates.size - 1
  | none => candidates.size

/-- The candidate that the draw `i` stands for. -/
def admitted (candidates : Array NodeId) (skip : Option Nat) (i : Nat) : NodeId :=
  match skip with
  | some p => candidates.getD (if p ≤ i then i + 1 else i) 0
  | none => candidates.getD i 0

def drawOne (candidates : Array NodeId) (skip : Option Nat) (s : Keystream) : NodeId × Keystream :=
  let i := below .long (choices candidates skip) s
  (admitted candidates skip i.1, i.2)

def draw (count : Nat) (candidates : Array NodeId) (exclusion : SelfExclusion) (query : NodeId) :
    Keystream → List NodeId × Keystream :=
  let skip := excludedPosition? candidates query exclusion
  mapDraws (fun _ s => drawOne candidates skip s) (List.replicate count ())

instance : NegativeSampler UniformSampler where
  negatives count population queries := fun u =>
    let candidates := ((distinctCounts population).map (·.1)).toArray
    let r := answer count population queries (.ok (draw count candidates u.exclusion)) u.stream
    (r.1, { u with stream := r.2 })
  selfExclusion u := u.exclusion

end UniformSampler

end BipartiteBatch
