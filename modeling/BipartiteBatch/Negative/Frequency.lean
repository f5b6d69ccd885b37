import BipartiteBatch.Negative.Sampler

/-!
# Negatives by frequency

A candidate that occurs `count` times in the population has the weight `count ^ (1 / T)` for a
temperature `T`, in 64-bit floats: a higher temperature evens the candidates out. A draw is a point
below the total of the weights, and falls to the candidate whose share of the total holds the point.
An excluded query has the weight zero. A total that is not finite aborts.

The weights and the draws are written for any power function in the place of the one of the floats.

* `WeightTable` : the partial sums of weights, `total` and `pick`;
* `FrequencySampler` : the sampler;
* `weights`, `weightsBy` : the weights of the candidates;
* `point` : a random point below a total, a random `fraction` of a `scale`;
* `negativesBy` : the negatives of a request.
-/

namespace BipartiteBatch

open Draw

/-- A sampler that prefers frequent candidates. -/
structure FrequencySampler where
  temperature : Float32
  exclusion : SelfExclusion := .excludeQuery
  stream : Keystream := .ofSeed 0xfedcba9876543210

/-- The sums of the weights before each candidate but the first, and of all. -/
structure WeightTable where
  before : Array Float
  total : Float

namespace WeightTable

def ofWeights : List Float → WeightTable
  | [] => ⟨#[], 0⟩
  | w :: ws =>
    ws.foldl (fun t w => { before := t.before.push t.total, total := t.total + w }) ⟨#[], w⟩

/-- The candidate whose share holds a point: as many as there are sums not above the point come
before it. -/
def pick (t : WeightTable) (point : Float) : Nat := t.before.countP fun sum => sum ≤ point

end WeightTable

namespace FrequencySampler

/-- The exponent of the counts. Temperatures that are not above 0.01 count as 0.01. -/
def exponent (temperature : Float32) : Float :=
  1.0 / (if temperature > 0.01 then temperature else 0.01).toFloat

def weightsBy (power : Float → Float → Float) (temperature : Float32) (counts : List (NodeId × Nat)) :
    List Float :=
  counts.map fun e => power (Float.ofNat e.2) (exponent temperature)

def weights : Float32 → List (NodeId × Nat) → List Float := weightsBy Float.pow

def without (skip : Nat) (ws : List Float) : List Float := ws.set skip 0

/-- The upper 52 bits of a random word as a fraction. -/
def fraction (v : UInt64) : Float := (v >>> 12).toFloat * Float.ofBits 0x3CB0000000000000

def maxFraction : Float := fraction 0xFFFFFFFFFFFFFFFF

/-- The largest float of these bits or fewer of which every fraction is below a total. -/
def scaleFrom (total : Float) : Nat → Float
  | 0 => 0
  | bits + 1 =>
    let scale := Float.ofBits (UInt64.ofNat (bits + 1))
    if total ≤ maxFraction * scale then scaleFrom total bits else scale

/-- The float that a fraction is taken of: the total, or less where the product would be rounded up to
the total. -/
def scale (total : Float) : Float := scaleFrom total total.toBits.toNat

def point (total : Float) (s : Keystream) : Float × Keystream :=
  let v := s.next64
  (fraction v.1 * scale total, v.2)

def drawOne (candidates : Array NodeId) (t : WeightTable) (s : Keystream) : NodeId × Keystream :=
  let p := point t.total s
  (candidates.getD (t.pick p.1) 0, p.2)

def draw (count : Nat) (candidates : Array NodeId) (ws : List Float) (all : WeightTable)
    (exclusion : SelfExclusion) (query : NodeId) : Keystream → List NodeId × Keystream :=
  let table :=
    match excludedPosition? candidates query exclusion with
    | some skip => .ofWeights (without skip ws)
    | none => all
  mapDraws (fun _ s => drawOne candidates table s) (List.replicate count ())

def negativesBy (power : Float → Float → Float) (count : Nat) (population queries : List NodeId) :
    Query FrequencySampler (List (List NodeId)) := fun f =>
  let counts := distinctCounts population
  let ws := weightsBy power f.temperature counts
  let all := WeightTable.ofWeights ws
  let draws :=
    if all.total.isFinite then
      .ok (draw count (counts.map (·.1)).toArray ws all f.exclusion)
    else .error .weightTotal
  let r := answer count population queries draws f.stream
  (r.1, { f with stream := r.2 })

instance : NegativeSampler FrequencySampler where
  negatives := negativesBy Float.pow
  selfExclusion f := f.exclusion

end FrequencySampler

end BipartiteBatch
