import BipartiteBatch.Negative.Frequency
import BipartiteBatch.Negative.Uniform

/-!
# Choosing a sampler

Which negatives a reader draws is a matter of four settings: the strategy, the temperature that the
frequency strategy uses, whether a query may be its own negative, and the seed.

* `SamplingSettings` : the settings, with their defaults;
* `SamplingSettings.build` : the sampler they describe, at the start of its stream.
-/

namespace BipartiteBatch

inductive Strategy where
  | uniform
  | frequency
deriving DecidableEq, Repr

namespace Strategy

def name : Strategy → String
  | uniform => "uniform"
  | frequency => "frequency"

def all : List Strategy := [uniform, frequency]

end Strategy

structure SamplingSettings where
  strategy : Strategy := .uniform
  temperature : Float32 := 1.0
  selfExclusion : SelfExclusion := .excludeQuery
  seed : UInt64 := 0x123456789abcdef0

inductive Sampler where
  | uniform (s : UniformSampler)
  | frequency (s : FrequencySampler)

instance : NegativeSampler Sampler where
  negatives count population queries
    | .uniform s =>
      let r := NegativeSampler.negatives count population queries s
      (r.1, .uniform r.2)
    | .frequency s =>
      let r := NegativeSampler.negatives count population queries s
      (r.1, .frequency r.2)
  selfExclusion
    | .uniform s => s.exclusion
    | .frequency s => s.exclusion

def SamplingSettings.build (s : SamplingSettings) : Sampler :=
  match s.strategy with
  | .uniform => .uniform { exclusion := s.selfExclusion, stream := .ofSeed s.seed }
  | .frequency =>
    .frequency
      { temperature := s.temperature, exclusion := s.selfExclusion, stream := .ofSeed s.seed }

end BipartiteBatch
