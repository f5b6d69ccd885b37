import BipartiteBatch.Negative.Sampler

/-!
# Replayed negatives

A sampler that does not look at what it is asked: each request takes the next recorded answer. When
they are used up, each query has an empty list.
-/

namespace BipartiteBatch

structure ReplayedSampler where
  answers : List (Except BatchError (List (List NodeId))) := []

instance : NegativeSampler ReplayedSampler where
  negatives _ _ queries := fun r =>
    match r.answers with
    | [] => (.ok (queries.map fun _ => []), r)
    | .ok lists :: rest => (.ok lists, ⟨rest⟩)
    | .error e :: rest => (.error (.error e), ⟨rest⟩)
  selfExclusion _ := .allow

end BipartiteBatch
