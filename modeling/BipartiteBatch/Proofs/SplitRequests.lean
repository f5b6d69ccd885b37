import BipartiteBatch.Negative.Frequency
import BipartiteBatch.Proofs.NeighborSamples
import BipartiteBatch.Proofs.UniformNegatives

/-!
# Requests in parts

A sampler or a graph has one random stream, and each request takes it up where the last one left it. So a
request for a list of items is answered as requests for its parts are, one after the other and however the
list is cut, and the stream is left at the same place. A request for nothing does not move it.

* `Query.Splits` : a request for two lists of items is one for each in turn;
* `Query.inTurn`, `Query.Splits.flatten_iff` : the same of any number of lists;
* `draws_or_refuses`, `splits_answer` : the requests of samplers;
* `Query.Splits.of_part` : requests put to a state that has a random stream in it;
* `Query.Continues`, `requests_continue` : all of this of the samplers and of a graph held in memory.
-/

namespace BipartiteBatch

open Draw

namespace Query

variable {σ τ α β : Type} {ask : List α → Query σ (List β)}

/-! ## Cutting a request -/

/-- A request for the items of two lists succeeds if and only if a request for the first and, after it, one
for the second do. It has the answers of the two and leaves the state that they leave. -/
def Splits (ask : List α → Query σ (List β)) : Prop :=
  ∀ (xs ys : List α) (s s' : σ) (answers : List β), ask (xs ++ ys) s = (.ok answers, s')
    ↔ ∃ first t second, ask xs s = (.ok first, t) ∧ ask ys t = (.ok second, s')
      ∧ first ++ second = answers

/-- Requests for the items of some lists, one after the other. -/
def inTurn (ask : List α → Query σ (List β)) : List (List α) → Query σ (List β)
  | [] => pure []
  | part :: parts => do
    let first ← ask part
    let others ← inTurn ask parts
    return first ++ others

theorem inTurn_cons_eq_ok {part : List α} {parts : List (List α)} {s s' : σ} {answers : List β} :
    inTurn ask (part :: parts) s = (.ok answers, s')
      ↔ ∃ first t others, ask part s = (.ok first, t) ∧ inTurn ask parts t = (.ok others, s')
        ∧ first ++ others = answers := by
  simp only [inTurn, bind_eq_ok, pure_eq_ok]
  constructor
  · rintro ⟨first, t, hfirst, others, _, hothers, rfl, rfl⟩
    exact ⟨first, t, others, hfirst, hothers, rfl⟩
  · rintro ⟨first, t, others, hfirst, hothers, rfl⟩
    exact ⟨first, t, hfirst, others, s', hothers, rfl, rfl⟩

/-- However a list is cut, the requests for its parts amount to the one for all of it. -/
theorem Splits.flatten_iff (h : Splits ask) (hnil : ∀ s, ask [] s = (.ok [], s))
    (parts : List (List α)) (s s' : σ) (answers : List β) :
    ask parts.flatten s = (.ok answers, s') ↔ inTurn ask parts s = (.ok answers, s') := by
  induction parts generalizing s answers with
  | nil => rw [List.flatten_nil, hnil]; rfl
  | cons part parts ih =>
    rw [List.flatten_cons, h, inTurn_cons_eq_ok]
    simp only [ih]

theorem splits_mapDraws (f : α → Keystream → β × Keystream) :
    Splits fun (xs : List α) s => (.ok (mapDraws f xs s).1, (mapDraws f xs s).2) := by
  intro xs ys s s' answers
  simp only [mapDraws_append, Prod.mk.injEq, Except.ok.injEq]
  constructor
  · rintro ⟨rfl, rfl⟩
    exact ⟨_, _, _, ⟨rfl, rfl⟩, ⟨rfl, rfl⟩, rfl⟩
  · rintro ⟨_, _, _, ⟨rfl, rfl⟩, ⟨rfl, rfl⟩, rfl⟩
    exact ⟨rfl, rfl⟩

theorem splits_of_refused (hnil : ∀ s, ask [] s = (.ok [], s))
    (hcons : ∀ x xs s s' answers, ask (x :: xs) s ≠ (.ok answers, s')) : Splits ask := by
  intro xs ys s s' answers
  cases xs with
  | nil => simp [hnil]
  | cons x xs => simp [hcons]

/-- Requests that are put to a part of a state, in a way that does not depend on this part, split as the
requests to the part do. -/
theorem Splits.of_part {ask : List α → Query τ (List β)} (get : τ → σ) (set : τ → σ → τ)
    {inner : τ → List α → Query σ (List β)}
    (hask : ∀ xs t, ask xs t = ((inner t xs (get t)).1, set t (inner t xs (get t)).2))
    (hinner : ∀ t s, inner (set t s) = inner t) (hget : ∀ t s, get (set t s) = s)
    (hset : ∀ t s s', set (set t s) s' = set t s') (h : ∀ t, Splits (inner t)) : Splits ask := by
  have hok : ∀ xs t t' answers, ask xs t = (.ok answers, t')
      ↔ ∃ s, inner t xs (get t) = (.ok answers, s) ∧ set t s = t' := by
    intro xs t t' answers
    rw [hask]
    constructor
    · intro heq
      obtain ⟨hanswers, hstate⟩ := Prod.mk.inj heq
      exact ⟨_, Prod.ext hanswers rfl, hstate⟩
    · rintro ⟨s, hs, rfl⟩
      rw [hs]
  intro xs ys t t' answers
  simp only [hok, h t xs ys]
  constructor
  · rintro ⟨s', ⟨first, s, second, hfirst, hsecond, rfl⟩, rfl⟩
    refine ⟨first, set t s, second, ⟨s, hfirst, rfl⟩, ⟨s', ?_, hset t s s'⟩, rfl⟩
    rwa [hinner, hget]
  · rintro ⟨first, _, second, ⟨s, hfirst, rfl⟩, ⟨s', hsecond, rfl⟩, rfl⟩
    rw [hinner, hget] at hsecond
    exact ⟨s', ⟨first, s, second, hfirst, hsecond, rfl⟩, (hset t s s').symm⟩

/-- Requests for `count` of something for each item go on where the last one stopped. -/
structure Continues (ask : (count : Nat) → List α → Query σ (List (List β))) : Prop where
  /-- A request for two lists is one for each in turn. -/
  splits : ∀ count, Splits (ask count)
  /-- A request for any number of lists is one for each in turn. -/
  parts : ∀ count parts s s' answers,
    ask count parts.flatten s = (.ok answers, s') ↔ inTurn (ask count) parts s = (.ok answers, s')
  /-- A request for nothing leaves the state as it is. -/
  idle : ∀ count items, count = 0 ∨ items = [] → ∀ s,
    ask count items s = (.ok (items.map fun _ => []), s)

theorem Continues.of_splits {ask : (count : Nat) → List α → Query σ (List (List β))}
    (h : ∀ count, Splits (ask count))
    (hidle : ∀ count items, count = 0 ∨ items = [] → ∀ s,
      ask count items s = (.ok (items.map fun _ => []), s)) : Continues ask where
  splits := h
  parts count := (h count).flatten_iff (hidle count [] (.inr rfl))
  idle := hidle

end Query

/-! ## Samplers -/

section Samplers
variable {count : Nat} {population queries : List NodeId}
  {draws : Except Abort (NodeId → Keystream → List NodeId × Keystream)}

theorem answer_of_idle (h : count = 0 ∨ queries = []) (s : Keystream) :
    answer count population queries draws s = (.ok (queries.map fun _ => []), s) := by
  unfold answer
  rw [if_pos h]

theorem answer_of_wanted (hcount : 0 < count) (hqueries : queries ≠ []) {s s' : Keystream}
    {lists : List (List NodeId)} : answer count population queries draws s = (.ok lists, s')
      ↔ (population ≠ [] ∧ fits count 8 = true)
        ∧ ∃ draw, draws = .ok draw ∧ mapDraws draw queries s = (lists, s') := by
  have hwanted : ¬ (count = 0 ∨ queries = []) := not_or.2 ⟨Nat.ne_of_gt hcount, hqueries⟩
  unfold answer
  rw [if_neg hwanted]
  by_cases hpopulation : population = []
  · simp [hpopulation]
  · by_cases hfits : fits count 8 = true
    · cases draws <;> simp [hpopulation, hfits, Prod.ext_iff]
    · cases draws <;> simp [hpopulation, hfits]

/-- Either a sampler draws for whatever queries it is given, or it refuses all requests with queries. -/
theorem draws_or_refuses (count : Nat) (population : List NodeId)
    (draws : Except Abort (NodeId → Keystream → List NodeId × Keystream)) :
    (∃ draw, ∀ queries s, answer count population queries draws s
        = (.ok (mapDraws draw queries s).1, (mapDraws draw queries s).2))
    ∨ ∀ queries ≠ [], ∀ s s' lists, answer count population queries draws s ≠ (.ok lists, s') := by
  rcases Nat.eq_zero_or_pos count with hzero | hpos
  · -- lists of no negatives, drawn without a draw
    refine .inl ⟨fun _ s => ([], s), fun queries s => ?_⟩
    rw [answer_of_idle (.inl hzero), mapDraws_of_still (g := fun _ => []) fun _ _ => rfl]
  · by_cases hready : (population ≠ [] ∧ fits count 8 = true) ∧ ∃ draw, draws = .ok draw
    · obtain ⟨hready, draw, hdraws⟩ := hready
      refine .inl ⟨draw, fun queries s => ?_⟩
      by_cases hqueries : queries = []
      · subst hqueries
        exact answer_of_idle (.inr rfl) s
      · exact (answer_of_wanted hpos hqueries).2 ⟨hready, draw, hdraws, rfl⟩
    · refine .inr fun queries hqueries s s' lists hok => hready ?_
      obtain ⟨hable, draw, hdraws, -⟩ := (answer_of_wanted hpos hqueries).1 hok
      exact ⟨hable, draw, hdraws⟩

theorem splits_answer (count : Nat) (population : List NodeId)
    (draws : Except Abort (NodeId → Keystream → List NodeId × Keystream)) :
    Query.Splits fun queries => answer count population queries draws := by
  rcases draws_or_refuses count population draws with ⟨draw, hdraw⟩ | hrefused
  · rw [funext fun queries => funext (hdraw queries)]
    exact Query.splits_mapDraws draw
  · exact Query.splits_of_refused (answer_of_idle (.inr rfl))
      fun query queries => hrefused (query :: queries) (List.cons_ne_nil _ _)

namespace UniformSampler

theorem continues (population : List NodeId) : Query.Continues fun count queries =>
    (NegativeSampler.negatives count population queries : Query UniformSampler _) := by
  refine .of_splits (fun count => ?_) fun count queries hidle u => ?_
  · exact .of_part stream (fun u s => { u with stream := s })
      (fun queries u => negatives_eq u count population queries) (fun _ _ => rfl) (fun _ _ => rfl)
      (fun _ _ _ => rfl) fun u => splits_answer count population _
  · rw [negatives_eq, answer_of_idle hidle]

end UniformSampler

namespace FrequencySampler

/-- What the negatives are drawn by, unless the total of the weights is not finite. -/
def drawsBy (power : Float → Float → Float) (count : Nat) (population : List NodeId)
    (f : FrequencySampler) : Except Abort (NodeId → Keystream → List NodeId × Keystream) :=
  let counts := distinctCounts population
  let ws := weightsBy power f.temperature counts
  let all := WeightTable.ofWeights ws
  if all.total.isFinite then .ok (draw count (counts.map (·.1)).toArray ws all f.exclusion)
  else .error .weightTotal

theorem negativesBy_apply (power : Float → Float → Float) (count : Nat) (population queries : List NodeId)
    (f : FrequencySampler) :
    negativesBy power count population queries f
      = let r := answer count population queries (drawsBy power count population f) f.stream
        (r.1, { f with stream := r.2 }) := rfl

theorem continues (power : Float → Float → Float) (population : List NodeId) :
    Query.Continues fun count queries => negativesBy power count population queries := by
  refine .of_splits (fun count => ?_) fun count queries hidle f => ?_
  · exact .of_part stream (fun f s => { f with stream := s })
      (negativesBy_apply power count population) (fun _ _ => rfl) (fun _ _ => rfl)
      (fun _ _ _ => rfl) fun f => splits_answer count population _
  · rw [negativesBy_apply, answer_of_idle hidle]

end FrequencySampler

end Samplers

/-! ## Graphs -/

namespace Graph

theorem positions_zero (length : Nat) (s : Keystream) : positions length 0 s = ([], s) := rfl

theorem sample_zero (g : Graph) (node : NodeId) (s : Keystream) : g.sample 0 node s = ([], s) := by
  unfold sample
  by_cases hnone : (g.adjacent node).size ≤ 0
  · rw [if_pos hnone, Array.toList_eq_nil_iff.2 (Array.eq_empty_of_size_eq_zero (Nat.le_zero.1 hnone))]
  · rw [if_neg hnone, positions_zero]
    rfl

theorem continues : Query.Continues fun count nodes =>
    (GraphClient.sampleNeighbors nodes count : Query Graph _) := by
  refine .of_splits (fun count => ?_) fun count nodes hidle g => ?_
  · exact .of_part stream (fun g s => { g with stream := s })
      (fun nodes g => sampleNeighbors_eq g nodes count) (fun _ _ => rfl) (fun _ _ => rfl)
      (fun _ _ _ => rfl) fun g => Query.splits_mapDraws (g.sample count)
  · have hstill : ∀ node ∈ nodes, g.sample count node g.stream = ([], g.stream) := by
      intro node hnode
      rw [hidle.resolve_right (List.ne_nil_of_mem hnode), sample_zero]
    rw [sampleNeighbors_eq, mapDraws_of_still hstill]

end Graph

/-- Whatever the population, the requests of either sampler go on where the last one stopped, and so do those
for the neighbors in a graph held in memory: a request that is cut into parts gives the answers of the parts
and leaves the random stream where they leave it, and a request for nothing does not move the stream. -/
theorem requests_continue :
    (∀ population, Query.Continues fun count queries =>
      (NegativeSampler.negatives count population queries : Query UniformSampler _))
    ∧ (∀ population, Query.Continues fun count queries =>
      (NegativeSampler.negatives count population queries : Query FrequencySampler _))
    ∧ Query.Continues fun count nodes => (GraphClient.sampleNeighbors nodes count : Query Graph _) :=
  ⟨UniformSampler.continues, FrequencySampler.continues Float.pow, Graph.continues⟩

/-- Three queries cut after the first, one of them no member of the population, and a request for nothing. -/
theorem requests_continue_threeQueries :
    (∃ first u second u', NegativeSampler.negatives 2 [10, 11, 12] [11] ({} : UniformSampler) = (.ok first, u)
      ∧ NegativeSampler.negatives 2 [10, 11, 12] [99, 12] u = (.ok second, u')
      ∧ NegativeSampler.negatives 2 [10, 11, 12] [11, 99, 12] ({} : UniformSampler)
        = (.ok (first ++ second), u'))
    ∧ NegativeSampler.negatives 0 [] [11] ({} : UniformSampler) = (.ok [[]], {}) := by
  have huniform := requests_continue.1
  have hserved : ∃ lists u', NegativeSampler.negatives 2 [10, 11, 12] [11, 99, 12] ({} : UniformSampler)
        = (.ok lists, u') ∧ List.Forall₂ (fun (_ : NodeId) _ => True) [11, 99, 12] lists :=
    UniformSampler.exists_negatives (by decide) (by simp) (fun _ _ => trivial) fun _ _ _ => trivial
  obtain ⟨lists, u', hall, -⟩ := hserved
  obtain ⟨first, u, second, hfirst, hsecond, rfl⟩ :=
    ((huniform [10, 11, 12]).splits 2 [11] [99, 12] _ _ _).1 hall
  exact ⟨⟨first, u, second, u', hfirst, hsecond, hall⟩, (huniform []).idle 0 [11] (.inl rfl) _⟩

end BipartiteBatch
