import BipartiteBatch.Negative.Settings
import BipartiteBatch.Proofs.Answers
import BipartiteBatch.Proofs.Calls

/-!
# Calls that end everything

Over a graph that answers, the work of a call has two places where it can end everything: the buffer for
the records, which is laid out before any line is read, and the draw of the negatives. All other steps give
a value or an error, as long as there is room for what is made of the nodes of the batch and of what the
graph finds for them. That is not part of the steps, and it is a condition where calls are said to give one
of the two.

* `Query.Aborts`, `Query.Safe` : questions that end everything, and questions that never do;
* `LineReader.next_aborts` : the buffer for the records has no room;
* `Sampler.negatives_aborts` : the weights sum to no finite total, or the buffer for the negatives has no
  room;
* `Assembly.trainOn_aborts`, `Assembly.safe_predictFor` : the work on the records;
* `Reader.AbortCause` : what ends everything in a call, `Reader.HasRoom` : there is room for the rest;
* `Reader.fill_aborts_iff` : a call gives an answer or an error, or there is a cause.
-/

namespace BipartiteBatch

/-! ## Questions -/

namespace Query

variable {σ α β : Type} {q : Query σ α} {f : α → Query σ β} {s : σ} {e : Abort}

/-- The question ends everything. -/
def Aborts (q : Query σ α) (s : σ) (e : Abort) : Prop := (q s).1 = .error (.abort e)

def Safe (q : Query σ α) : Prop := ∀ s e, ¬ q.Aborts s e

theorem aborts_iff_exists : q.Aborts s e ↔ ∃ s', q s = (.error (.abort e), s') := by
  constructor
  · intro h
    exact ⟨(q s).2, Prod.ext h rfl⟩
  · rintro ⟨s', h⟩
    rw [Aborts, h]

theorem Safe.of_ok (h : ∀ s, ∃ a s', q s = (.ok a, s')) : q.Safe := by
  intro s e hq
  obtain ⟨a, s', hok⟩ := h s
  rw [Aborts, hok] at hq
  cases hq

theorem safe_pure (a : α) : (pure a : Query σ α).Safe := .of_ok fun s => ⟨a, s, rfl⟩

theorem safe_lift (r : Except BatchError α) : (lift (r.mapError .error) : Query σ α).Safe := by
  intro s e h
  cases r with
  | error error => cases h
  | ok a => cases h

theorem bind_aborts : (q >>= f).Aborts s e
    ↔ q.Aborts s e ∨ ∃ a s', q s = (.ok a, s') ∧ (f a).Aborts s' e := by
  rw [aborts_iff_exists, aborts_iff_exists]
  simp only [bind_eq_error]
  constructor
  · rintro ⟨s', h | ⟨a, t, hq, h⟩⟩
    · exact .inl ⟨s', h⟩
    · exact .inr ⟨a, t, hq, aborts_iff_exists.2 ⟨s', h⟩⟩
  · rintro (⟨s', h⟩ | ⟨a, t, hq, h⟩)
    · exact ⟨s', .inl h⟩
    · obtain ⟨s', h⟩ := aborts_iff_exists.1 h
      exact ⟨s', .inr ⟨a, t, hq, h⟩⟩

/-- If nothing after it can, only the first question ends everything. -/
theorem bind_aborts_of_safe (hf : ∀ a, (f a).Safe) : (q >>= f).Aborts s e ↔ q.Aborts s e := by
  rw [bind_aborts]
  refine or_iff_left ?_
  rintro ⟨a, s', -, h⟩
  exact hf a s' e h

theorem Safe.bind (hq : q.Safe) (hf : ∀ a, (f a).Safe) : (q >>= f).Safe :=
  fun s e h => hq s e ((bind_aborts_of_safe hf).1 h)

theorem focus_aborts {τ : Type} {get : τ → σ} {set : τ → σ → τ} {t : τ} :
    (focus get set q).Aborts t e ↔ q.Aborts (get t) e := Iff.rfl

end Query

/-! ## The input -/

namespace LineReader

variable {ρ : Type} [Record ρ] {count : Nat} {r : LineReader} {e : Abort}

omit [Record ρ] in
theorem Step.outcome_ne_abort (step : Step ρ) : step.outcome ≠ .error (.abort e) := by
  obtain ⟨_ | _ | ⟨x, records⟩, r, events⟩ := step
  · exact nofun
  · exact nofun
  · exact nofun

/-- Reading ends everything if there is no room for as many records as are wanted, whatever the input. -/
theorem next_aborts :
    (next ρ count r).1 = .error (.abort e) ↔ ¬ fits count (Record.width ρ) ∧ e = .capacity count := by
  by_cases h : fits count (Record.width ρ)
  · rw [next_of_fits h]
    exact iff_of_false (Step.outcome_ne_abort _) fun hnot => hnot.1 h
  · rw [next_of_not_fits h, and_iff_right h, Except.error.injEq, Failure.abort.injEq]
    exact eq_comm

end LineReader

/-! ## The sampler -/

/-- What all samplers have in common ends everything if something is to be drawn, and either no draw can be
made or its buffer has no room. -/
theorem answer_aborts {count : Nat} {population queries : List NodeId}
    {draw : Except Abort (NodeId → Draw.Keystream → List NodeId × Draw.Keystream)}
    {s : Draw.Keystream} {e : Abort} :
    (answer count population queries draw).Aborts s e
      ↔ (count ≠ 0 ∧ queries ≠ [] ∧ population ≠ [])
        ∧ (draw = .error e ∨ (∃ d, draw = .ok d) ∧ ¬ fits count 8 ∧ e = .capacity count) := by
  unfold Query.Aborts answer
  by_cases hnone : count = 0 ∨ queries = []
  · rw [if_pos hnone]
    refine iff_of_false nofun fun h => ?_
    exact hnone.elim h.1.1 h.1.2.1
  · rw [if_neg hnone]
    obtain ⟨hcount, hqueries⟩ := not_or.1 hnone
    by_cases hpopulation : population = []
    · rw [if_pos hpopulation]
      exact iff_of_false nofun fun h => h.1.2.2 hpopulation
    · rw [if_neg hpopulation, and_iff_right ⟨hcount, hqueries, hpopulation⟩]
      cases draw with
      | error e' => simp
      | ok d =>
        by_cases hfits : fits count 8
        · simp [hfits]
        · simp [hfits, eq_comm]

/-- The weights that the sampler gives to the distinct nodes have a finite total, if it weighs them. -/
def Sampler.WeighsFinitely (population : List NodeId) : Sampler → Prop
  | .uniform _ => True
  | .frequency f => (WeightTable.ofWeights
      (FrequencySampler.weights f.temperature (distinctCounts population))).total.isFinite = true

/-- Drawing from the queries ends everything if something is to be drawn, and either the weights have no
finite total or the buffer has no room. -/
theorem Sampler.negatives_aborts {count : Nat} {nodes : List NodeId} {s : Sampler} {e : Abort} :
    (NegativeSampler.negatives count nodes nodes).Aborts s e
      ↔ (count ≠ 0 ∧ nodes ≠ [])
        ∧ (¬ s.WeighsFinitely nodes ∧ e = .weightTotal
          ∨ s.WeighsFinitely nodes ∧ ¬ fits count 8 ∧ e = .capacity count) := by
  cases s with
  | uniform u =>
    refine answer_aborts.trans ?_
    simp [WeighsFinitely]
  | frequency f =>
    refine answer_aborts.trans ?_
    by_cases hfinite : (WeightTable.ofWeights
      (FrequencySampler.weightsBy Float.pow f.temperature (distinctCounts nodes))).total.isFinite = true
    · simp [WeighsFinitely, FrequencySampler.weights, hfinite]
    · have hnot : ¬ (Sampler.frequency f).WeighsFinitely nodes := hfinite
      rw [if_neg hfinite, Except.error.injEq, eq_comm]
      simp only [hnot, not_false_eq_true, true_and, false_and, or_false, reduceCtorEq, exists_false,
        ne_eq, and_self]

/-! ## The work on the records -/

namespace Assembly

open Query

variable {γ σ : Type} {a : Assembly γ σ} {e : Abort}

theorem get_bind_aborts {α : Type} {f : Assembly γ σ → Assembling γ σ α} :
    (get >>= f).Aborts a e ↔ (f a).Aborts a e := Iff.rfl

theorem safe_result {α : Type} (r : Except BatchError α) : (result r : Assembling γ σ α).Safe :=
  safe_lift r

theorem safe_partition (nodes : List NodeId) : (partition nodes : Assembling γ σ Partition).Safe :=
  .of_ok fun _ => ⟨_, _, partition_eq_ok.2 ⟨rfl, rfl⟩⟩

theorem safe_modifyInstance (f : Instance → Instance) :
    (modifyInstance f : Assembling γ σ Unit).Safe :=
  .of_ok fun _ => ⟨(), _, modifyInstance_eq_ok.2 rfl⟩

theorem safe_countBatch (records rows invalid : Nat) :
    (countBatch records rows invalid : Assembling γ σ Unit).Safe :=
  .of_ok fun _ => ⟨(), _, countBatch_eq_ok.2 rfl⟩

theorem safe_noteSelfNegatives (count total : Nat) :
    (noteSelfNegatives count total : Assembling γ σ Unit).Safe :=
  .of_ok fun _ => ⟨(), _, noteSelfNegatives_eq_ok.2 rfl⟩

/-- Drawing negatives ends everything if the sampler does; what it gives is only checked and noted. -/
theorem drawNegatives_aborts [NegativeSampler σ] {dsts : List NodeId} :
    (drawNegatives dsts).Aborts a e
      ↔ (NegativeSampler.negatives a.reader.config.numNeg.toNat dsts dsts).Aborts a.sampler e := by
  rw [Aborts, drawNegatives_eq]
  refine (bind_aborts_of_safe fun lists => ?_).trans focus_aborts
  exact (safe_result _).bind fun count => (safe_noteSelfNegatives _ _).bind fun _ => safe_pure _

section Answering
variable [GraphClient γ] [GraphClient.Answering γ]

theorem safe_fillEncoder (group : Group) (nodes : List NodeId) :
    (fillEncoder group nodes : Assembling γ σ Indexing).Safe := by
  refine .of_ok fun a => ?_
  obtain ⟨found, graph, hfound⟩ := Findings.exists_found a.reader.config nodes a.graph
  exact ⟨_, _, fillEncoder_eq_ok.2 ⟨found, graph, hfound, rfl, rfl⟩⟩

theorem safe_fillEncoders (p : Partition) : (fillEncoders p : Assembling γ σ FlatIndex).Safe :=
  (safe_fillEncoder _ _).bind fun _ => (safe_fillEncoder _ _).bind fun _ =>
    .of_ok fun _ => ⟨_, _, rfl⟩

/-- Edges end everything only in the draw of their negatives. -/
theorem trainOn_aborts [NegativeSampler σ] {records : List EdgeRecord} :
    (trainOn records).Aborts a e
      ↔ (NegativeSampler.negatives a.reader.config.numNeg.toNat (records.map EdgeRecord.dst)
          (records.map EdgeRecord.dst)).Aborts a.sampler e := by
  refine get_bind_aborts.trans ((bind_aborts_of_safe fun lists => ?_).trans drawNegatives_aborts)
  refine (safe_partition _).bind fun p => (safe_fillEncoders p).bind fun flat => ?_
  exact (safe_result _).bind fun rows => (safe_modifyInstance _).bind fun _ => safe_countBatch _ _ _

theorem safe_predictFor (records : List NodeRecord) :
    (predictFor records : Assembling γ σ Unit).Safe := by
  refine Safe.bind (.of_ok fun a => ⟨a, a, rfl⟩) fun a => ?_
  refine (safe_partition _).bind fun p => (safe_fillEncoders p).bind fun flat => ?_
  exact (safe_result _).bind fun block => (safe_modifyInstance _).bind fun _ => safe_countBatch _ _ _

end Answering

theorem nextBatch_aborts {ρ : Type} [Record ρ] {make : List ρ → Assembling γ σ Unit} :
    (nextBatch ρ make).Aborts a e
      ↔ (¬ fits a.reader.config.batch.toNat (Record.width ρ) ∧ e = .capacity a.reader.config.batch.toNat)
        ∨ ∃ records input events,
          a.reader.input.next ρ a.reader.config.batch.toNat = (.ok (some records), input, events)
            ∧ (make records).Aborts (a.withInput input events) e := by
  rw [← LineReader.next_aborts (r := a.reader.input), aborts_iff_exists]
  simp only [nextBatch_eq_error, aborts_iff_exists]
  constructor
  · rintro ⟨a', ⟨input, events, hnext, rfl⟩ | ⟨records, input, events, hnext, hmake⟩⟩
    · exact .inl (congrArg Prod.fst hnext)
    · exact .inr ⟨records, input, events, hnext, a', hmake⟩
  · rintro (hnext | ⟨records, input, events, hnext, a', hmake⟩)
    · exact ⟨_, .inl ⟨_, _, Prod.ext hnext rfl, rfl⟩⟩
    · exact ⟨a', .inr ⟨records, input, events, hnext, hmake⟩⟩

end Assembly

/-! ## Calls -/

namespace Reader

open Assembly

variable {a : Assembly Graph Sampler} {e : Abort}

/-- What ends everything in a call. None of it depends on the graph, the slots or the earlier calls. -/
inductive AbortCause (a : Assembly Graph Sampler) : Abort → Prop
  /-- No room for the edges of a batch. -/
  | edges (train : a.reader.config.isTrain = true) (room : ¬ fits a.reader.config.batch.toNat 16) :
    AbortCause a (.capacity a.reader.config.batch.toNat)
  /-- No room for the nodes of a batch. -/
  | nodes (predict : a.reader.config.isTrain = false) (room : ¬ fits a.reader.config.batch.toNat 8) :
    AbortCause a (.capacity a.reader.config.batch.toNat)
  /-- The weights of the destinations have no finite total. -/
  | weights {records : List EdgeRecord} {input : LineReader} {events : List Event}
    (train : a.reader.config.isTrain = true)
    (next : a.reader.input.next EdgeRecord a.reader.config.batch.toNat
      = (.ok (some records), input, events))
    (wanted : a.reader.config.numNeg.toNat ≠ 0)
    (total : ¬ a.sampler.WeighsFinitely (records.map EdgeRecord.dst)) : AbortCause a .weightTotal
  /-- No room for the negatives of an edge. -/
  | negatives {records : List EdgeRecord} {input : LineReader} {events : List Event}
    (train : a.reader.config.isTrain = true)
    (next : a.reader.input.next EdgeRecord a.reader.config.batch.toNat
      = (.ok (some records), input, events))
    (total : a.sampler.WeighsFinitely (records.map EdgeRecord.dst))
    (room : ¬ fits a.reader.config.numNeg.toNat 8) :
    AbortCause a (.capacity a.reader.config.numNeg.toNat)

/-- The edges and the features of the graph, and the hops: what a call can find besides the nodes of its
batch. -/
def extent (a : Assembly Graph Sampler) : Nat :=
  a.graph.featureRows.fold (fun n _ row => n + row.length) a.graph.numEdges
    + a.reader.config.numNeighbors.length

/-- There is room for what a call makes of the nodes of its batch and of what the graph finds for them. A list,
a set, a map, a block or a column of the rows takes less than 256 bytes for each of these, so that a count
that fits at this width fits for all of them. If there is no room for the negatives of one edge, nothing is
made of the others. -/
structure HasRoom (a : Assembly Graph Sampler) : Prop where
  train : a.reader.config.isTrain = true → fits a.reader.config.numNeg.toNat 8 →
    ∀ (records : List EdgeRecord) (input : LineReader) (events : List Event),
      a.reader.input.next EdgeRecord a.reader.config.batch.toNat = (.ok (some records), input, events) →
      fits (records.length * (2 + a.reader.config.numNeg.toNat) + extent a) 256
  predict : a.reader.config.isTrain = false →
    ∀ (records : List NodeRecord) (input : LineReader) (events : List Event),
      a.reader.input.next NodeRecord a.reader.config.batch.toNat = (.ok (some records), input, events) →
      fits (records.length + extent a) 256

theorem ne_zero_of_not_fits {count width : Nat} (h : ¬ fits count width) : count ≠ 0 := by
  rintro rfl
  exact h (by simp [fits])

theorem dsts_ne_nil {count : Nat} {r input : LineReader} {events : List Event}
    {records : List EdgeRecord} (h : r.next EdgeRecord count = (.ok (some records), input, events)) :
    records.map EdgeRecord.dst ≠ [] := by
  obtain ⟨_, -, hsome, -⟩ := LineReader.next_reads h
  exact fun hnil => (hsome records rfl).2 (List.map_eq_nil_iff.1 hnil)

theorem nextBatch_trainOn_aborts (htrain : a.reader.config.isTrain = true) :
    (nextBatch EdgeRecord trainOn).Aborts a.cleared e ↔ AbortCause a e := by
  rw [nextBatch_aborts]
  simp only [trainOn_aborts, Sampler.negatives_aborts]
  constructor
  · rintro (⟨room, rfl⟩ | ⟨records, input, events, next, ⟨wanted, -⟩,
      ⟨total, rfl⟩ | ⟨total, room, rfl⟩⟩)
    · exact .edges htrain room
    · exact .weights htrain next wanted total
    · exact .negatives htrain next total room
  · intro h
    cases h with
    | edges _ room => exact .inl ⟨room, rfl⟩
    | nodes predict _ =>
      rw [htrain] at predict
      cases predict
    | weights _ next wanted total =>
      exact .inr ⟨_, _, _, next, ⟨wanted, dsts_ne_nil next⟩, .inl ⟨total, rfl⟩⟩
    | negatives _ next total room =>
      exact .inr ⟨_, _, _, next, ⟨ne_zero_of_not_fits room, dsts_ne_nil next⟩, .inr ⟨total, room, rfl⟩⟩

theorem nextBatch_predictFor_aborts (hpredict : a.reader.config.isTrain = false) :
    (nextBatch NodeRecord predictFor).Aborts a.cleared e ↔ AbortCause a e := by
  rw [nextBatch_aborts]
  constructor
  · rintro (⟨room, rfl⟩ | ⟨records, input, events, -, hmake⟩)
    · exact .nodes hpredict room
    · exact absurd hmake (safe_predictFor records _ _)
  · intro h
    have hnot : ∀ {p : Prop}, a.reader.config.isTrain = true → p := by
      intro p htrain
      rw [hpredict] at htrain
      cases htrain
    cases h with
    | edges train _ => exact hnot train
    | nodes _ room => exact .inl ⟨room, rfl⟩
    | weights train _ _ _ => exact hnot train
    | negatives train _ _ _ => exact hnot train

theorem fill_eq_abort :
    (∃ a', Reader.fill a = (.error (.abort e), a')) ↔ (nextOf a.reader.config.mode).Aborts a.cleared e := by
  simp only [fill_eq_error, Query.aborts_iff_exists]
  constructor
  · rintro ⟨-, t, ht, rfl⟩
    exact ⟨t, ht⟩
  · rintro ⟨t, ht⟩
    exact ⟨_, t, ht, rfl⟩

/-- The steps of a call end everything for no other reason. -/
theorem fill_aborts_iff_cause :
    (∃ a', Reader.fill a = (.error (.abort e), a')) ↔ AbortCause a e := by
  rw [fill_eq_abort]
  cases hmode : a.reader.config.isTrain with
  | true => rw [← nextBatch_trainOn_aborts hmode, Query.Aborts, nextOf_train hmode, Query.Aborts]
  | false => rw [← nextBatch_predictFor_aborts hmode, Query.Aborts, nextOf_predict hmode, Query.Aborts]

theorem fits_of_le {count count' width width' : Nat} (h : fits count width)
    (hle : count' * width' ≤ count * width) : fits count' width' := by
  unfold fits at h ⊢
  exact decide_eq_true (Nat.lt_of_le_of_lt hle (of_decide_eq_true h))

theorem fits_numNeg_of_fill {a' : Assembly Graph Sampler} (htrain : a.reader.config.isTrain = true)
    (hfill : Reader.fill a = (.ok true, a')) : fits a.reader.config.numNeg.toNat 8 := by
  by_contra hroom
  obtain ⟨records, input, events, -, -, -, -, hnext, -⟩ := (fill_train htrain).1 hfill
  obtain ⟨e, hcause⟩ : ∃ e, AbortCause a e := by
    by_cases htotal : a.sampler.WeighsFinitely (records.map EdgeRecord.dst)
    · exact ⟨_, .negatives htrain hnext htotal hroom⟩
    · exact ⟨_, .weights htrain hnext (ne_zero_of_not_fits hroom) htotal⟩
  obtain ⟨t, habort⟩ := fill_aborts_iff_cause.2 hcause
  rw [hfill] at habort
  cases (Prod.mk.inj habort).1

/-- The rows of a batch are no more than its nodes, so there is room for their columns. -/
theorem HasRoom.rows (h : HasRoom a) (htrain : a.reader.config.isTrain = true)
    {a' : Assembly Graph Sampler} (hfill : Reader.fill a = (.ok true, a')) :
    ∃ labels, a'.inst.labels? a.reader.slots.label = some labels ∧ fits labels.length 8 := by
  obtain ⟨records, input, events, lists, users, items, rows, hnext, hmade⟩ :=
    (fill_train htrain).1 hfill
  have hroom := h.train htrain (fits_numNeg_of_fill htrain hfill) records input events hnext
  have hrows : rows.length = records.length * (1 + a.reader.config.numNeg.toNat) := hmade.length_rows
  refine ⟨_, Instance.labels?_of_get? hmade.get?_label, fits_of_le hroom ?_⟩
  have hnodes : rows.length ≤ records.length * (2 + a.reader.config.numNeg.toNat) := by
    rw [hrows]
    exact Nat.mul_le_mul_left _ (by omega)
  rw [List.length_map]
  exact Nat.mul_le_mul (Nat.le_add_right_of_le hnodes) (by decide)

/-- A call over a graph held in memory, with a sampler of either strategy, ends everything if there is one of
these causes. Where there is room for all that it makes, the columns of the rows among this, it gives an
answer or an error if there is none of them. -/
theorem fill_aborts_iff (a : Assembly Graph Sampler) :
    (∀ e, AbortCause a e → ∃ a', Reader.fill a = (.error (.abort e), a'))
    ∧ (HasRoom a →
      (∀ e a', Reader.fill a = (.error (.abort e), a') → AbortCause a e)
      ∧ (a.reader.config.isTrain = true → ∀ a', Reader.fill a = (.ok true, a') →
        ∃ labels, a'.inst.labels? a.reader.slots.label = some labels ∧ fits labels.length 8)) :=
  ⟨fun _ hcause => fill_aborts_iff_cause.2 hcause, fun hroom =>
    ⟨fun _ a' habort => fill_aborts_iff_cause.1 ⟨a', habort⟩,
      fun htrain _ hfill => hroom.rows htrain hfill⟩⟩

/-- A reader with the default options and the default sampler, before two edges of one user. -/
def pairOfEdges : Assembly Graph Sampler where
  reader :=
    { config := {}
      slots := {}
      input := .ofLines [.ok "1 281474976710657", .ok "1 281474976710658"] }
  graph := .empty
  sampler := SamplingSettings.build {}
  inst := .empty

theorem fill_aborts_iff_pairOfEdges : HasRoom pairOfEdges
    ∧ ∀ e a', Reader.fill pairOfEdges ≠ (.error (.abort e), a') := by
  have hnext : pairOfEdges.reader.input.next EdgeRecord pairOfEdges.reader.config.batch.toNat
      = (.ok (some [⟨1, 281474976710657⟩, ⟨1, 281474976710658⟩]), ⟨none, 2, 0⟩, [.inputClosed 2 0]) := rfl
  have hroom : HasRoom pairOfEdges := by
    refine ⟨fun _ _ records _ _ htaken => ?_, nofun⟩
    have hrecords := congrArg Prod.fst (hnext.symm.trans htaken)
    obtain rfl := Option.some.inj (Except.ok.inj hrecords)
    have hextent : extent pairOfEdges = 0 := by
      simp [extent, pairOfEdges, Graph.empty, Std.HashMap.fold_eq_foldl_toList]
    rw [hextent]
    decide
  refine ⟨hroom, fun e a' habort => ?_⟩
  cases ((fill_aborts_iff pairOfEdges).2 hroom).1 e a' habort with
  | edges _ room => exact room (by decide)
  | nodes predict _ => cases predict
  | weights _ _ _ total => exact total trivial
  | negatives _ _ _ room => exact room (by decide)

/-- A reader of edges in batches of more records than any buffer has room for, before an empty input. -/
def vastBatches : Assembly Graph Sampler where
  reader :=
    { config := { batch := 18446744073709551615 }
      slots := {}
      input := .ofBytes "".toByteArray }
  graph := .empty
  sampler := SamplingSettings.build {}
  inst := .empty

/-- The check of a configuration sets no upper bound to a batch, so that a reader can be created whose
first call ends everything. -/
theorem fill_vastBatches :
    Reader.create vastBatches.reader.config {} (.ofBytes "".toByteArray)
        = .ok (vastBatches.reader, [.readerCreated vastBatches.reader.config])
      ∧ ∃ a', Reader.fill vastBatches = (.error (.abort (.capacity 18446744073709551615)), a') := by
  refine ⟨rfl, fill_eq_abort.2 ?_⟩
  exact nextBatch_aborts.2 (.inl ⟨by decide, rfl⟩)

end Reader

end BipartiteBatch
