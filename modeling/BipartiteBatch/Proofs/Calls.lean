import BipartiteBatch.Proofs.Batches
import BipartiteBatch.Proofs.Lines

/-!
# All calls of a reader

A call goes one of four ways: the input cannot be read, it is exhausted, its next records make a batch, or
they do not. Only the first step of a call changes the place in the input, and only two steps change the
totals: one notes the negatives that equal their destination, the other counts the batch, at the very end.

* `Assembly.Keeps`, `Assembly.FailsKeeping` : steps that leave a part of the state as it is, always or
  when they fail;
* `Assembly.trainOn_eq_error`, `Assembly.predictFor_eq_error` : records that do not make a batch;
* `Assembly.Called` : how a call goes, `Reader.called_train`, `Reader.called_predict` : calls do;
* `Reader.Moved` : a later place in the same input, `Reader.fill_moved` : where a call leads to;
* `Reader.Reachable` : the readers that calls lead to, `Reader.Reachable.moved` : where these are.
-/

namespace BipartiteBatch

/-! ## Steps that leave a part of the state as it is -/

namespace Assembly

variable {γ σ α β τ : Type} {view : Assembly γ σ → τ}

/-- The step leaves a part of the state as it is, whatever its outcome. -/
def Keeps (view : Assembly γ σ → τ) (q : Assembling γ σ α) : Prop := ∀ a, view (q a).2 = view a

/-- The step leaves a part of the state as it is when it fails. -/
def FailsKeeping (view : Assembly γ σ → τ) (q : Assembling γ σ α) : Prop :=
  ∀ {a a' : Assembly γ σ} {e : Failure}, q a = (.error e, a') → view a' = view a

section Sequences
variable {q : Assembling γ σ α} {f : α → Assembling γ σ β}

theorem Keeps.eq (hq : Keeps view q) {a a' : Assembly γ σ} {r : Except Failure α}
    (h : q a = (r, a')) : view a' = view a := by
  rw [← hq a, h]

theorem keeps_pure (x : α) : Keeps view (pure x : Assembling γ σ α) := fun _ => rfl

theorem keeps_get : Keeps view (get : Assembling γ σ (Assembly γ σ)) := fun _ => rfl

theorem keeps_result (r : Except BatchError α) : Keeps view (result r) := fun _ => rfl

theorem Keeps.bind (hq : Keeps view q) (hf : ∀ x, Keeps view (f x)) : Keeps view (q >>= f) := by
  intro a
  rw [Query.bind_apply]
  match h : q a with
  | (.ok x, t) => exact (hf x t).trans (hq.eq h)
  | (.error e, t) => exact hq.eq h

theorem FailsKeeping.bind (hq : Keeps view q) (hf : ∀ x, FailsKeeping view (f x)) :
    FailsKeeping view (q >>= f) := by
  intro a a' e h
  rcases Query.bind_eq_error.1 h with h | ⟨x, t, hx, h⟩
  · exact hq.eq h
  · exact (hf x h).trans (hq.eq hx)

theorem Keeps.comp {τ' : Type} (hq : Keeps view q) (part : τ → τ') :
    Keeps (fun a => part (view a)) q := fun a => congrArg part (hq a)

end Sequences

/-! ## The steps of a batch -/

/-- What a reader consists of besides its totals. -/
def place (a : Assembly γ σ) : Config × SlotNames × LineReader :=
  (a.reader.config, a.reader.slots, a.reader.input)

/-- The reader and the sampler, which the work between the draws and the count of a batch leaves alone. -/
def held (a : Assembly γ σ) : Reader × σ := (a.reader, a.sampler)

section Held
variable {q : Assembling γ σ α}

theorem Keeps.reader (hq : Keeps held q) : Keeps reader q := hq.comp Prod.fst

theorem Keeps.sampler (hq : Keeps held q) : Keeps sampler q := hq.comp Prod.snd

theorem Keeps.place (hq : Keeps Assembly.reader q) : Keeps place q :=
  hq.comp fun r => (r.config, r.slots, r.input)

end Held

theorem keeps_tell (events : List Event) :
    Keeps held (tell events : Assembling γ σ Unit) := fun _ => rfl

theorem keeps_modifyInstance (f : Instance → Instance) :
    Keeps held (modifyInstance f : Assembling γ σ Unit) := fun _ => rfl

theorem keeps_modifyStats (f : Stats → Stats) :
    Keeps place (modifyStats f : Assembling γ σ Unit) := fun _ => rfl

theorem keeps_askGraph (q : Query γ α) : Keeps held (askGraph q : Assembling γ σ α) := fun _ => rfl

theorem keeps_askSampler (q : Query σ α) : Keeps reader (askSampler q : Assembling γ σ α) :=
  fun _ => rfl

theorem keeps_fill (q : Query (Block.Filling γ) α) : Keeps held (fill q : Assembling γ σ α) :=
  fun _ => rfl

theorem keeps_partition (nodes : List NodeId) :
    Keeps held (partition nodes : Assembling γ σ Partition) :=
  keeps_get.bind fun _ => (keeps_tell _).bind fun _ => keeps_pure _

theorem keeps_countBatch (records rows invalid : Nat) :
    Keeps place (countBatch records rows invalid : Assembling γ σ Unit) :=
  (keeps_modifyInstance _).reader.place.bind fun _ => keeps_modifyStats _

theorem countBatch_keeps_sampler (records rows invalid : Nat) :
    Keeps sampler (countBatch records rows invalid : Assembling γ σ Unit) := fun _ => rfl

theorem countBatch_failsKeeping (records rows invalid : Nat) :
    FailsKeeping reader (countBatch records rows invalid : Assembling γ σ Unit) := by
  intro a a' e h
  cases (Prod.mk.inj h).1

section Encoders
variable [GraphClient γ]

theorem keeps_fillNeighbors (wanted : Bool) (slot : String) (nodes : List NodeId) :
    Keeps held (fillNeighbors wanted slot nodes : Assembling γ σ Unit) := by
  cases wanted with
  | true => exact keeps_fill (Block.fillNeighborFeature slot nodes)
  | false => exact keeps_pure ()

theorem keeps_fillEncoder (group : Group) (nodes : List NodeId) :
    Keeps held (fillEncoder group nodes : Assembling γ σ Indexing) := by
  intro a
  rw [fillEncoder_eq]
  refine (Keeps.bind (keeps_askGraph _) fun sub => ?_) a
  refine (keeps_fill _).bind fun _ => (keeps_fillNeighbors _ _ _).bind fun _ => ?_
  exact (keeps_result _).bind fun _ => (keeps_modifyInstance _).bind fun _ => keeps_pure _

theorem keeps_fillEncoders (p : Partition) :
    Keeps held (fillEncoders p : Assembling γ σ FlatIndex) :=
  (keeps_fillEncoder _ _).bind fun _ => (keeps_fillEncoder _ _).bind fun _ =>
    keeps_get.bind fun _ => keeps_pure _

end Encoders

section Negatives
variable [NegativeSampler σ]

omit [NegativeSampler σ] in
theorem keeps_noteSelfNegatives (count total : Nat) :
    Keeps place (noteSelfNegatives count total : Assembling γ σ Unit) := by
  unfold noteSelfNegatives
  by_cases hcount : 0 < count
  · simp only [if_pos hcount]
    exact (keeps_tell _).reader.place.bind fun _ => keeps_modifyStats _
  · simp only [if_neg hcount]
    exact keeps_modifyStats _

omit [NegativeSampler σ] in
theorem noteSelfNegatives_keeps_sampler (count total : Nat) :
    Keeps sampler (noteSelfNegatives count total : Assembling γ σ Unit) := by
  unfold noteSelfNegatives
  by_cases hcount : 0 < count
  · simp only [if_pos hcount]
    exact (keeps_tell _).sampler.bind fun _ => fun _ => rfl
  · simp only [if_neg hcount]
    exact fun _ => rfl

theorem keeps_drawNegatives (dsts : List NodeId) :
    Keeps place (drawNegatives dsts : Assembling γ σ (List (List NodeId))) := by
  intro a
  rw [drawNegatives_eq]
  refine (Keeps.bind (keeps_askSampler _).place fun lists => ?_) a
  exact (keeps_result _).bind fun _ => (keeps_noteSelfNegatives _ _).bind fun _ => keeps_pure _

theorem drawNegatives_keeps_part {part : σ → τ} (hpart : ∀ (count : Nat) (nodes : List NodeId) (s : σ),
      part (NegativeSampler.negatives count nodes nodes s).2 = part s) (dsts : List NodeId) :
    Keeps (fun a => part a.sampler) (drawNegatives dsts : Assembling γ σ (List (List NodeId))) := by
  intro a
  rw [drawNegatives_eq]
  have hask : Keeps (fun a => part a.sampler) (askSampler (γ := γ)
      (NegativeSampler.negatives a.reader.config.numNeg.toNat dsts dsts)) :=
    fun b => hpart _ dsts b.sampler
  refine (hask.bind fun lists => ?_) a
  refine (keeps_result _).bind fun _ => ?_
  exact ((noteSelfNegatives_keeps_sampler _ _).comp part).bind fun _ => keeps_pure _

/-- Nothing is noted before the negatives are accepted. -/
theorem drawNegatives_failsKeeping (dsts : List NodeId) :
    FailsKeeping reader (drawNegatives dsts : Assembling γ σ (List (List NodeId))) := by
  intro a a' e h
  rw [drawNegatives_eq] at h
  refine FailsKeeping.bind (keeps_askSampler _) (fun lists => ?_) h
  refine FailsKeeping.bind (keeps_result _) fun count => ?_
  intro b b' e h
  rcases Query.bind_eq_error.1 h with h | ⟨_, _, -, h⟩
  · rw [noteSelfNegatives_eq_ok.2 rfl] at h
    cases (Prod.mk.inj h).1
  · cases (Prod.mk.inj h).1

end Negatives

/-! ## Records that do not make a batch -/

variable [GraphClient γ] {a a' : Assembly γ σ} {e : Failure}

/-- The sampler gives lists for destinations that are accepted. -/
structure Draws [NegativeSampler σ] (a : Assembly γ σ) (dsts : List NodeId)
    (lists : List (List NodeId)) : Prop where
  negatives : ∃ sampler, NegativeSampler.negatives a.reader.config.numNeg.toNat dsts dsts a.sampler
    = (.ok lists, sampler)
  length_lists : lists.length = dsts.length
  length_of_mem_lists : ∀ list ∈ lists, list.length = a.reader.config.numNeg.toNat

theorem Trained.draws [NegativeSampler σ] {records : List EdgeRecord} {lists : List (List NodeId)}
    {users items : Findings} {rows : List Block.EdgeRow}
    (h : Trained records a lists users items rows a') :
    Draws a (records.map EdgeRecord.dst) lists where
  negatives := ⟨a'.sampler, h.negatives⟩
  length_lists := by rw [h.length_lists, List.length_map]
  length_of_mem_lists := h.length_of_mem_lists

theorem keeps_trainOn [NegativeSampler σ] (records : List EdgeRecord) :
    Keeps place (trainOn records : Assembling γ σ Unit) :=
  keeps_get.bind fun _ => (keeps_drawNegatives _).bind fun _ => (keeps_partition _).reader.place.bind
    fun _ => (keeps_fillEncoders _).reader.place.bind fun _ => (keeps_result _).bind fun _ =>
      (keeps_modifyInstance _).reader.place.bind fun _ => keeps_countBatch _ _ _

theorem trainOn_keeps_part [NegativeSampler σ] {part : σ → τ}
    (hpart : ∀ (count : Nat) (nodes : List NodeId) (s : σ),
      part (NegativeSampler.negatives count nodes nodes s).2 = part s) (records : List EdgeRecord) :
    Keeps (fun a => part a.sampler) (trainOn records : Assembling γ σ Unit) :=
  keeps_get.bind fun _ => (drawNegatives_keeps_part hpart _).bind fun _ =>
    ((keeps_partition _).sampler.comp part).bind fun _ =>
      ((keeps_fillEncoders _).sampler.comp part).bind fun _ => (keeps_result _).bind fun _ =>
        ((keeps_modifyInstance _).sampler.comp part).bind fun _ =>
          (countBatch_keeps_sampler _ _ _).comp part

theorem keeps_predictFor (records : List NodeRecord) :
    Keeps place (predictFor records : Assembling γ σ Unit) :=
  keeps_get.bind fun _ => (keeps_partition _).reader.place.bind fun _ =>
    (keeps_fillEncoders _).reader.place.bind fun _ => (keeps_result _).bind fun _ =>
      (keeps_modifyInstance _).reader.place.bind fun _ => keeps_countBatch _ _ _

/-- Nodes are made into a batch without the sampler. -/
theorem predictFor_keeps_sampler (records : List NodeRecord) :
    Keeps sampler (predictFor records : Assembling γ σ Unit) :=
  keeps_get.bind fun _ => (keeps_partition _).sampler.bind fun _ =>
    (keeps_fillEncoders _).sampler.bind fun _ => (keeps_result _).bind fun _ =>
      (keeps_modifyInstance _).sampler.bind fun _ => countBatch_keeps_sampler _ _ _

/-- Edges that do not make a batch leave the reader as it is if no negatives are accepted for them.
Otherwise those negatives that equal their destination are counted all the same. -/
theorem trainOn_eq_error [NegativeSampler σ] {records : List EdgeRecord}
    (h : trainOn records a = (.error e, a')) :
    (∀ lists, ¬ Draws a (records.map EdgeRecord.dst) lists) ∧ a'.reader = a.reader
    ∨ ∃ lists, Draws a (records.map EdgeRecord.dst) lists
      ∧ a'.reader = { a.reader with
        stats := a.reader.stats.addSelfNegatives
          (Negatives.selfCount (records.map EdgeRecord.dst) lists) } := by
  unfold trainOn at h
  rw [get_bind] at h
  rcases Query.bind_eq_error.1 h with h | ⟨lists, t, hdraw, h⟩
  · refine .inl ⟨fun lists hdraws => ?_, drawNegatives_failsKeeping _ h⟩
    obtain ⟨sampler, hlists⟩ := hdraws.negatives
    have hdraw := drawNegatives_eq_ok.2
      ⟨sampler, hlists, hdraws.length_lists, hdraws.length_of_mem_lists, rfl⟩
    rw [hdraw] at h
    cases (Prod.mk.inj h).1
  · obtain ⟨sampler, hlists, hlength, hall, rfl⟩ := drawNegatives_eq_ok.1 hdraw
    refine .inr ⟨lists, ⟨⟨sampler, hlists⟩, hlength, hall⟩, ?_⟩
    refine (FailsKeeping.bind (keeps_partition _).reader fun p => ?_ : FailsKeeping reader _) h
    refine FailsKeeping.bind (keeps_fillEncoders _).reader fun flat => ?_
    refine FailsKeeping.bind (keeps_result _) fun rows => ?_
    exact FailsKeeping.bind (keeps_modifyInstance _).reader fun _ => countBatch_failsKeeping _ _ _

/-- Nodes that do not make a batch leave the reader as it is. -/
theorem predictFor_eq_error {records : List NodeRecord}
    (h : predictFor records a = (.error e, a')) : a'.reader = a.reader := by
  unfold predictFor at h
  refine (FailsKeeping.bind keeps_get fun b => ?_ : FailsKeeping reader _) h
  refine FailsKeeping.bind (keeps_partition _).reader fun p => ?_
  refine FailsKeeping.bind (keeps_fillEncoders _).reader fun flat => ?_
  refine FailsKeeping.bind (keeps_result _) fun block => ?_
  exact FailsKeeping.bind (keeps_modifyInstance _).reader fun _ => countBatch_failsKeeping _ _ _

/-! ## How a call goes -/

section Called
variable {ρ : Type} [Record ρ] {make : List ρ → Assembling γ σ Unit} {r : Except Failure Bool}

/-- How a call that makes records into a batch goes: its outcome, and what it leaves. -/
inductive Called (make : List ρ → Assembling γ σ Unit) (a : Assembly γ σ) :
    Except Failure Bool → Assembly γ σ → Prop
  | unread {e : Failure} {input : LineReader} {events : List Event}
      (next : a.reader.input.next ρ a.reader.config.batch.toNat = (.error e, input, events)) :
      Called make a (.error e) (a.cleared.withInput input events)
  | ended {input : LineReader} {events : List Event}
      (next : a.reader.input.next ρ a.reader.config.batch.toNat = (.ok none, input, events)) :
      Called make a (.ok false) (a.cleared.withInput input events).finished
  | made {records : List ρ} {input : LineReader} {events : List Event} {a' : Assembly γ σ}
      (next : a.reader.input.next ρ a.reader.config.batch.toNat = (.ok (some records), input, events))
      (done : make records (a.cleared.withInput input events) = (.ok (), a')) :
      Called make a (.ok true) a'
  | failed {records : List ρ} {input : LineReader} {events : List Event} {e : Failure}
      {a' : Assembly γ σ}
      (next : a.reader.input.next ρ a.reader.config.batch.toNat = (.ok (some records), input, events))
      (undone : make records (a.cleared.withInput input events) = (.error e, a')) :
      Called make a (.error e) a'.cleared

omit [GraphClient γ] in
theorem Called.place_eq (h : Called make a r a') (hbatch : 0 < a.reader.config.batch.toNat)
    (hmake : ∀ records, Keeps place (make records)) : ∃ taken input events,
      a.reader.input.next ρ a.reader.config.batch.toNat = (taken, input, events)
        ∧ a'.place = (a.reader.config, a.reader.slots, input) := by
  cases h with
  | unread next => exact ⟨_, _, _, next, rfl⟩
  | ended next =>
    refine ⟨_, _, _, next, ?_⟩
    -- the input is closed already, so that closing it changes nothing
    obtain ⟨read, -, -, hnone⟩ := LineReader.next_reads next
    have hclosed := LineReader.close_of_closed ((hnone rfl).2 hbatch)
    show (_, _, (LineReader.close _).1) = _
    rw [show (a.cleared.withInput _ _).reader.input.close = _ from hclosed]
    rfl
  | made next done => exact ⟨_, _, _, next, (hmake _).eq done⟩
  | failed next undone => exact ⟨_, _, _, next, (hmake _).eq undone⟩

omit [GraphClient γ] in
theorem Called.part_eq (h : Called make a r a') (part : σ → τ)
    (hmake : ∀ records, Keeps (fun a => part a.sampler) (make records)) :
    part a'.sampler = part a.sampler := by
  cases h with
  | unread next => rfl
  | ended next => rfl
  | made next done =>
    have hkeeps := (hmake _).eq done
    exact hkeeps
  | failed next undone =>
    have hkeeps := (hmake _).eq undone
    exact hkeeps

end Called

end Assembly

namespace Reader

open Assembly

variable {γ σ : Type} [GraphClient γ] [NegativeSampler σ]

theorem called_of_nextOf {ρ : Type} [Record ρ] {make : List ρ → Assembling γ σ Unit}
    {a : Assembly γ σ}
    (h : nextOf a.reader.config.mode a.cleared = nextBatch ρ make a.cleared) :
    Called make a (Reader.fill a).1 (Reader.fill a).2 := by
  match hfill : Reader.fill a with
  | (.ok true, a') =>
    obtain ⟨records, input, events, hnext, hmake⟩ := nextBatch_eq_true.1 (h ▸ fill_eq_ok.1 hfill)
    exact .made hnext hmake
  | (.ok false, a') =>
    obtain ⟨input, events, hnext, rfl⟩ := nextBatch_eq_false.1 (h ▸ fill_eq_ok.1 hfill)
    exact .ended hnext
  | (.error e, a') =>
    obtain ⟨t, ht, rfl⟩ := fill_eq_error.1 hfill
    rcases nextBatch_eq_error.1 (h ▸ ht) with ⟨input, events, hnext, rfl⟩ | ⟨records, input, events,
      hnext, hmake⟩
    · exact .unread hnext
    · exact .failed hnext hmake

theorem called_train {a : Assembly γ σ} (hmode : a.reader.config.isTrain = true) :
    Called trainOn a (Reader.fill a).1 (Reader.fill a).2 :=
  called_of_nextOf (nextOf_train hmode)

theorem called_predict {a : Assembly γ σ} (hmode : a.reader.config.isTrain = false) :
    Called predictFor a (Reader.fill a).1 (Reader.fill a).2 :=
  called_of_nextOf (nextOf_predict hmode)

/-- What no question changes of the sampler, no call changes. -/
theorem fill_keeps_part {τ : Type} (part : σ → τ) {a : Assembly γ σ}
    (hpart : ∀ (count : Nat) (nodes : List NodeId) (s : σ),
      part (NegativeSampler.negatives count nodes nodes s).2 = part s) :
    part (Reader.fill a).2.sampler = part a.sampler := by
  cases hmode : a.reader.config.isTrain with
  | true => exact (called_train hmode).part_eq part (trainOn_keeps_part hpart)
  | false =>
    exact (called_predict hmode).part_eq part fun records => (predictFor_keeps_sampler records).comp part

theorem fill_predict_keeps_sampler {a : Assembly γ σ} (hmode : a.reader.config.isTrain = false) :
    (Reader.fill a).2.sampler = a.sampler :=
  (called_predict hmode).part_eq (fun s => s) predictFor_keeps_sampler

/-! ## Sequences of calls -/

/-- A reader that has moved on in its input. -/
structure Moved (r r' : Reader) : Prop where
  config_eq : r'.config = r.config
  slots_eq : r'.slots = r.slots
  reads : ∃ read, LineReader.Reads read r.input r'.input

theorem Moved.refl (r : Reader) : Moved r r := ⟨rfl, rfl, [], .refl r.input⟩

theorem Moved.trans {r r' r'' : Reader} (h : Moved r r') (h' : Moved r' r'') : Moved r r'' where
  config_eq := h'.config_eq.trans h.config_eq
  slots_eq := h'.slots_eq.trans h.slots_eq
  reads := by
    obtain ⟨read, hread⟩ := h.reads
    obtain ⟨more, hmore⟩ := h'.reads
    exact ⟨read ++ more, hread.trans hmore⟩

omit [GraphClient γ] [NegativeSampler σ] in
theorem Moved.of_called {ρ : Type} [Record ρ] {make : List ρ → Assembling γ σ Unit}
    {a a' : Assembly γ σ} {r : Except Failure Bool} (h : Called make a r a')
    (hbatch : 0 < a.reader.config.batch.toNat) (hmake : ∀ records, Keeps place (make records)) :
    Moved a.reader a'.reader := by
  obtain ⟨taken, input, events, hnext, hplace⟩ := h.place_eq hbatch hmake
  obtain ⟨read, hreads, -⟩ := LineReader.next_reads hnext
  obtain ⟨hconfig, hrest⟩ := Prod.mk.inj hplace
  obtain ⟨hslots, rfl⟩ := Prod.mk.inj hrest
  exact ⟨hconfig, hslots, read, hreads⟩

/-- A call moves on in the input, whatever its outcome. -/
theorem fill_moved {a : Assembly γ σ} (hbatch : 0 < a.reader.config.batch.toNat) :
    Moved a.reader (Reader.fill a).2.reader := by
  cases hmode : a.reader.config.isTrain with
  | true => exact .of_called (called_train hmode) hbatch keeps_trainOn
  | false => exact .of_called (called_predict hmode) hbatch keeps_predictFor

/-- The readers that calls lead to from a first one. Between two calls the graph, the sampler and the
instance may be replaced by others. -/
inductive Reachable (γ σ : Type) [GraphClient γ] [NegativeSampler σ] (first : Reader) : Reader → Prop
  | start : Reachable γ σ first first
  | call {a : Assembly γ σ} (h : Reachable γ σ first a.reader) :
      Reachable γ σ first (Reader.fill a).2.reader

theorem Reachable.moved {first r : Reader} (h : Reachable γ σ first r)
    (hbatch : 0 < first.config.batch.toNat) : Moved first r := by
  induction h with
  | start => exact .refl first
  | call _ ih => exact ih.trans (fill_moved (ih.config_eq ▸ hbatch))

end Reader

end BipartiteBatch
