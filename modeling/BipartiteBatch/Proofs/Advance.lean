import BipartiteBatch.Proofs.Exhaustion
import BipartiteBatch.Proofs.SelfNegatives

/-!
# Calls by their reader alone

Where graph and sampler always answer, the reader alone says how each of its calls ends and what the call
counts, whatever is drawn. Only the number of negatives that equal their destination can depend on the draws,
and it does not if the sampler leaves out the query.

* `Outcome` : how a call ends, without the error, `Stats.Agree` : totals that are the same in this sense;
* `Reader.advance` : how the next call of a reader ends and where it leaves the reader;
* `Reader.advance_of_fill_ok`, `Reader.advance_of_fill_error` : the calls do so;
* `Reader.acceptedSelfNegatives_eq_shared` : the negatives that a call counts if queries are left out;
* `Reader.Stage` : where a number of calls lead to, `Reader.Stage.fill` : a call leads to the next stage.
-/

namespace BipartiteBatch

/-- How a call ends, whatever the error or the abort is. -/
inductive Outcome where
  | batch
  | exhausted
  | failed
  | aborted
deriving DecidableEq, Repr

def Outcome.of : Except Failure Bool → Outcome
  | .ok true => .batch
  | .ok false => .exhausted
  | .error (.error _) => .failed
  | .error (.abort _) => .aborted

theorem Outcome.of_eq_of_ok {r : Except Failure Bool} {more : Bool} :
    Outcome.of r = .of (.ok more) ↔ r = .ok more := by
  match r, more with
  | .ok true, true => exact ⟨fun _ => rfl, fun _ => rfl⟩
  | .ok true, false => exact ⟨nofun, nofun⟩
  | .ok false, true => exact ⟨nofun, nofun⟩
  | .ok false, false => exact ⟨fun _ => rfl, fun _ => rfl⟩
  | .error (.error _), true => exact ⟨nofun, nofun⟩
  | .error (.error _), false => exact ⟨nofun, nofun⟩
  | .error (.abort _), true => exact ⟨nofun, nofun⟩
  | .error (.abort _), false => exact ⟨nofun, nofun⟩

/-- The same totals, but for negatives that equal their destination where a query may be its own. -/
structure Stats.Agree (exclusion : SelfExclusion) (s s' : Stats) : Prop where
  batches_eq : s.batches = s'.batches
  records_eq : s.records = s'.records
  rows_eq : s.rows = s'.rows
  invalidNodes_eq : s.invalidNodes = s'.invalidNodes
  selfNegatives_eq : exclusion = .excludeQuery → s.selfNegatives = s'.selfNegatives

namespace Reader

open Assembly

/-! ## A call without graph and sampler -/

/-- How the next call of a reader ends if a batch can be made of all known records, and the reader after it,
without the negatives that the call counts. -/
def advanceBy {ρ : Type} [Record ρ] (known : ρ → Prop) [DecidablePred known] (rowsPer : Nat)
    (r : Reader) : Outcome × Reader :=
  match r.input.next ρ r.config.batch.toNat with
  | (.error e, input, _) => (.of (.error e), { r with input })
  | (.ok none, input, _) => (.exhausted, { r with input := input.close.1 })
  | (.ok (some records), input, _) =>
    if ∀ record ∈ records, known record then
      (.batch, { r with
        input, stats := r.stats.addBatch records.length (records.length * rowsPer) 0 })
    else (.failed, { r with input })

def advance (r : Reader) : Outcome × Reader :=
  match r.config.mode with
  | .train => r.advanceBy (KnownEdge r.config) (1 + r.config.numNeg.toNat)
  | .predict => r.advanceBy (KnownNode r.config) 1

def note (r : Reader) (count : Nat) : Reader := { r with stats := r.stats.addSelfNegatives count }

theorem note_zero (r : Reader) : r.note 0 = r := by
  rw [note, addSelfNegatives_zero]

theorem advance_train {r : Reader} (hmode : r.config.isTrain = true) :
    r.advance = r.advanceBy (KnownEdge r.config) (1 + r.config.numNeg.toNat) := by
  rw [advance, Config.mode, if_pos hmode]

theorem advance_predict {r : Reader} (hmode : r.config.isTrain = false) :
    r.advance = r.advanceBy (KnownNode r.config) 1 := by
  rw [advance, Config.mode, hmode]
  rfl

section AdvanceBy
variable {ρ : Type} [Record ρ] {known : ρ → Prop} [DecidablePred known] {rowsPer : Nat} {r : Reader}
  {input : LineReader} {events : List Event}

theorem advanceBy_of_error {e : Failure}
    (hnext : r.input.next ρ r.config.batch.toNat = (.error e, input, events)) :
    r.advanceBy known rowsPer = (.of (.error e), { r with input }) := by
  rw [advanceBy, hnext]

theorem advanceBy_of_none (hnext : r.input.next ρ r.config.batch.toNat = (.ok none, input, events)) :
    r.advanceBy known rowsPer = (.exhausted, { r with input := input.close.1 }) := by
  rw [advanceBy, hnext]

theorem advanceBy_of_known {records : List ρ}
    (hnext : r.input.next ρ r.config.batch.toNat = (.ok (some records), input, events))
    (hknown : ∀ record ∈ records, known record) :
    r.advanceBy known rowsPer = (.batch, { r with
      input, stats := r.stats.addBatch records.length (records.length * rowsPer) 0 }) := by
  rw [advanceBy, hnext]
  exact if_pos hknown

theorem advanceBy_of_unknown {records : List ρ}
    (hnext : r.input.next ρ r.config.batch.toNat = (.ok (some records), input, events))
    (hunknown : ¬ ∀ record ∈ records, known record) :
    r.advanceBy known rowsPer = (.failed, { r with input }) := by
  rw [advanceBy, hnext]
  exact if_neg hunknown

end AdvanceBy

/-! ## Calls advance the reader -/

variable {γ σ : Type} [GraphClient γ] [NegativeSampler σ] {a a' : Assembly γ σ}

omit [GraphClient γ] [NegativeSampler σ] in
theorem known_of_unknown_eq_nil {tags : GroupTags} {nodes : List NodeId}
    (h : (Partition.ofList tags nodes).unknown = []) : ∀ node ∈ nodes, tags.Known node := by
  rw [Partition.unknown_ofList, List.filter_eq_nil_iff] at h
  exact fun node hnode => not_not.1 fun hunknown => h node hnode (decide_eq_true hunknown)

/-- A call that ends without an error advances the reader and counts negatives. -/
theorem advance_of_fill_ok {more : Bool} (hfill : Reader.fill a = (.ok more, a')) :
    a.reader.advance.1 = .of (.ok more)
      ∧ a'.reader = a.reader.advance.2.note (acceptedSelfNegatives a) := by
  cases hmode : a.reader.config.isTrain with
  | true =>
    rw [advance_train hmode]
    cases more with
    | true =>
      obtain ⟨records, input, events, lists, users, items, rows, hnext, h⟩ := (fill_train hmode).1 hfill
      -- a batch has no unknown nodes, so the records that it took are known
      have hnodes := known_of_unknown_eq_nil h.unknown_eq_nil
      have hknown : ∀ record ∈ records, KnownEdge a.reader.config record := by
        intro record hrecord
        have hends : record.src ∈ records.map EdgeRecord.src ∧ record.dst ∈ records.map EdgeRecord.dst :=
          ⟨List.mem_map_of_mem hrecord, List.mem_map_of_mem hrecord⟩
        exact ⟨hnodes _ (List.mem_append_left _ (List.mem_append_left _ hends.1)),
          hnodes _ (List.mem_append_left _ (List.mem_append_right _ hends.2))⟩
      rw [advanceBy_of_known hnext hknown, acceptedSelfNegatives_of_records hmode hnext,
        h.draws.selfNegativesOf_eq, h.reader, h.unknown_eq_nil,
        h.length_rows]
      exact ⟨rfl, rfl⟩
    | false =>
      obtain ⟨input, events, hnext, rfl⟩ := (fill_train_ended hmode).1 hfill
      rw [advanceBy_of_none hnext, acceptedSelfNegatives_train hmode hnext]
      exact ⟨rfl, (note_zero _).symm⟩
  | false =>
    rw [advance_predict hmode, acceptedSelfNegatives_predict hmode, note_zero]
    cases more with
    | true =>
      obtain ⟨records, input, events, users, items, block, hnext, h⟩ := (fill_predict hmode).1 hfill
      have hnodes := known_of_unknown_eq_nil h.unknown_eq_nil
      have hknown : ∀ record ∈ records, KnownNode a.reader.config record :=
        fun record hrecord => hnodes _ (List.mem_map_of_mem hrecord)
      rw [advanceBy_of_known hnext hknown, h.reader, h.unknown_eq_nil, Nat.mul_one]
      exact ⟨rfl, rfl⟩
    | false =>
      obtain ⟨input, events, hnext, rfl⟩ := (fill_predict_ended hmode).1 hfill
      rw [advanceBy_of_none hnext]
      exact ⟨rfl, rfl⟩

omit [GraphClient γ] [NegativeSampler σ] in
theorem reader_eq_of_place {config : Config} {slots : SlotNames} {input : LineReader} {stats : Stats}
    (hplace : a'.place = (config, slots, input)) (hstats : a'.reader.stats = stats) :
    a'.reader = { config, slots, input, stats } := by
  obtain ⟨⟨config', slots', input', stats'⟩, graph, sampler, inst, events⟩ := a'
  obtain ⟨rfl, hrest⟩ := Prod.mk.inj hplace
  obtain ⟨rfl, rfl⟩ := Prod.mk.inj hrest
  obtain rfl := hstats
  rfl

omit [GraphClient γ] [NegativeSampler σ] in
theorem of_outcomeOf_eq_failed {tags : GroupTags} {order : List NodeId} {e : Failure}
    (h : outcomeOf tags order = .error e) : Outcome.of (.error e) = .failed := by
  unfold outcomeOf at h
  split at h
  · cases h
  · obtain rfl := Except.error.inj h
    rfl

omit [GraphClient γ] [NegativeSampler σ] in
/-- A call that fails has read its input up to a place, where an error of the input or an unknown record has
stopped it. -/
theorem exists_advanceBy_of_error {ρ : Type} [Record ρ] {make : List ρ → Assembling γ σ Unit}
    (known : ρ → Prop) [DecidablePred known] (rowsPer : Nat) {e : Failure}
    (h : Called make a (.error e) a') (hmake : ∀ records, Keeps place (make records))
    (hfails : ∀ records input events,
      a.reader.input.next ρ a.reader.config.batch.toNat = (.ok (some records), input, events) →
        (¬ ∀ record ∈ records, known record) ∧ Outcome.of (.error e) = .failed) :
    ∃ input, a.reader.advanceBy known rowsPer = (.of (.error e), { a.reader with input })
      ∧ a'.place = (a.reader.config, a.reader.slots, input) := by
  cases h with
  | unread next => exact ⟨_, advanceBy_of_error next, rfl⟩
  | failed next undone =>
    obtain ⟨hunknown, houtcome⟩ := hfails _ _ _ next
    have hplace := (hmake _).eq undone
    refine ⟨_, ?_, hplace⟩
    rw [advanceBy_of_unknown next hunknown, houtcome]
    rfl

/-- A call that fails though graph and sampler always answer advances the reader and counts negatives. -/
theorem advance_of_fill_error [GraphClient.Answering γ] [NegativeSampler.Answering σ] {e : Failure}
    (hneg : fits a.reader.config.numNeg.toNat 8) (hfill : Reader.fill a = (.error e, a')) :
    a.reader.advance.1 = .of (.error e)
      ∧ a'.reader = a.reader.advance.2.note (acceptedSelfNegatives a) := by
  have houtcome : (Reader.fill a).1 = .error e := by rw [hfill]
  have hstats := fill_stats_eq houtcome
  rw [hfill] at hstats
  cases hmode : a.reader.config.isTrain with
  | true =>
    have hcalled := called_train hmode
    rw [hfill] at hcalled
    obtain ⟨input, hadvance, hplace⟩ := exists_advanceBy_of_error (KnownEdge a.reader.config)
      (1 + a.reader.config.numNeg.toNat) hcalled keeps_trainOn fun records input events hnext => by
        -- the negatives are destinations, so an unknown node is one of the edges themselves
        obtain ⟨lists, sampler, -, -, hfails⟩ := failsByUnknown_train hmode hneg hnext
        refine ⟨fun hknown => ?_, of_outcomeOf_eq_failed (hfails.outcome_eq.symm.trans houtcome)⟩
        obtain ⟨node, hnode, hunknown⟩ := hfails.fails_iff.1 ⟨e, houtcome⟩
        rcases List.mem_append.1 hnode with hnode | hnode
        · obtain ⟨record, hrecord, rfl⟩ := List.mem_map.1 hnode
          exact hunknown (hknown record hrecord).1
        · obtain ⟨record, hrecord, rfl⟩ := List.mem_map.1 hnode
          exact hunknown (hknown record hrecord).2
    rw [advance_train hmode, hadvance, reader_eq_of_place hplace hstats]
    exact ⟨rfl, rfl⟩
  | false =>
    have hcalled := called_predict hmode
    rw [hfill] at hcalled
    obtain ⟨input, hadvance, hplace⟩ := exists_advanceBy_of_error (KnownNode a.reader.config) 1
      hcalled keeps_predictFor fun records input events hnext => by
        have hfails := failsByUnknown_predict hmode hnext
        refine ⟨fun hknown => ?_, of_outcomeOf_eq_failed (hfails.outcome_eq.symm.trans houtcome)⟩
        obtain ⟨node, hnode, hunknown⟩ := hfails.fails_iff.1 ⟨e, houtcome⟩
        obtain ⟨record, hrecord, rfl⟩ := List.mem_map.1 hnode
        exact hunknown (hknown record hrecord)
    rw [advance_predict hmode, hadvance, reader_eq_of_place hplace hstats]
    exact ⟨rfl, rfl⟩

/-! ## Negatives that a call counts -/

/-- How many negatives of taken edges equal their destination if the sampler leaves out the query. -/
def sharedOf (count : Nat) : Except Failure (Option (List EdgeRecord)) → Nat
  | .ok (some records) =>
    if AllEqual (records.map EdgeRecord.dst) then records.length * count else 0
  | _ => 0

def shared (r : Reader) : Nat :=
  match r.config.mode with
  | .train => sharedOf r.config.numNeg.toNat (r.input.next EdgeRecord r.config.batch.toNat).1
  | .predict => 0

omit [GraphClient γ] in
/-- With a sampler that leaves out the query, the reader alone says how many negatives a call counts. -/
theorem acceptedSelfNegatives_eq_shared (hleaves : NegativeSampler.LeavesOut a.sampler)
    (hdraws : a.reader.config.isTrain = true → ∀ records input events,
      a.reader.input.next EdgeRecord a.reader.config.batch.toNat = (.ok (some records), input, events) →
        ∃ lists, Draws a (records.map EdgeRecord.dst) lists) :
    acceptedSelfNegatives a = a.reader.shared := by
  cases hmode : a.reader.config.isTrain with
  | true =>
    rcases hnext : a.reader.input.next EdgeRecord a.reader.config.batch.toNat with ⟨taken, input, events⟩
    rw [acceptedSelfNegatives_train hmode hnext, shared, Config.mode, if_pos hmode, hnext]
    cases taken with
    | error e => rfl
    | ok taken =>
      cases taken with
      | none => rfl
      | some records =>
        obtain ⟨lists, hdrawn⟩ := hdraws hmode records input events hnext
        show selfNegativesOf (records.map EdgeRecord.dst) a = _
        rw [hdrawn.selfNegativesOf_eq, hdrawn.selfCount_eq hleaves, List.length_map]
        rfl
  | false =>
    rw [acceptedSelfNegatives_predict hmode, shared, Config.mode, hmode]
    rfl

omit [GraphClient γ] in
theorem exists_draws [NegativeSampler.Answering σ] (a : Assembly γ σ)
    (hneg : fits a.reader.config.numNeg.toNat 8) (dsts : List NodeId) : ∃ lists, Draws a dsts lists := by
  obtain ⟨lists, sampler, hnegatives, hlength, hcount, -⟩ :=
    NegativeSampler.Answering.negatives a.reader.config.numNeg.toNat dsts a.sampler hneg
  exact ⟨lists, ⟨sampler, hnegatives⟩, hlength, hcount⟩

/-! ## Many calls -/

/-- The reader after a number of calls, without the negatives that they count. -/
def advanced (r : Reader) : Nat → Reader
  | 0 => r
  | n + 1 => (advanced r n).advance.2

def outcomeAt (r : Reader) (n : Nat) : Outcome := (r.advanced n).advance.1

/-- How many negatives these calls count if the sampler leaves out the query. -/
def sharedBefore (r : Reader) : Nat → Nat
  | 0 => 0
  | n + 1 => sharedBefore r n + (r.advanced n).shared

/-- A reader that stands where a number of calls lead to, whatever graphs and samplers they asked. If these
samplers all leave out the query, it has counted the negatives that they must give. -/
def Stage (first : Reader) (leaving : Prop) (n : Nat) (r : Reader) : Prop :=
  ∃ noted, r = (first.advanced n).note noted ∧ (leaving → noted = first.sharedBefore n)

section Stages
variable {r r' first : Reader} {leaving : Prop} {n : Nat}

theorem advanceBy_note {ρ : Type} [Record ρ] {known : ρ → Prop} [DecidablePred known] {rowsPer : Nat}
    (r : Reader) (count : Nat) : (r.note count).advanceBy known rowsPer
      = ((r.advanceBy known rowsPer).1, (r.advanceBy known rowsPer).2.note count) := by
  match hnext : r.input.next ρ r.config.batch.toNat with
  | (.error e, input, events) =>
    rw [advanceBy_of_error hnext, advanceBy_of_error (r := r.note count) hnext]
    rfl
  | (.ok none, input, events) =>
    rw [advanceBy_of_none hnext, advanceBy_of_none (r := r.note count) hnext]
    rfl
  | (.ok (some records), input, events) =>
    by_cases hknown : ∀ record ∈ records, known record
    · rw [advanceBy_of_known hnext hknown, advanceBy_of_known (r := r.note count) hnext hknown]
      rfl
    · rw [advanceBy_of_unknown hnext hknown, advanceBy_of_unknown (r := r.note count) hnext hknown]
      rfl

/-- What a reader has counted does not matter to its calls. -/
theorem advance_note (r : Reader) (count : Nat) :
    (r.note count).advance = (r.advance.1, r.advance.2.note count) := by
  cases hmode : r.config.isTrain with
  | true => rw [advance_train hmode, advance_train (r := r.note count) hmode]; exact advanceBy_note r count
  | false =>
    rw [advance_predict hmode, advance_predict (r := r.note count) hmode]; exact advanceBy_note r count

theorem note_note (r : Reader) (m n : Nat) : (r.note m).note n = r.note (m + n) := by
  unfold note Stats.addSelfNegatives
  dsimp only
  rw [UInt64.ofNat_add, UInt64.add_assoc]

theorem config_advanceBy {ρ : Type} [Record ρ] (known : ρ → Prop) [DecidablePred known] (rowsPer : Nat)
    (r : Reader) : (r.advanceBy known rowsPer).2.config = r.config := by
  match hnext : r.input.next ρ r.config.batch.toNat with
  | (.error e, input, events) => rw [advanceBy_of_error hnext]
  | (.ok none, input, events) => rw [advanceBy_of_none hnext]
  | (.ok (some records), input, events) =>
    by_cases hknown : ∀ record ∈ records, known record
    · rw [advanceBy_of_known hnext hknown]
    · rw [advanceBy_of_unknown hnext hknown]

theorem config_advance (r : Reader) : r.advance.2.config = r.config := by
  cases hmode : r.config.isTrain with
  | true => rw [advance_train hmode, config_advanceBy]
  | false => rw [advance_predict hmode, config_advanceBy]

theorem config_advanced (r : Reader) (n : Nat) : (r.advanced n).config = r.config := by
  induction n with
  | zero => rfl
  | succ n ih => rw [advanced, config_advance, ih]

theorem Stage.start (first : Reader) (leaving : Prop) : Stage first leaving 0 first :=
  ⟨0, (note_zero first).symm, fun _ => rfl⟩

theorem Stage.config_eq (h : Stage first leaving n r) : r.config = first.config := by
  obtain ⟨noted, rfl, -⟩ := h
  exact config_advanced first n

/-- A call that advances the reader and counts as it must leads to the next stage. -/
theorem Stage.succ {count : Nat} (h : Stage first leaving n r) (hr' : r' = r.advance.2.note count)
    (hcount : leaving → count = r.shared) : Stage first leaving (n + 1) r' := by
  obtain ⟨noted, rfl, hnoted⟩ := h
  refine ⟨noted + count, ?_, fun hleaving => ?_⟩
  · rw [hr', advance_note, note_note]
    rfl
  · rw [hnoted hleaving, hcount hleaving]
    rfl

theorem Stage.outcome_eq (h : Stage first leaving n r) : r.advance.1 = first.outcomeAt n := by
  obtain ⟨noted, rfl, -⟩ := h
  rw [advance_note]
  rfl

theorem Stage.stats_eq (h : Stage first leaving n r) (hleaving : leaving) :
    r.stats = (first.advanced n).stats.addSelfNegatives (first.sharedBefore n) := by
  obtain ⟨noted, rfl, hnoted⟩ := h
  rw [← hnoted hleaving]
  rfl

/-- Two readers at one stage have the same totals, but for negatives that equal their destination where these
are not left out. -/
theorem Stage.agree {exclusion : SelfExclusion} (h : Stage first (exclusion = .excludeQuery) n r)
    (h' : Stage first (exclusion = .excludeQuery) n r') : r.stats.Agree exclusion r'.stats := by
  obtain ⟨noted, rfl, hnoted⟩ := h
  obtain ⟨noted', rfl, hnoted'⟩ := h'
  refine ⟨rfl, rfl, rfl, rfl, fun hexclude => ?_⟩
  rw [hnoted hexclude, hnoted' hexclude]

end Stages

section Answering
variable [GraphClient.Answering γ] [NegativeSampler.Answering σ] {first : Reader} {leaving : Prop}
  {n : Nat}

/-- A call whose graph and sampler answer leads to the next stage, and ends as calls do there. -/
theorem Stage.fill (h : Stage first leaving n a.reader) (hneg : fits first.config.numNeg.toNat 8)
    (hleaves : leaving → NegativeSampler.LeavesOut a.sampler) :
    Outcome.of (Reader.fill a).1 = first.outcomeAt n
      ∧ Stage first leaving (n + 1) (Reader.fill a).2.reader := by
  rw [← h.config_eq] at hneg
  have hadvance : a.reader.advance.1 = .of (Reader.fill a).1
      ∧ (Reader.fill a).2.reader = a.reader.advance.2.note (acceptedSelfNegatives a) := by
    match hfill : Reader.fill a with
    | (.ok more, a') => exact advance_of_fill_ok hfill
    | (.error e, a') => exact advance_of_fill_error hneg hfill
  refine ⟨hadvance.1.symm.trans h.outcome_eq, h.succ hadvance.2 fun hleaving => ?_⟩
  exact acceptedSelfNegatives_eq_shared (hleaves hleaving) fun _ _ _ _ _ => exists_draws a hneg _

end Answering

end Reader

end BipartiteBatch
