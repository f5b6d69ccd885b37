import BipartiteBatch.Proofs.Failures

/-!
# The totals of calls that fail

A call that fails counts no batch, no records, no rows and no unknown nodes. But negatives that equal
their destination are counted as soon as the negatives are accepted, and stay counted if the call fails
after that. So there may be more of them than negatives in all batches; there are never more than
negatives for all edges that were read.

* `Assembly.selfNegativesOf`, `Reader.acceptedSelfNegatives` : what is counted so;
* `Reader.fill_stats_of_error` : the totals after a call that fails;
* `Reader.fill_selfNegatives` : what a call counts, `Reader.fill_selfNegatives_le` : no more than this;
* `Reader.Reachable.selfNegatives_le` : what all calls count;
* `Reader.fill_strayEdge` : a call that fails and counts.
-/

namespace BipartiteBatch

/-! ## Negatives that equal their destination -/

theorem Negatives.selfCount_le {count : Nat} {dsts : List NodeId} {lists : List (List NodeId)}
    (hcount : ∀ list ∈ lists, list.length = count) : selfCount dsts lists ≤ dsts.length * count := by
  induction dsts generalizing lists with
  | nil => exact Nat.zero_le _
  | cons dst dsts ih =>
    match lists with
    | [] => exact Nat.zero_le _
    | negatives :: lists =>
      obtain ⟨hnegatives, hlists⟩ := List.forall_mem_cons.1 hcount
      have hfirst : negatives.count dst ≤ count := hnegatives ▸ List.count_le_length
      have hrest := ih hlists
      rw [selfCount, List.length_cons, Nat.succ_mul]
      omega

namespace Assembly

variable {γ σ : Type} [NegativeSampler σ] {a : Assembly γ σ} {dsts : List NodeId}
  {lists : List (List NodeId)}

/-- How many of the negatives drawn for destinations equal theirs, if they are accepted. -/
def selfNegativesOf (dsts : List NodeId) (a : Assembly γ σ) : Nat :=
  match NegativeSampler.negatives a.reader.config.numNeg.toNat dsts dsts a.sampler with
  | (.ok lists, _) =>
    match Negatives.check a.reader.config.numNeg.toNat dsts lists with
    | .ok count => count
    | .error _ => 0
  | (.error _, _) => 0

theorem Prepared.draws [GraphClient γ] {records : List EdgeRecord} {users items : Findings}
    {graph : γ} {sampler : σ}
    (h : Prepared records a lists users items graph sampler) :
    Draws a (records.map EdgeRecord.dst) lists where
  negatives := ⟨sampler, h.negatives⟩
  length_lists := h.lengths.2.symm
  length_of_mem_lists := h.length_of_mem_lists

theorem Draws.selfNegativesOf_eq (h : Draws a dsts lists) :
    selfNegativesOf dsts a = Negatives.selfCount dsts lists := by
  obtain ⟨sampler, hnegatives⟩ := h.negatives
  have hcheck := Negatives.check_eq_ok.2 ⟨h.length_lists, h.length_of_mem_lists, rfl⟩
  rw [selfNegativesOf, hnegatives]
  dsimp only
  rw [hcheck]

theorem selfNegativesOf_eq_zero (h : ∀ lists, ¬ Draws a dsts lists) : selfNegativesOf dsts a = 0 := by
  unfold selfNegativesOf
  match hnegatives : NegativeSampler.negatives a.reader.config.numNeg.toNat dsts dsts a.sampler with
  | (.error e, sampler) => rfl
  | (.ok lists, sampler) =>
    dsimp only
    cases hcheck : Negatives.check a.reader.config.numNeg.toNat dsts lists with
    | error e => rfl
    | ok count =>
      obtain ⟨hlength, hall, -⟩ := Negatives.check_eq_ok.1 hcheck
      exact absurd ⟨⟨sampler, hnegatives⟩, hlength, hall⟩ (h lists)

theorem selfNegativesOf_le (dsts : List NodeId) (a : Assembly γ σ) :
    selfNegativesOf dsts a ≤ dsts.length * a.reader.config.numNeg.toNat := by
  by_cases h : ∃ lists, Draws a dsts lists
  · obtain ⟨lists, hdraws⟩ := h
    rw [hdraws.selfNegativesOf_eq]
    exact Negatives.selfCount_le hdraws.length_of_mem_lists
  · rw [selfNegativesOf_eq_zero fun lists hdraws => h ⟨lists, hdraws⟩]
    exact Nat.zero_le _

end Assembly

namespace Reader

open Assembly

variable {γ σ : Type} [NegativeSampler σ] {a a' : Assembly γ σ}

/-- How many of the negatives that are drawn for taken edges equal their destination, if the negatives are
accepted. -/
def selfNegativesTaken (taken : Except Failure (Option (List EdgeRecord))) (a : Assembly γ σ) : Nat :=
  match taken with
  | .ok (some records) => selfNegativesOf (records.map EdgeRecord.dst) a
  | _ => 0

def acceptedSelfNegatives (a : Assembly γ σ) : Nat :=
  match a.reader.config.mode with
  | .train => selfNegativesTaken (a.reader.input.next EdgeRecord a.reader.config.batch.toNat).1 a
  | .predict => 0

section Accepted
variable {taken : Except Failure (Option (List EdgeRecord))} {records : List EdgeRecord}
  {input : LineReader} {events : List Event}

theorem acceptedSelfNegatives_train (hmode : a.reader.config.isTrain = true)
    (hnext : a.reader.input.next EdgeRecord a.reader.config.batch.toNat = (taken, input, events)) :
    acceptedSelfNegatives a = selfNegativesTaken taken a := by
  rw [acceptedSelfNegatives, Config.mode, if_pos hmode]
  dsimp only
  rw [hnext]

theorem acceptedSelfNegatives_of_records (hmode : a.reader.config.isTrain = true)
    (hnext : a.reader.input.next EdgeRecord a.reader.config.batch.toNat
      = (.ok (some records), input, events)) :
    acceptedSelfNegatives a
      = selfNegativesOf (records.map EdgeRecord.dst) (a.cleared.withInput input events) :=
  acceptedSelfNegatives_train hmode hnext

theorem acceptedSelfNegatives_predict (hmode : a.reader.config.isTrain = false) :
    acceptedSelfNegatives a = 0 := by
  rw [acceptedSelfNegatives, Config.mode, hmode]
  rfl

end Accepted

/-! ## What a call counts -/

omit [NegativeSampler σ] in
theorem addSelfNegatives_zero (s : Stats) : s.addSelfNegatives 0 = s := by
  rw [Stats.addSelfNegatives, show UInt64.ofNat 0 = 0 from rfl, UInt64.add_zero]

variable [GraphClient γ]

theorem stats_of_called_train {e : Failure} (hmode : a.reader.config.isTrain = true)
    (h : Called trainOn a (.error e) a') :
    a'.reader.stats = a.reader.stats.addSelfNegatives (acceptedSelfNegatives a) := by
  cases h with
  | unread next =>
    rw [acceptedSelfNegatives_train hmode next]
    exact (addSelfNegatives_zero _).symm
  | failed next undone =>
    rw [acceptedSelfNegatives_of_records hmode next]
    rcases trainOn_eq_error undone with ⟨hnone, hreader⟩ | ⟨lists, hdraws, hreader⟩
    · have hstats := congrArg Reader.stats hreader
      rw [selfNegativesOf_eq_zero hnone, addSelfNegatives_zero]
      exact hstats
    · have hstats := congrArg Reader.stats hreader
      rw [hdraws.selfNegativesOf_eq]
      exact hstats

omit [NegativeSampler σ] in
theorem stats_of_called_predict {e : Failure} (h : Called predictFor a (.error e) a') :
    a'.reader.stats = a.reader.stats := by
  cases h with
  | unread next => rfl
  | failed next undone =>
    have hstats := congrArg Reader.stats (predictFor_eq_error undone)
    exact hstats

/-- A call that fails counts the accepted negatives that equal their destination, and nothing else. -/
theorem fill_stats_eq {e : Failure} (h : (Reader.fill a).1 = .error e) :
    (Reader.fill a).2.reader.stats = a.reader.stats.addSelfNegatives (acceptedSelfNegatives a) := by
  cases hmode : a.reader.config.isTrain with
  | true =>
    have hcalled := called_train hmode
    rw [h] at hcalled
    exact stats_of_called_train hmode hcalled
  | false =>
    have hcalled := called_predict hmode
    rw [h] at hcalled
    rw [acceptedSelfNegatives_predict hmode, addSelfNegatives_zero]
    exact stats_of_called_predict hcalled

theorem selfNegatives_of_called_train {more : Bool} (hmode : a.reader.config.isTrain = true)
    (h : Called trainOn a (.ok more) a') : a'.reader.stats.selfNegatives
      = a.reader.stats.selfNegatives + UInt64.ofNat (acceptedSelfNegatives a) := by
  cases h with
  | ended next =>
    rw [acceptedSelfNegatives_train hmode next]
    exact (UInt64.add_zero _).symm
  | made next done =>
    obtain ⟨lists, users, items, rows, h⟩ := trainOn_eq_ok.1 done
    rw [acceptedSelfNegatives_of_records hmode next, h.draws.selfNegativesOf_eq, h.reader]
    rfl

omit [NegativeSampler σ] in
theorem selfNegatives_of_called_predict {more : Bool} (h : Called predictFor a (.ok more) a') :
    a'.reader.stats.selfNegatives = a.reader.stats.selfNegatives := by
  cases h with
  | ended next => rfl
  | made next done =>
    obtain ⟨users, items, block, h⟩ := predictFor_eq_ok.1 done
    rw [h.reader]
    rfl

theorem fill_selfNegatives (a : Assembly γ σ) : (Reader.fill a).2.reader.stats.selfNegatives
    = a.reader.stats.selfNegatives + UInt64.ofNat (acceptedSelfNegatives a) := by
  cases houtcome : (Reader.fill a).1 with
  | error e => rw [fill_stats_eq houtcome, Stats.addSelfNegatives]
  | ok more =>
    cases hmode : a.reader.config.isTrain with
    | true =>
      have hcalled := called_train hmode
      rw [houtcome] at hcalled
      exact selfNegatives_of_called_train hmode hcalled
    | false =>
      have hcalled := called_predict hmode
      rw [houtcome] at hcalled
      rw [acceptedSelfNegatives_predict hmode, selfNegatives_of_called_predict hcalled]
      exact (UInt64.add_zero _).symm

/-! ## What all calls count -/

def edgeCount (read : List Line) : Nat := (read.filterMap (Line.record? EdgeRecord)).length

theorem edgeCount_append (read more : List Line) :
    edgeCount (read ++ more) = edgeCount read + edgeCount more := by
  rw [edgeCount, List.filterMap_append, List.length_append, edgeCount, edgeCount]

theorem fill_selfNegatives_le (hbatch : 0 < a.reader.config.batch.toNat) : ∃ read,
    LineReader.Reads read a.reader.input (Reader.fill a).2.reader.input
      ∧ acceptedSelfNegatives a ≤ edgeCount read * a.reader.config.numNeg.toNat := by
  cases hmode : a.reader.config.isTrain with
  | true =>
    obtain ⟨taken, input, events, hnext, hplace⟩ :=
      (called_train hmode).place_eq hbatch keeps_trainOn
    obtain ⟨read, hreads, hrecords, -⟩ := LineReader.next_reads hnext
    have hinput : (Reader.fill a).2.reader.input = input :=
      (Prod.mk.inj (Prod.mk.inj hplace).2).2
    rw [hinput, acceptedSelfNegatives_train hmode hnext]
    refine ⟨read, hreads, ?_⟩
    match taken with
    | .error e => exact Nat.zero_le _
    | .ok none => exact Nat.zero_le _
    | .ok (some records) =>
      have hle := selfNegativesOf_le (records.map EdgeRecord.dst) a
      rw [List.length_map] at hle
      rw [edgeCount, ← (hrecords records rfl).1]
      exact hle
  | false =>
    obtain ⟨read, hreads⟩ := (fill_moved hbatch).reads
    rw [acceptedSelfNegatives_predict hmode]
    exact ⟨read, hreads, Nat.zero_le _⟩

/-- Calls count no more than the negatives for all edges that they read. -/
theorem Reachable.selfNegatives_le {first r : Reader} (h : Reachable γ σ first r)
    (hbatch : 0 < first.config.batch.toNat) (hstats : first.stats = {}) : ∃ read,
      LineReader.Reads read first.input r.input
        ∧ r.stats.selfNegatives.toNat ≤ edgeCount read * first.config.numNeg.toNat := by
  induction h with
  | start =>
    rw [hstats]
    exact ⟨[], .refl first.input, Nat.zero_le _⟩
  | @call a h ih =>
    obtain ⟨read, hreads, hle⟩ := ih
    have hconfig := (h.moved hbatch).config_eq
    obtain ⟨more, hmore, hcall⟩ := fill_selfNegatives_le (a := a) (by rwa [hconfig])
    rw [hconfig] at hcall
    refine ⟨read ++ more, hreads.trans hmore, ?_⟩
    rw [fill_selfNegatives, UInt64.toNat_add, UInt64.toNat_ofNat', edgeCount_append, Nat.add_mul]
    -- the counter may wrap around, which makes it no greater
    have hwrap := Nat.mod_le (a.reader.stats.selfNegatives.toNat + acceptedSelfNegatives a % 2 ^ 64)
      (2 ^ 64)
    have hnoted := Nat.mod_le (acceptedSelfNegatives a) (2 ^ 64)
    omega

/-- Whatever the graph and the sampler do, a call that fails changes no total but one: negatives that equal
their destination are counted if they were accepted, which in prediction none are. In each state that calls
lead to there are no more of these than negatives for all edges that were read. -/
theorem fill_stats_of_error (a : Assembly γ σ) :
    (∀ e, (Reader.fill a).1 = .error e →
      (Reader.fill a).2.reader.stats = a.reader.stats.addSelfNegatives (acceptedSelfNegatives a)
      ∧ (a.reader.config.isTrain = false → (Reader.fill a).2.reader.stats = a.reader.stats))
    ∧ ∀ (config : Config) (slots : SlotNames) (input : LineReader) (first : Reader)
        (created : List Event), Reader.create config slots input = .ok (first, created) →
      Reachable γ σ first a.reader → ∃ read, LineReader.Reads read input a.reader.input
        ∧ a.reader.stats.selfNegatives.toNat ≤ edgeCount read * config.numNeg.toNat := by
  constructor
  · intro e herror
    have hstats := fill_stats_eq herror
    refine ⟨hstats, fun hmode => ?_⟩
    rw [hstats, acceptedSelfNegatives_predict hmode, addSelfNegatives_zero]
  · intro config slots input first created hcreate hreach
    obtain ⟨hcheck, rfl, -⟩ := create_eq_ok.1 hcreate
    exact hreach.selfNegatives_le (batch_pos_of_check hcheck) rfl

/-! ## A call that fails and counts -/

theorem strayEdge_next :
    (strayEdge true).reader.input.next EdgeRecord (strayEdge true).reader.config.batch.toNat
      = (.ok (some [⟨844424930131969, 281474976710657⟩]), ⟨none, 1, 0⟩, [.inputClosed 1 0]) := by
  rw [strayEdge_input]
  rfl

theorem acceptedSelfNegatives_strayEdge : acceptedSelfNegatives (strayEdge true) = 1 := by
  obtain ⟨lists, users, items, graph, sampler, h, hmem⟩ := exists_prepared
    ((strayEdge true).cleared.withInput ⟨none, 1, 0⟩ [.inputClosed 1 0])
    [⟨844424930131969, 281474976710657⟩] (by decide)
  rw [acceptedSelfNegatives_of_records rfl strayEdge_next, h.draws.selfNegativesOf_eq]
  have hlength := h.length_lists
  have hcount := h.length_of_mem_lists
  match lists with
  | [negatives] =>
    have hone : negatives.length = 1 := hcount negatives List.mem_cons_self
    match negatives with
    | [node] =>
      obtain rfl := List.mem_singleton.1 (hmem node List.mem_cons_self)
      rfl

theorem strayEdge_outcome (isTrain : Bool) : (Reader.fill (strayEdge isTrain)).1
    = .error (.error (.node (.unknownGroup 844424930131969 { user := 0, item := 1 }))) := by
  cases isTrain with
  | true =>
    obtain ⟨lists, sampler, -, hlength, hfails⟩ :=
      failsByUnknown_train (a := strayEdge true) rfl (by decide) strayEdge_next
    match lists with
    | [negatives] => exact hfails.outcome_eq
  | false =>
    have hnext : (strayEdge false).reader.input.next NodeRecord
        (strayEdge false).reader.config.batch.toNat
          = (.ok (some [⟨844424930131969⟩]), ⟨none, 1, 0⟩, [.inputClosed 1 0]) := by
      rw [strayEdge_input]
      rfl
    exact (failsByUnknown_predict rfl hnext).outcome_eq

theorem fill_stats_of_error_strayEdge :
    (Reader.fill (strayEdge true)).2.reader.stats = { selfNegatives := 1 }
      ∧ (Reader.fill (strayEdge false)).2.reader.stats = {}
      ∧ ∃ read, LineReader.Reads read (strayEdge true).reader.input
          (Reader.fill (strayEdge true)).2.reader.input
        ∧ 1 ≤ edgeCount read * 1 := by
  have hcreate : Reader.create { numNeg := 1, isTrain := true } {} (strayEdge true).reader.input
      = .ok ((strayEdge true).reader, [.readerCreated { numNeg := 1, isTrain := true }]) :=
    create_eq_ok.2 ⟨by decide, rfl, rfl⟩
  have htrain := ((fill_stats_of_error (strayEdge true)).1 _ (strayEdge_outcome true)).1
  rw [acceptedSelfNegatives_strayEdge] at htrain
  refine ⟨htrain, ?_, ?_⟩
  · exact ((fill_stats_of_error (strayEdge false)).1 _ (strayEdge_outcome false)).2 rfl
  · obtain ⟨read, hreads, hle⟩ :=
      (fill_stats_of_error (Reader.fill (strayEdge true)).2).2 _ _ _ _ _ hcreate (.call .start)
    rw [htrain] at hle
    exact ⟨read, hreads, hle⟩

/-- The call fails and yet changes the totals, after which there is a negative that equals its destination
though there is no batch. -/
theorem fill_strayEdge :
    (∃ e, (Reader.fill (strayEdge true)).1 = .error e)
      ∧ (Reader.fill (strayEdge true)).2.reader.stats ≠ (strayEdge true).reader.stats
      ∧ Reachable Graph UniformSampler (strayEdge true).reader
        (Reader.fill (strayEdge true)).2.reader
      ∧ (Reader.fill (strayEdge true)).2.reader.stats.records.toNat
          * (strayEdge true).reader.config.numNeg.toNat
        < (Reader.fill (strayEdge true)).2.reader.stats.selfNegatives.toNat := by
  have hstats := fill_stats_eq (strayEdge_outcome true)
  rw [acceptedSelfNegatives_strayEdge] at hstats
  refine ⟨⟨_, strayEdge_outcome true⟩, ?_, .call .start, ?_⟩
  · rw [hstats]
    decide
  · rw [hstats]
    decide

end Reader

end BipartiteBatch
