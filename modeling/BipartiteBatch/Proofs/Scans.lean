import BipartiteBatch.Proofs.Shards
import BipartiteBatch.Scan.Run
import Mathlib.Data.List.Perm.Basic

/-!
# Scans

A scan reads its inputs one after the other with the graph and the sampler that the inputs before have left.
If the sampler is a uniform one, the shards of a scan are nevertheless those that its inputs lead to, and
inputs that lead to shards can be read from any state of graph and sampler.

* `Reader.Stage.exists_fill` : a call ends without an error at a stage where calls do;
* `Reader.EndsAfter` : how many calls give a batch until one finds the end;
* `Scan.bind_eq_ok`, `Scan.run_bind_of_ok` : steps of a scan one after the other;
* `Scan.ReadThrough` : a shard with the totals that its input leads to;
* `Scan.readThrough_of_readShards`, `Scan.exists_readShards` : inputs that are read lead to their shards, and
  inputs that lead to shards can be read;
* `Scan.run_eq_ok`, `Scan.Opens.exists_run` : the same for the scan around its inputs.
-/

namespace BipartiteBatch

/-! ## The policy of a sampler -/

namespace Sampler

/-- Whether a query may be its own negative, if the sampler is a uniform one. -/
def uniformPolicy? : Sampler → Option SelfExclusion
  | .uniform u => some u.exclusion
  | .frequency _ => none

theorem uniformPolicy?_negatives (count : Nat) (nodes : List NodeId) (s : Sampler) :
    (NegativeSampler.negatives count nodes nodes s).2.uniformPolicy? = s.uniformPolicy? := by
  cases s with
  | uniform u => rfl
  | frequency f => rfl

theorem leavesOut {s : Sampler} (h : s.uniformPolicy? = some .excludeQuery) :
    NegativeSampler.LeavesOut s := by
  cases s with
  | uniform u =>
    intro count nodes lists s' hnegatives
    have hlists : (NegativeSampler.negatives count nodes nodes u).1 = .ok lists :=
      congrArg Prod.fst hnegatives
    exact UniformSampler.leavesOut (Option.some.inj h) count nodes lists _ (Prod.ext hlists rfl)
  | frequency f => cases h

end Sampler

namespace Reader

open Assembly

variable {γ σ : Type} [GraphClient γ] [NegativeSampler σ] {a a' : Assembly γ σ} {first : Reader}
  {leaving : Prop} {n : Nat}

theorem Stage.fill_ok {more : Bool} (h : Stage first leaving n a.reader)
    (hleaves : leaving → NegativeSampler.LeavesOut a.sampler)
    (hfill : Reader.fill a = (.ok more, a')) :
    first.outcomeAt n = .of (.ok more) ∧ Stage first leaving (n + 1) a'.reader := by
  obtain ⟨houtcome, hreader⟩ := advance_of_fill_ok hfill
  refine ⟨h.outcome_eq.symm.trans houtcome, h.succ hreader fun hleaving => ?_⟩
  refine acceptedSelfNegatives_eq_shared (hleaves hleaving) fun hmode records input events hnext => ?_
  cases more with
  | true =>
    obtain ⟨_, _, _, lists, users, items, rows, htaken, htrained⟩ := (fill_train hmode).1 hfill
    obtain ⟨hrecords, -⟩ := Prod.mk.inj (hnext.symm.trans htaken)
    obtain rfl := Option.some.inj (Except.ok.inj hrecords)
    have hdraws := htrained.draws
    exact ⟨lists, hdraws.negatives, hdraws.length_lists, hdraws.length_of_mem_lists⟩
  | false =>
    obtain ⟨_, _, hended, -⟩ := (fill_train_ended hmode).1 hfill
    obtain ⟨hrecords, -⟩ := Prod.mk.inj (hnext.symm.trans hended)
    cases Except.ok.inj hrecords

theorem length_left_of_fill (hfill : Reader.fill a = (.ok true, a')) :
    a'.reader.input.left.length < a.reader.input.left.length := by
  cases hmode : a.reader.config.isTrain with
  | true =>
    obtain ⟨records, input, events, lists, users, items, rows, hnext, h⟩ := (fill_train hmode).1 hfill
    rw [h.reader]
    exact LineReader.length_left_of_next hnext
  | false =>
    obtain ⟨records, input, events, users, items, block, hnext, h⟩ := (fill_predict hmode).1 hfill
    rw [h.reader]
    exact LineReader.length_left_of_next hnext

theorem exists_fill_uniform {r : Reader} {g : γ} {u : UniformSampler} {inst : Instance}
    {events : List Event} {more : Bool} {b : Assembly γ UniformSampler}
    (hfill : Reader.fill ⟨r, g, u, inst, events⟩ = (.ok more, b)) :
    ∃ a' : Assembly γ Sampler, Reader.fill ⟨r, g, .uniform u, inst, events⟩ = (.ok more, a') := by
  cases hmode : r.config.isTrain with
  | true =>
    cases more with
    | true =>
      obtain ⟨records, input, _, lists, users, items, rows, hnext, h⟩ := (fill_train hmode).1 hfill
      refine ⟨⟨b.reader, b.graph, .uniform b.sampler, b.inst, b.events⟩,
        (fill_train hmode).2 ⟨records, input, _, lists, users, items, rows, hnext, ?_⟩⟩
      exact ⟨congrArg (fun drawn => (drawn.1, Sampler.uniform drawn.2)) h.negatives, h.length_lists,
        h.length_of_mem_lists, h.found, h.edgeRows, h.inst, h.reader, h.events⟩
    | false =>
      obtain ⟨input, _, hnext, -⟩ := (fill_train_ended hmode).1 hfill
      exact ⟨_, (fill_train_ended hmode).2 ⟨input, _, hnext, rfl⟩⟩
  | false =>
    cases more with
    | true =>
      obtain ⟨records, input, _, users, items, block, hnext, h⟩ := (fill_predict hmode).1 hfill
      exact ⟨⟨b.reader, b.graph, .uniform u, b.inst, b.events⟩,
        (fill_predict hmode).2 ⟨records, input, _, users, items, block, hnext,
          rfl, h.found, h.lookupBlock, h.inst, h.reader, h.events⟩⟩
    | false =>
      obtain ⟨input, _, hnext, -⟩ := (fill_predict_ended hmode).1 hfill
      exact ⟨_, (fill_predict_ended hmode).2 ⟨input, _, hnext, rfl⟩⟩

/-- At a stage where calls end without an error, a graph and a uniform sampler let the call end so. -/
theorem Stage.exists_fill [GraphClient.Answering γ] {a : Assembly γ Sampler} {exclusion : SelfExclusion}
    (more : Bool) (h : Stage first leaving n a.reader)
    (hneg : fits first.config.numNeg.toNat 8) (hpolicy : a.sampler.uniformPolicy? = some exclusion)
    (houtcome : first.outcomeAt n = .of (.ok more)) : ∃ a', Reader.fill a = (.ok more, a') := by
  obtain ⟨noted, hreader, -⟩ := h
  obtain ⟨r, g, sampler, inst, events⟩ := a
  cases sampler with
  | uniform u =>
    -- what has been counted does not matter to how the call ends
    have hstage : Stage first False n r := ⟨noted, hreader, False.elim⟩
    have hfill := (Stage.fill (a := ⟨r, g, u, inst, events⟩) hstage hneg False.elim).1
    exact exists_fill_uniform (Prod.ext (Outcome.of_eq_of_ok.1 (hfill.trans houtcome)) rfl)
  | frequency f => cases hpolicy

def EndsAfter (first : Reader) (n : Nat) : Prop :=
  (∀ k < n, first.outcomeAt k = .batch) ∧ first.outcomeAt n = .exhausted

theorem EndsAfter.unique {m : Nat} (h : first.EndsAfter m) (h' : first.EndsAfter n) : m = n := by
  have hle : ∀ {m n}, first.EndsAfter m → first.EndsAfter n → m ≤ n := by
    intro m n h h'
    by_contra hlt
    have hbatch := h.1 n (Nat.not_le.1 hlt)
    rw [h'.2] at hbatch
    cases hbatch
  exact Nat.le_antisymm (hle h h') (hle h' h)

end Reader

namespace Scan

variable {α β : Type}

/-! ## Steps of a scan -/

theorem run_bind {x : Scanning α} {f : α → Scanning β} {s : State} :
    (x >>= f).run s = match x.run s with
      | (.ok a, s') => (f a).run s'
      | (.error e, s') => (.error e, s') := by
  rw [ExceptT.run_bind]
  show StateT.bind x.run _ s = _
  unfold StateT.bind
  show (match x.run s with | (r, s') => _) = _
  match x.run s with
  | (.ok a, s') => rfl
  | (.error e, s') => rfl

theorem run_bind_of_ok {x : Scanning α} {f : α → Scanning β} {s s' : State} {a : α}
    (h : x.run s = (.ok a, s')) : (x >>= f).run s = (f a).run s' := by
  rw [run_bind, h]

theorem bind_eq_ok {x : Scanning α} {f : α → Scanning β} {s s'' : State} {b : β} :
    (x >>= f).run s = (.ok b, s'')
      ↔ ∃ a s', x.run s = (.ok a, s') ∧ (f a).run s' = (.ok b, s'') := by
  rw [run_bind]
  match x.run s with
  | (.ok a, s') =>
    constructor
    · exact fun h => ⟨a, s', rfl, h⟩
    · rintro ⟨_, _, ⟨⟩, h⟩
      exact h
  | (.error e, s') =>
    constructor
    · exact nofun
    · rintro ⟨_, _, ⟨⟩, -⟩

theorem result_eq_ok {ε : Type} {failure : ε → ScanFailure} {r : Except ε α} {s s' : State} {x : α} :
    (result failure r).run s = (.ok x, s') ↔ r = .ok x ∧ s = s' := by
  cases r with
  | ok y =>
    show (Except.ok y, s) = (Except.ok x, s') ↔ _
    rw [Prod.mk.injEq, Except.ok.injEq, Except.ok.injEq]
  | error e => exact ⟨nofun, nofun⟩

theorem tell_run (events : List Event) (s : State) :
    (tell events).run s = (.ok (), { s with events := s.events ++ events }) := rfl

theorem get_run (s : State) : (get : Scanning State).run s = (.ok s, s) := rfl

theorem modify_run (change : State → State) (s : State) :
    (modify change : Scanning PUnit).run s = (.ok ⟨⟩, change s) := rfl

theorem pure_run (x : α) (s : State) : (pure x : Scanning α).run s = (.ok x, s) := rfl

theorem pure_eq_ok {s s' : State} {x y : α} :
    (pure x : Scanning α).run s = (.ok y, s') ↔ x = y ∧ s = s' := by
  rw [pure_run, Prod.mk.injEq, Except.ok.injEq]

theorem get_eq_ok {s s' t : State} : (get : Scanning State).run s = (.ok t, s') ↔ s = t ∧ s = s' := by
  rw [get_run, Prod.mk.injEq, Except.ok.injEq]

theorem modify_eq_ok {change : State → State} {s s' : State} {x : PUnit} :
    (modify change : Scanning PUnit).run s = (.ok x, s') ↔ s' = change s := by
  rw [modify_run, Prod.mk.injEq, Except.ok.injEq]
  exact ⟨fun h => h.2.symm, fun h => ⟨rfl, h.symm⟩⟩

/-- Filling a batch is a call of the reader with the graph and the sampler of the scan. -/
theorem fillBatch_eq_ok {path : String} {number : Nat} {reader : Reader}
    {filled : Option (Reader × Instance)} {s s' : State}
    (h : (fillBatch path number reader).run s = (.ok filled, s')) :
    ∃ a' : Assembly Graph Sampler,
      Reader.fill (Reader.start reader s.graph s.sampler .empty) = (.ok filled.isSome, a')
      ∧ (∀ next ∈ filled, next.1 = a'.reader) ∧ s'.files = s.files ∧ s'.sampler = a'.sampler := by
  unfold fillBatch at h
  obtain ⟨_, _, hget, h₁⟩ := bind_eq_ok.1 h
  obtain ⟨rfl, rfl⟩ := get_eq_ok.1 hget
  obtain ⟨_, _, hset, h₂⟩ := bind_eq_ok.1 h₁
  obtain rfl := modify_eq_ok.1 hset
  obtain ⟨more, _, hresult, h₃⟩ := bind_eq_ok.1 h₂
  obtain ⟨hmore, rfl⟩ := result_eq_ok.1 hresult
  obtain ⟨rfl, rfl⟩ := pure_eq_ok.1 h₃
  refine ⟨_, Prod.ext (hmore.trans ?_) rfl, ?_, rfl, rfl⟩
  · cases more with
    | true => rfl
    | false => rfl
  · cases more with
    | true =>
      rintro _ ⟨⟩
      rfl
    | false => exact nofun

theorem fillBatch_of_fill {path : String} {number : Nat} {reader : Reader} {s : State} {more : Bool}
    {a' : Assembly Graph Sampler}
    (hfill : Reader.fill (Reader.start reader s.graph s.sampler .empty) = (.ok more, a')) :
    (fillBatch path number reader).run s = (.ok (if more then some (a'.reader, a'.inst) else none),
      { s with graph := a'.graph, sampler := a'.sampler, events := s.events ++ a'.events }) := by
  unfold fillBatch
  rw [run_bind_of_ok (get_run s)]
  unfold Reader.start at hfill
  rw [hfill]
  rfl

/-! ## Shards of a scan -/

theorem stage_of_fillBatch {exclusion : SelfExclusion} {path : String} {number n : Nat}
    {first reader : Reader} {filled : Option (Reader × Instance)} {s s' : State}
    (hrun : (fillBatch path number reader).run s = (.ok filled, s'))
    (hstage : first.Stage (exclusion = .excludeQuery) n reader)
    (hpolicy : s.sampler.uniformPolicy? = some exclusion) :
    s'.files = s.files ∧ s'.sampler.uniformPolicy? = some exclusion
      ∧ (filled = none → first.outcomeAt n = .exhausted)
      ∧ ∀ next ∈ filled, first.outcomeAt n = .batch
        ∧ first.Stage (exclusion = .excludeQuery) (n + 1) next.1
        ∧ next.1.input.left.length < reader.input.left.length := by
  obtain ⟨a', hfill, hnext, hfiles, hsampler⟩ := fillBatch_eq_ok hrun
  have hleaves : exclusion = .excludeQuery → NegativeSampler.LeavesOut s.sampler := by
    rintro rfl
    exact Sampler.leavesOut hpolicy
  obtain ⟨houtcome, hstage'⟩ := Reader.Stage.fill_ok
    (a := Reader.start reader s.graph s.sampler .empty) hstage hleaves hfill
  have hkept := Reader.fill_keeps_part (a := Reader.start reader s.graph s.sampler .empty)
    Sampler.uniformPolicy? Sampler.uniformPolicy?_negatives
  rw [hfill] at hkept
  refine ⟨hfiles, by rw [hsampler]; exact hkept.trans hpolicy, ?_, ?_⟩
  · rintro rfl
    exact houtcome
  · intro next hsome
    have hfilled : filled.isSome = true := Option.isSome_iff_exists.2 ⟨next, hsome⟩
    rw [hfilled] at hfill houtcome
    rw [hnext next hsome]
    exact ⟨houtcome, hstage', Reader.length_left_of_fill hfill⟩

/-- The batches of a shard are read to the end, as there are no more of them than lines. -/
theorem stage_of_readBatches {exclusion : SelfExclusion} {path : String} {lines number n : Nat}
    {first reader last : Reader} {s s' : State}
    (hrun : (readBatches path lines number reader).run s = (.ok last, s'))
    (hstage : first.Stage (exclusion = .excludeQuery) n reader)
    (hpolicy : s.sampler.uniformPolicy? = some exclusion) (hlines : reader.input.left.length ≤ lines)
    (hbefore : ∀ k < n, first.outcomeAt k = .batch) :
    s'.files = s.files ∧ s'.sampler.uniformPolicy? = some exclusion
      ∧ ∃ m, first.EndsAfter m ∧ first.Stage (exclusion = .excludeQuery) m last := by
  induction lines using Nat.strong_induction_on generalizing number n reader s with
  | h lines ih =>
    unfold readBatches at hrun
    obtain ⟨filled, _, hfill, hrest⟩ := bind_eq_ok.1 hrun
    obtain ⟨hfiles, hpolicy', hnone, hsome⟩ := stage_of_fillBatch hfill hstage hpolicy
    cases filled with
    | none =>
      obtain ⟨rfl, rfl⟩ := pure_eq_ok.1 hrest
      exact ⟨hfiles, hpolicy', n, ⟨hbefore, hnone rfl⟩, hstage⟩
    | some next =>
      obtain ⟨hbatch, hstage', hlt⟩ := hsome next rfl
      cases lines with
      | zero =>
        -- the batch has read one of the lines that are left, but there are none
        omega
      | succ lines =>
        obtain ⟨hfiles', hends⟩ := ih lines (Nat.lt_succ_self lines) hrest hstage' hpolicy' (by omega)
          fun k hk => by
            rcases Nat.lt_succ_iff_lt_or_eq.1 hk with hk | rfl
            · exact hbefore k hk
            · exact hbatch
        exact ⟨hfiles'.trans hfiles, hends⟩

section Forward
variable {exclusion : SelfExclusion} {first reader : Reader} {s : State} {m n : Nat}

theorem exists_fillBatch_of_batch (path : String) (number : Nat)
    (hstage : first.Stage (exclusion = .excludeQuery) n reader)
    (hneg : fits first.config.numNeg.toNat 8) (hpolicy : s.sampler.uniformPolicy? = some exclusion)
    (houtcome : first.outcomeAt n = .batch) :
    ∃ next s', (fillBatch path number reader).run s = (.ok (some next), s') := by
  obtain ⟨a', hfill⟩ := Reader.Stage.exists_fill true
    (a := Reader.start reader s.graph s.sampler .empty) hstage hneg hpolicy houtcome
  exact ⟨_, _, fillBatch_of_fill hfill⟩

theorem exists_fillBatch_of_exhausted (path : String) (number : Nat)
    (hstage : first.Stage (exclusion = .excludeQuery) n reader)
    (hneg : fits first.config.numNeg.toNat 8) (hpolicy : s.sampler.uniformPolicy? = some exclusion)
    (houtcome : first.outcomeAt n = .exhausted) :
    ∃ s', (fillBatch path number reader).run s = (.ok none, s') := by
  obtain ⟨a', hfill⟩ := Reader.Stage.exists_fill false
    (a := Reader.start reader s.graph s.sampler .empty) hstage hneg hpolicy houtcome
  exact ⟨_, fillBatch_of_fill hfill⟩

theorem exists_readBatches (path : String) (lines number : Nat) (hends : first.EndsAfter m) (hn : n ≤ m)
    (hstage : first.Stage (exclusion = .excludeQuery) n reader)
    (hneg : fits first.config.numNeg.toNat 8) (hpolicy : s.sampler.uniformPolicy? = some exclusion) :
    ∃ last s', (readBatches path lines number reader).run s = (.ok last, s') := by
  induction lines using Nat.strong_induction_on generalizing number n reader s with
  | h lines ih =>
    unfold readBatches
    rcases Nat.lt_or_eq_of_le hn with hlt | rfl
    · obtain ⟨next, t, hfill⟩ :=
        exists_fillBatch_of_batch path number hstage hneg hpolicy (hends.1 n hlt)
      obtain ⟨-, hpolicy', -, hnext⟩ := stage_of_fillBatch hfill hstage hpolicy
      obtain ⟨-, hstage', -⟩ := hnext next rfl
      rw [run_bind_of_ok hfill]
      cases lines with
      | zero => exact ⟨_, _, rfl⟩
      | succ lines => exact ih lines (Nat.lt_succ_self lines) (number + 1) hlt hstage' hpolicy'
    · obtain ⟨t, hfill⟩ :=
        exists_fillBatch_of_exhausted path number hstage hneg hpolicy hends.2
      rw [run_bind_of_ok hfill]
      exact ⟨_, _, rfl⟩

end Forward

/-- The same input, and the same totals in the sense of `Stats.Agree`. -/
structure ShardSummary.Agree (exclusion : SelfExclusion) (shard shard' : ShardSummary) : Prop where
  input_eq : shard.input = shard'.input
  stats : shard.stats.Agree exclusion shard'.stats

/-- A shard with the totals that its input leads to, read to the end by a reader of its own. -/
def ReadThrough (config : Config) (files : Files) (exclusion : SelfExclusion) (path : String)
    (shard : ShardSummary) : Prop :=
  ∃ (location : Location) (place : Place) (first last : Reader) (created : List Event) (calls : Nat),
    files.find path = .ok (location, place)
    ∧ Reader.create config {} (.ofLines place.lines) = .ok (first, created)
    ∧ first.EndsAfter calls ∧ first.Stage (exclusion = .excludeQuery) calls last
    ∧ shard = ⟨path, last.stats⟩

/-- The input says what the totals of a shard are, but for negatives that equal their destination where a
query may be its own. -/
theorem ReadThrough.agree {config : Config} {files : Files} {exclusion : SelfExclusion} {path : String}
    {shard shard' : ShardSummary} (h : ReadThrough config files exclusion path shard)
    (h' : ReadThrough config files exclusion path shard') : shard.Agree exclusion shard' := by
  obtain ⟨location, place, first, last, created, calls, hfind, hcreate, hends, hstage, rfl⟩ := h
  obtain ⟨_, _, _, last', _, calls', hfind', hcreate', hends', hstage', rfl⟩ := h'
  obtain ⟨rfl, rfl⟩ := Prod.mk.inj (Except.ok.inj (hfind.symm.trans hfind'))
  obtain ⟨rfl, rfl⟩ := Prod.mk.inj (Except.ok.inj (hcreate.symm.trans hcreate'))
  obtain rfl := hends.unique hends'
  exact ⟨rfl, hstage.agree hstage'⟩

theorem readThrough_of_readShard {config : Config} {exclusion : SelfExclusion} {path : String}
    {shard : ShardSummary} {s s' : State} (hrun : (readShard config path none).run s = (.ok shard, s'))
    (hpolicy : s.sampler.uniformPolicy? = some exclusion) :
    s'.files = s.files ∧ s'.sampler.uniformPolicy? = some exclusion
      ∧ ReadThrough config s.files exclusion path shard := by
  unfold readShard at hrun
  obtain ⟨_, _, hget, hrun₁⟩ := bind_eq_ok.1 hrun
  obtain ⟨rfl, rfl⟩ := get_eq_ok.1 hget
  obtain ⟨⟨location, place⟩, _, hfound, hrun₂⟩ := bind_eq_ok.1 hrun₁
  obtain ⟨hfind, rfl⟩ := result_eq_ok.1 hfound
  obtain ⟨_, _, hopened, hrun₃⟩ := bind_eq_ok.1 hrun₂
  obtain ⟨⟨first, created⟩, _, hmade, hrun₄⟩ := bind_eq_ok.1 hrun₃
  obtain ⟨hcreate, rfl⟩ := result_eq_ok.1 hmade
  obtain ⟨_, t, hcreated, hrun₅⟩ := bind_eq_ok.1 hrun₄
  obtain ⟨filled, t', hfill, hrun₆⟩ := bind_eq_ok.1 hrun₅
  -- until the first batch is filled the files and the sampler are left alone
  have ht : t.files = s.files ∧ t.sampler = s.sampler := by
    rw [modify_eq_ok.1 hcreated, modify_eq_ok.1 hopened]
    exact ⟨rfl, rfl⟩
  rw [← ht.2] at hpolicy
  rw [← ht.1] at hfind ⊢
  obtain ⟨hfiles, hpolicy', hnone, hsome⟩ := stage_of_fillBatch hfill (.start first _) hpolicy
  cases filled with
  | none =>
    obtain ⟨rfl, rfl⟩ := pure_eq_ok.1 hrun₆
    exact ⟨hfiles, hpolicy', location, place, first, first, created, 0, hfind, hcreate,
      ⟨fun _ hk => absurd hk (Nat.not_lt_zero _), hnone rfl⟩, .start first _, rfl⟩
  | some next =>
    obtain ⟨hbatch, hstage, -⟩ := hsome next rfl
    obtain ⟨_, _, hkeep, hrun₇⟩ := bind_eq_ok.1 hrun₆
    obtain ⟨rfl, rfl⟩ := pure_eq_ok.1 hkeep
    obtain ⟨last, _, hbatches, hrun₈⟩ := bind_eq_ok.1 hrun₇
    obtain ⟨rfl, rfl⟩ := pure_eq_ok.1 hrun₈
    obtain ⟨hfiles', hpolicy'', calls, hends, hlast⟩ := stage_of_readBatches hbatches hstage
      hpolicy' (Nat.le_refl _) fun k hk => by
        obtain rfl := Nat.lt_one_iff.1 hk
        exact hbatch
    exact ⟨hfiles'.trans hfiles, hpolicy'', location, place, first, last, created, calls, hfind, hcreate,
      hends, hlast, rfl⟩

theorem ReadThrough.exists_readShard {config : Config} {files : Files} {exclusion : SelfExclusion}
    {path : String} {shard : ShardSummary} {s : State} (h : ReadThrough config files exclusion path shard)
    (hneg : fits config.numNeg.toNat 8) (hfiles : s.files = files)
    (hpolicy : s.sampler.uniformPolicy? = some exclusion) :
    ∃ shard' s', (readShard config path none).run s = (.ok shard', s') := by
  obtain ⟨location, place, first, -, created, calls, hfind, hcreate, hends, -, -⟩ := h
  obtain ⟨-, hfirst, -⟩ := Reader.create_eq_ok.1 hcreate
  have hconfig : first.config = config := by rw [hfirst]
  rw [← hconfig] at hneg
  unfold readShard
  rw [run_bind_of_ok (get_run s), hfiles, run_bind_of_ok (result_eq_ok.2 ⟨hfind, rfl⟩)]
  dsimp only
  rw [run_bind_of_ok (tell_run _ _), run_bind_of_ok (result_eq_ok.2 ⟨hcreate, rfl⟩)]
  dsimp only
  rw [run_bind_of_ok (tell_run _ _)]
  generalize hafter : State.mk _ _ _ _ = t
  replace hpolicy : t.sampler.uniformPolicy? = some exclusion := by
    rw [← hafter]
    exact hpolicy
  cases calls with
  | zero =>
    obtain ⟨t', hfill⟩ :=
      exists_fillBatch_of_exhausted path 0 (.start first _) hneg hpolicy hends.2
    rw [run_bind_of_ok hfill]
    exact ⟨_, _, rfl⟩
  | succ calls =>
    obtain ⟨⟨reader, inst⟩, t', hfill⟩ := exists_fillBatch_of_batch path 0 (.start first _) hneg
      hpolicy (hends.1 0 (Nat.zero_lt_succ calls))
    obtain ⟨-, hpolicy', -, hnext⟩ := stage_of_fillBatch hfill (.start first _) hpolicy
    obtain ⟨-, hstage, -⟩ := hnext _ rfl
    obtain ⟨last, s', hbatches⟩ := exists_readBatches path (reader.input.rest.getD []).length 1 hends
      (Nat.succ_le_succ (Nat.zero_le _)) hstage hneg hpolicy'
    rw [run_bind_of_ok hfill]
    dsimp only
    rw [run_bind_of_ok (pure_run _ _), run_bind_of_ok hbatches]
    exact ⟨_, _, rfl⟩

theorem readThrough_of_readShards {config : Config} {exclusion : SelfExclusion} {paths : List String}
    {shards : List ShardSummary} {s s' : State}
    (hrun : (readShards config paths none).run s = (.ok shards, s'))
    (hpolicy : s.sampler.uniformPolicy? = some exclusion) :
    List.Forall₂ (ReadThrough config s.files exclusion) paths shards := by
  induction paths generalizing shards s s' with
  | nil =>
    obtain ⟨rfl, -⟩ := pure_eq_ok.1 hrun
    exact .nil
  | cons path paths ih =>
    unfold readShards at hrun
    obtain ⟨shard, _, hshard, hrun₁⟩ := bind_eq_ok.1 hrun
    obtain ⟨rest, _, hrest, hrun₂⟩ := bind_eq_ok.1 hrun₁
    obtain ⟨rfl, -⟩ := pure_eq_ok.1 hrun₂
    obtain ⟨hfiles, hpolicy', hread⟩ := readThrough_of_readShard hshard hpolicy
    have hall := ih hrest hpolicy'
    rw [hfiles] at hall
    exact .cons hread hall

theorem exists_readShards {config : Config} {files : Files} {exclusion : SelfExclusion}
    {paths : List String} {shards : List ShardSummary} {s : State}
    (h : List.Forall₂ (ReadThrough config files exclusion) paths shards)
    (hneg : fits config.numNeg.toNat 8) (hfiles : s.files = files)
    (hpolicy : s.sampler.uniformPolicy? = some exclusion) :
    ∃ shards' s', (readShards config paths none).run s = (.ok shards', s') := by
  induction h generalizing s with
  | nil => exact ⟨[], s, rfl⟩
  | cons hread _ ih =>
    obtain ⟨shard, t, hshard⟩ := hread.exists_readShard hneg hfiles hpolicy
    obtain ⟨hfiles', hpolicy', -⟩ := readThrough_of_readShard hshard hpolicy
    obtain ⟨rest, s', hrest⟩ := ih (hfiles'.trans hfiles) hpolicy'
    unfold readShards
    rw [run_bind_of_ok hshard, run_bind_of_ok hrest]
    exact ⟨_, _, rfl⟩

/-! ## Scans -/

/-- What a scan needs before it reads its inputs: a kind of reader, a configuration and a graph. -/
structure Opens (args : Arguments) (files : Files) (kind : ReaderKind) (config : Config) : Prop where
  kind_eq : ReaderKind.ofName args.reader = .ok kind
  config_eq : (args.readerConfig files).1 = .ok config
  graph : ∃ lines graph, files.lines args.graph = .ok lines
    ∧ Graph.ofLines (!args.directed) lines = .ok graph

theorem loadGraph_eq_ok {args : Arguments} {s s' : State} (hrun : (loadGraph args).run s = (.ok (), s')) :
    s'.files = s.files ∧ ∃ lines graph, s.files.lines args.graph = .ok lines
      ∧ Graph.ofLines (!args.directed) lines = .ok graph := by
  unfold loadGraph at hrun
  obtain ⟨_, _, hget, hrun₁⟩ := bind_eq_ok.1 hrun
  obtain ⟨rfl, rfl⟩ := get_eq_ok.1 hget
  obtain ⟨lines, _, hread, hrun₂⟩ := bind_eq_ok.1 hrun₁
  obtain ⟨hlines, rfl⟩ := result_eq_ok.1 hread
  obtain ⟨graph, _, hbuilt, hrun₃⟩ := bind_eq_ok.1 hrun₂
  obtain ⟨hgraph, rfl⟩ := result_eq_ok.1 hbuilt
  obtain ⟨_, _, hloaded, hrun₄⟩ := bind_eq_ok.1 hrun₃
  rw [modify_eq_ok.1 hrun₄, modify_eq_ok.1 hloaded]
  exact ⟨rfl, lines, graph, hlines, hgraph⟩

theorem exists_loadGraph {args : Arguments} {s : State} {lines : List Line} {graph : Graph}
    (hlines : s.files.lines args.graph = .ok lines)
    (hgraph : Graph.ofLines (!args.directed) lines = .ok graph) :
    ∃ s', (loadGraph args).run s = (.ok (), s') := by
  unfold loadGraph
  rw [run_bind_of_ok (get_run s)]
  dsimp only
  rw [run_bind_of_ok (result_eq_ok.2 ⟨hlines, rfl⟩), run_bind_of_ok (result_eq_ok.2 ⟨hgraph, rfl⟩),
    run_bind_of_ok (tell_run _ _)]
  exact ⟨_, rfl⟩

def total (shards : List ShardSummary) : Stats :=
  shards.foldl (fun total shard => total.merge shard.stats) {}

/-- A scan reads its inputs from a state with its files and its sampler, and sums up their totals. -/
theorem run_eq_ok {args : Arguments} {files : Files} {summary : Summary} {last : State}
    (hrun : run args files = (.ok summary, last)) : ∃ kind config s s',
      Opens args files kind config ∧ s.files = files ∧ s.sampler = args.samplingSettings.build
      ∧ (readShards config args.inputs args.dumpFirst).run s = (.ok summary.shards, s')
      ∧ summary.total = total summary.shards := by
  unfold run scan at hrun
  obtain ⟨kind, _, hnamed, hrun₁⟩ := bind_eq_ok.1 hrun
  obtain ⟨hkind, rfl⟩ := result_eq_ok.1 hnamed
  obtain ⟨_, _, hget, hrun₂⟩ := bind_eq_ok.1 hrun₁
  obtain ⟨rfl, rfl⟩ := get_eq_ok.1 hget
  obtain ⟨_, t, hitems, hrun₃⟩ := bind_eq_ok.1 hrun₂
  obtain ⟨config, _, haccepted, hrun₄⟩ := bind_eq_ok.1 hrun₃
  obtain ⟨hconfig, rfl⟩ := result_eq_ok.1 haccepted
  obtain ⟨_, u, hstarted, hrun₅⟩ := bind_eq_ok.1 hrun₄
  obtain ⟨_, _, hload, hrun₆⟩ := bind_eq_ok.1 hrun₅
  obtain ⟨_, s, hset, hrun₇⟩ := bind_eq_ok.1 hrun₆
  obtain ⟨shards, s', hshards, hrun₈⟩ := bind_eq_ok.1 hrun₇
  obtain ⟨_, _, -, hrun₉⟩ := bind_eq_ok.1 hrun₈
  obtain ⟨rfl, -⟩ := pure_eq_ok.1 hrun₉
  obtain ⟨hfiles, hgraph⟩ := loadGraph_eq_ok hload
  have hu : u.files = files := by rw [modify_eq_ok.1 hstarted, modify_eq_ok.1 hitems]
  rw [hu] at hfiles hgraph
  refine ⟨kind, config, s, s', ⟨hkind, hconfig, hgraph⟩, ?_, ?_, hshards, rfl⟩
  · rw [modify_eq_ok.1 hset]
    exact hfiles
  · rw [modify_eq_ok.1 hset]

/-- A scan that can open everything ends with the totals of the shards that are read from its state. -/
theorem Opens.exists_run {args : Arguments} {files : Files} {kind : ReaderKind} {config : Config}
    (h : Opens args files kind config) : ∃ s : State,
      s.files = files ∧ s.sampler = args.samplingSettings.build
      ∧ ∀ shards s', (readShards config args.inputs args.dumpFirst).run s = (.ok shards, s') →
        ∃ last, run args files = (.ok ⟨kind, shards, total shards⟩, last) := by
  obtain ⟨hkind, hconfig, lines, graph, hlines, hgraph⟩ := h
  unfold run scan
  rw [run_bind_of_ok (result_eq_ok.2 ⟨hkind, rfl⟩), run_bind_of_ok (get_run _)]
  dsimp only
  rw [run_bind_of_ok (tell_run _ _), run_bind_of_ok (result_eq_ok.2 ⟨hconfig, rfl⟩),
    run_bind_of_ok (tell_run _ _)]
  generalize ht : State.mk _ _ _ _ = t
  have hfiles : t.files = files := by rw [← ht]
  obtain ⟨t', hload⟩ := exists_loadGraph (hfiles ▸ hlines) hgraph
  rw [run_bind_of_ok hload, run_bind_of_ok (modify_run _ _)]
  refine ⟨{ t' with sampler := args.samplingSettings.build },
    (loadGraph_eq_ok hload).1.trans hfiles, rfl, fun shards s' hshards => ?_⟩
  rw [run_bind_of_ok hshards]
  exact ⟨_, rfl⟩

end Scan

end BipartiteBatch
