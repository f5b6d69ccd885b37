import BipartiteBatch.Proofs.Advance
import Mathlib.Logic.Function.Basic

/-!
# Shards over one graph and one sampler

Several readers, each over an input of its own, ask one graph and one sampler in any order of calls. What a
call draws depends on the calls before it, of all readers; how it ends and what it counts does not.

* `Reader.stage_after` : the stages of a reader that is read alone;
* `Reader.outcome_ne_aborted` : no call over a text aborts if the buffers have room;
* `Shards` : the readers with their graph and their sampler, `Shards.run` : calls in any order;
* `Shards.stage_run` : each reader is at the stage of its own calls;
* `Shards.run_eq_alone` : it ends its calls and counts as it does alone.
-/

namespace BipartiteBatch

namespace Reader

variable {γ : Type} [GraphClient γ]

section Alone
variable {a : Assembly γ UniformSampler}

theorem exclusion_after (a : Assembly γ UniformSampler) (n : Nat) :
    (after a n).sampler.exclusion = a.sampler.exclusion := by
  induction n with
  | zero => rfl
  | succ n ih =>
    exact (fill_keeps_part UniformSampler.exclusion fun _ _ _ => rfl).trans ih

theorem stage_after [GraphClient.Answering γ] (hneg : fits a.reader.config.numNeg.toNat 8) (n : Nat) :
    Stage a.reader (a.sampler.exclusion = .excludeQuery) n (after a n).reader
      ∧ ∀ k < n, Outcome.of (outcome a k) = a.reader.outcomeAt k := by
  induction n with
  | zero => exact ⟨.start _ _, fun _ hk => absurd hk (Nat.not_lt_zero _)⟩
  | succ n ih =>
    obtain ⟨houtcome, hstage⟩ := ih.1.fill hneg fun hexclude =>
      UniformSampler.leavesOut ((exclusion_after a n).trans hexclude)
    refine ⟨hstage, fun k hk => ?_⟩
    rcases Nat.lt_succ_iff_lt_or_eq.1 hk with hk | rfl
    · exact ih.2 k hk
    · exact houtcome

theorem advanceBy_ne_aborted {ρ : Type} [Record ρ] {known : ρ → Prop} [DecidablePred known]
    {rowsPer : Nat} {r : Reader} (hnext : ∃ taken input events,
      r.input.next ρ r.config.batch.toNat = (.ok taken, input, events)) :
    (r.advanceBy known rowsPer).1 ≠ .aborted := by
  obtain ⟨taken, input, events, hnext⟩ := hnext
  cases taken with
  | none =>
    rw [advanceBy_of_none hnext]
    exact nofun
  | some records =>
    by_cases hknown : ∀ record ∈ records, known record
    · rw [advanceBy_of_known hnext hknown]
      exact nofun
    · rw [advanceBy_of_unknown hnext hknown]
      exact nofun

/-- If its buffers have room, no call over a text aborts. -/
theorem outcome_ne_aborted [GraphClient.Answering γ] {text : String}
    (hinput : a.reader.input = .ofBytes text.toByteArray) (hcheck : a.reader.config.check = .ok ())
    (hfits : fits a.reader.config.batch.toNat a.reader.config.mode.width)
    (hneg : fits a.reader.config.numNeg.toNat 8) (n : Nat) : Outcome.of (outcome a n) ≠ .aborted := by
  have hmoved := (Reachable.after (a := a) .start n).moved (batch_pos_of_check hcheck)
  obtain ⟨read, hreads⟩ := hmoved.reads
  rw [hinput] at hreads
  obtain ⟨hstage, -⟩ := stage_after hneg n
  have houtcome := (stage_after hneg (n + 1)).2 n (Nat.lt_succ_self n)
  rw [houtcome, ← hstage.outcome_eq]
  have hconfig := hmoved.config_eq
  unfold Config.mode at hfits
  cases hmode : a.reader.config.isTrain with
  | true =>
    rw [hmode] at hfits
    rw [advance_train (by rw [hconfig, hmode])]
    exact advanceBy_ne_aborted (exists_next_of_text hconfig hcheck hreads hfits)
  | false =>
    rw [hmode] at hfits
    rw [advance_predict (by rw [hconfig, hmode])]
    exact advanceBy_ne_aborted (exists_next_of_text hconfig hcheck hreads hfits)

end Alone

end Reader

/-! ## Shards -/

/-- Readers with their instances and how their calls ended so far, and the graph and the sampler that they
all ask. -/
structure Shards (ι γ σ : Type) where
  reader : ι → Reader
  inst : ι → Instance
  outcomes : ι → List Outcome
  graph : γ
  sampler : σ

namespace Shards

variable {ι γ σ : Type} [DecidableEq ι] [GraphClient γ]

def start (readers : ι → Reader) (graph : γ) (sampler : σ) : Shards ι γ σ where
  reader := readers
  inst _ := .empty
  outcomes _ := []
  graph := graph
  sampler := sampler

def call [NegativeSampler σ] (s : Shards ι γ σ) (i : ι) : Shards ι γ σ :=
  let filled := Reader.fill (Reader.start (s.reader i) s.graph s.sampler (s.inst i))
  { reader := Function.update s.reader i filled.2.reader
    inst := Function.update s.inst i filled.2.inst
    outcomes := Function.update s.outcomes i (s.outcomes i ++ [.of filled.1])
    graph := filled.2.graph
    sampler := filled.2.sampler }

def run [NegativeSampler σ] (s : Shards ι γ σ) (schedule : List ι) : Shards ι γ σ := schedule.foldl call s

theorem run_concat [NegativeSampler σ] (s : Shards ι γ σ) (schedule : List ι) (i : ι) :
    s.run (schedule ++ [i]) = (s.run schedule).call i := List.foldl_concat ..

variable {readers : ι → Reader} (graph : γ) (sampler : UniformSampler)

theorem exclusion_run (s : Shards ι γ UniformSampler) (schedule : List ι) :
    (s.run schedule).sampler.exclusion = s.sampler.exclusion := by
  induction schedule using List.reverseRecOn with
  | nil => rfl
  | append_singleton schedule i ih =>
    rw [run_concat]
    exact (Reader.fill_keeps_part UniformSampler.exclusion fun _ _ _ => rfl).trans ih

/-- Each reader is at the stage of its own calls, and these have ended as its calls do. -/
theorem stage_run [GraphClient.Answering γ] {i : ι}
    (hneg : fits (readers i).config.numNeg.toNat 8) (schedule : List ι) :
    ((start readers graph sampler).run schedule).outcomes i
        = (List.range (schedule.count i)).map (readers i).outcomeAt
      ∧ (readers i).Stage (sampler.exclusion = .excludeQuery) (schedule.count i)
        (((start readers graph sampler).run schedule).reader i) := by
  induction schedule using List.reverseRecOn with
  | nil => exact ⟨rfl, .start _ _⟩
  | append_singleton schedule j ih =>
    rw [run_concat, List.count_append, List.count_singleton]
    have hexclusion := exclusion_run (start readers graph sampler) schedule
    generalize (start readers graph sampler).run schedule = s at ih hexclusion
    obtain ⟨houtcomes, hstage⟩ := ih
    -- a call of another reader changes nothing here but the graph and the sampler
    by_cases hj : j = i
    · subst hj
      rw [if_pos (beq_self_eq_true j), List.range_succ, List.map_append, ← houtcomes]
      have hcall := Reader.Stage.fill
        (a := Reader.start (s.reader j) s.graph s.sampler (s.inst j)) hstage hneg
        fun hexclude => UniformSampler.leavesOut (hexclusion.trans hexclude)
      unfold call
      dsimp only
      rw [Function.update_self, Function.update_self, hcall.1]
      exact ⟨rfl, hcall.2⟩
    · rw [if_neg (by simpa using hj)]
      unfold call
      dsimp only
      rw [Function.update_of_ne (Ne.symm hj), Function.update_of_ne (Ne.symm hj)]
      exact ⟨houtcomes, hstage⟩

/-- Each reader ends its calls as it does alone with any graph and any sampler of the same policy, and counts
the same, but for negatives that equal their destination where these may be drawn. -/
theorem run_eq_alone [GraphClient.Answering γ] {γ' : Type} [GraphClient γ'] [GraphClient.Answering γ']
    {i : ι} (hneg : fits (readers i).config.numNeg.toNat 8) (schedule : List ι) (graph' : γ') (sampler' : UniformSampler) (inst : Instance)
    (hexclusion : sampler'.exclusion = sampler.exclusion) :
    ((start readers graph sampler).run schedule).outcomes i
        = (List.range (schedule.count i)).map (fun n =>
          .of (Reader.outcome (Reader.start (readers i) graph' sampler' inst) n))
      ∧ (((start readers graph sampler).run schedule).reader i).stats.Agree sampler.exclusion
        (Reader.after (Reader.start (readers i) graph' sampler' inst) (schedule.count i)).reader.stats := by
  obtain ⟨houtcomes, hstage⟩ := stage_run graph sampler hneg schedule
  obtain ⟨hstage', houtcomes'⟩ := Reader.stage_after
    (a := Reader.start (readers i) graph' sampler' inst) hneg (schedule.count i)
  rw [show (Reader.start (readers i) graph' sampler' inst).sampler.exclusion = sampler.exclusion
    from hexclusion] at hstage'
  refine ⟨?_, hstage.agree hstage'⟩
  rw [houtcomes, List.map_inj_left]
  intro n hn
  exact (houtcomes' n (List.mem_range.1 hn)).symm

end Shards

end BipartiteBatch
