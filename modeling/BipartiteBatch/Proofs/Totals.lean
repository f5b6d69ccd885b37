import BipartiteBatch.Proofs.Scans
import Mathlib.Data.UInt

/-!
# Totals over shards

The totals of a scan are the sums of those of its shards, counter by counter. Neither the order of the
shards nor the seeds matter to them, and each shard has the totals that its input has when it is read alone.

* `Stats.sum` : the sum of totals, `Stats.sum_perm` : it does not depend on their order;
* `Scan.run_perm` : a scan with its inputs in another order and with other seeds;
* `Scan.ReadThrough.readAlone` : a shard of a scan and a reader of the same input alone;
* `Shards.stats_independent` : statistics of shards do not depend on how these interleave.
-/

namespace BipartiteBatch

/-! ## Sums of totals -/

namespace Stats

theorem zero_merge (s : Stats) : ({} : Stats).merge s = s := by
  simp only [merge, UInt64.zero_add]

theorem merge_comm (s t : Stats) : s.merge t = t.merge s := by
  simp only [merge, UInt64.add_comm]

theorem merge_assoc (s t u : Stats) : (s.merge t).merge u = s.merge (t.merge u) := by
  simp only [merge, UInt64.add_assoc]

def sum (totals : List Stats) : Stats where
  batches := (totals.map Stats.batches).sum
  records := (totals.map Stats.records).sum
  rows := (totals.map Stats.rows).sum
  invalidNodes := (totals.map Stats.invalidNodes).sum
  selfNegatives := (totals.map Stats.selfNegatives).sum

theorem sum_nil : sum [] = {} := rfl

theorem sum_cons (s : Stats) (totals : List Stats) : sum (s :: totals) = s.merge (sum totals) := by
  simp only [sum, merge, List.map_cons, List.sum_cons]

theorem foldl_merge (s : Stats) (totals : List Stats) :
    totals.foldl merge s = s.merge (sum totals) := by
  induction totals generalizing s with
  | nil => rw [List.foldl_nil, sum_nil, merge_comm, zero_merge]
  | cons t totals ih => rw [List.foldl_cons, ih, sum_cons, merge_assoc]

theorem sum_perm {totals totals' : List Stats} (h : totals.Perm totals') : sum totals = sum totals' := by
  induction h with
  | nil => rfl
  | cons s _ ih => rw [sum_cons, sum_cons, ih]
  | swap s t totals =>
    rw [sum_cons, sum_cons, sum_cons, sum_cons, ← merge_assoc, ← merge_assoc, merge_comm t s]
  | trans _ _ ih ih' => exact ih.trans ih'

variable {exclusion : SelfExclusion} {s s' t t' : Stats}

theorem Agree.refl (s : Stats) : s.Agree exclusion s := ⟨rfl, rfl, rfl, rfl, fun _ => rfl⟩

theorem Agree.eq (h : s.Agree .excludeQuery s') : s = s' := by
  obtain ⟨batches, records, rows, invalidNodes, selfNegatives⟩ := s
  obtain ⟨rfl, rfl, rfl, rfl, hself⟩ := h
  obtain rfl := hself rfl
  rfl

theorem Agree.merge (h : s.Agree exclusion s') (h' : t.Agree exclusion t') :
    (s.merge t).Agree exclusion (s'.merge t') where
  batches_eq := congrArg₂ (· + ·) h.batches_eq h'.batches_eq
  records_eq := congrArg₂ (· + ·) h.records_eq h'.records_eq
  rows_eq := congrArg₂ (· + ·) h.rows_eq h'.rows_eq
  invalidNodes_eq := congrArg₂ (· + ·) h.invalidNodes_eq h'.invalidNodes_eq
  selfNegatives_eq hexclude :=
    congrArg₂ (· + ·) (h.selfNegatives_eq hexclude) (h'.selfNegatives_eq hexclude)

end Stats

namespace Scan

variable {exclusion : SelfExclusion} {shards shards' : List ShardSummary}

theorem total_eq_sum (shards : List ShardSummary) :
    total shards = .sum (shards.map ShardSummary.stats) := by
  rw [total, ← List.foldl_map, Stats.foldl_merge, Stats.zero_merge]

theorem total_perm (h : shards.Perm shards') : total shards = total shards' := by
  rw [total_eq_sum, total_eq_sum, Stats.sum_perm (h.map ShardSummary.stats)]

theorem agree_total (h : List.Forall₂ (ShardSummary.Agree exclusion) shards shards') :
    (total shards).Agree exclusion (total shards') := by
  rw [total_eq_sum, total_eq_sum]
  induction h with
  | nil => exact .refl _
  | cons hshard _ ih =>
    rw [List.map_cons, List.map_cons, Stats.sum_cons, Stats.sum_cons]
    exact hshard.stats.merge ih

/-! ## Shards of a scan -/

section Runs
variable {args : Arguments} {files : Files} {summary : Summary} {last : State} {config : Config}

theorem uniformPolicy?_build {settings : SamplingSettings} (huniform : settings.strategy = .uniform) :
    settings.build.uniformPolicy? = some settings.selfExclusion := by
  unfold SamplingSettings.build
  rw [huniform]
  rfl

theorem forall₂_readThrough (hrun : run args files = (.ok summary, last))
    (huniform : args.strategy = .uniform) (hdump : args.dumpFirst = none)
    (hconfig : (args.readerConfig files).1 = .ok config) :
    List.Forall₂ (ReadThrough config files args.samplingSettings.selfExclusion) args.inputs
      summary.shards := by
  obtain ⟨kind, config', s, s', hopens, hfiles, hsampler, hshards, -⟩ := run_eq_ok hrun
  obtain rfl := Except.ok.inj (hopens.config_eq.symm.trans hconfig)
  rw [hdump] at hshards
  rw [← hfiles]
  apply readThrough_of_readShards hshards
  rw [hsampler]
  exact uniformPolicy?_build huniform

theorem forall₂_agree {paths : List String}
    (h : List.Forall₂ (ReadThrough config files exclusion) paths shards)
    (h' : List.Forall₂ (ReadThrough config files exclusion) paths shards') :
    List.Forall₂ (ShardSummary.Agree exclusion) shards shards' := by
  induction h generalizing shards' with
  | nil =>
    cases h'
    exact .nil
  | cons hread _ ih =>
    obtain _ | ⟨hread', hrest⟩ := h'
    exact .cons (hread.agree hread') (ih hrest)

/-- A scan with its inputs in another order, another seed and another number of workers gives the same
shards in that order, and the same total. -/
theorem run_perm (hrun : run args files = (.ok summary, last)) (huniform : args.strategy = .uniform)
    (hdump : args.dumpFirst = none) (hconfig : (args.readerConfig files).1 = .ok config)
    (hneg : fits config.numNeg.toNat 8) {inputs : List String} (hinputs : inputs.Perm args.inputs)
    (seed workers : UInt64) : ∃ summary' last' shards,
      run { args with inputs, seed, workers } files = (.ok summary', last')
      ∧ shards.Perm summary.shards
      ∧ List.Forall₂ (ShardSummary.Agree args.samplingSettings.selfExclusion) summary'.shards shards
      ∧ summary'.total.Agree args.samplingSettings.selfExclusion summary.total := by
  obtain ⟨kind, config', -, -, hopens, -, -, -, htotal⟩ := run_eq_ok hrun
  obtain rfl := Except.ok.inj (hopens.config_eq.symm.trans hconfig)
  obtain ⟨shards, hshards, hperm⟩ :=
    List.perm_comp_forall₂ hinputs (forall₂_readThrough hrun huniform hdump hconfig)
  have hopens' : Opens { args with inputs, seed, workers } files kind config' :=
    ⟨hopens.kind_eq, hopens.config_eq, hopens.graph⟩
  obtain ⟨s, hfiles, hsampler, hend⟩ := hopens'.exists_run
  have hpolicy : s.sampler.uniformPolicy? = some args.samplingSettings.selfExclusion := by
    rw [hsampler]
    exact uniformPolicy?_build huniform
  obtain ⟨shards', s', hread⟩ := exists_readShards hshards hneg hfiles hpolicy
  have hshards' := readThrough_of_readShards hread hpolicy
  rw [hfiles] at hshards'
  obtain ⟨last', hrun'⟩ := hend shards' s' (by rw [hdump]; exact hread)
  have hagree := forall₂_agree hshards' hshards
  refine ⟨_, last', shards, hrun', hperm, hagree, ?_⟩
  rw [htotal, ← total_perm hperm]
  exact agree_total hagree

end Runs

/-- Whatever the seeds are, the input of a shard has the totals of the shard when a reader of its own reads it
to the end. -/
def ReadAlone (config : Config) (files : Files) (exclusion : SelfExclusion) (shard : ShardSummary) : Prop :=
  ∃ (location : Location) (place : Place) (reader : Reader) (created : List Event) (calls : Nat),
    files.find shard.input = .ok (location, place)
    ∧ Reader.create config {} (.ofLines place.lines) = .ok (reader, created)
    ∧ ∀ (graph : Graph) (sampler : UniformSampler) (inst : Instance), sampler.exclusion = exclusion →
      (∀ k < calls, Reader.outcome (Reader.start reader graph sampler inst) k = .ok true)
      ∧ Reader.outcome (Reader.start reader graph sampler inst) calls = .ok false
      ∧ shard.stats.Agree exclusion
        (Reader.after (Reader.start reader graph sampler inst) calls).reader.stats

theorem ReadThrough.readAlone {config : Config} {files : Files} {path : String} {shard : ShardSummary}
    (h : ReadThrough config files exclusion path shard) (hneg : fits config.numNeg.toNat 8) :
    shard.input = path ∧ ReadAlone config files exclusion shard := by
  obtain ⟨location, place, first, last, created, calls, hfind, hcreate, hends, hstage, rfl⟩ := h
  obtain ⟨-, hfirst, -⟩ := Reader.create_eq_ok.1 hcreate
  have hconfig : first.config = config := by rw [hfirst]
  rw [← hconfig] at hneg
  refine ⟨rfl, location, place, first, created, calls, hfind, hcreate, ?_⟩
  rintro graph sampler inst rfl
  obtain ⟨hstage', -⟩ := Reader.stage_after (a := Reader.start first graph sampler inst) hneg calls
  obtain ⟨-, houtcomes⟩ :=
    Reader.stage_after (a := Reader.start first graph sampler inst) hneg (calls + 1)
  refine ⟨fun k hk => ?_, ?_, hstage.agree hstage'⟩
  · exact Outcome.of_eq_of_ok.1 ((houtcomes k (by omega)).trans (hends.1 k hk))
  · exact Outcome.of_eq_of_ok.1 ((houtcomes calls (by omega)).trans hends.2)

end Scan

namespace Shards

open Scan

variable {ι : Type} [DecidableEq ι]

/-- Statistics of shards do not depend on how these interleave. Readers of texts that share a graph and a
uniform sampler end their calls and count as each of them does alone, with any other seeds; where a query may
be its own negative, this holds of all counters but that of such negatives. A scan gives the sums of the
counters of its shards, in whatever order these are summed up. If it keeps no batch, they are the counters of
its inputs alone, and it gives the same with its inputs in another order and with another seed. -/
theorem stats_independent {texts : ι → String} {config : Config} {slots : SlotNames}
    {readers : ι → Reader} {created : ι → List Event}
    (hcreate : ∀ i, Reader.create config slots (.ofBytes (texts i).toByteArray)
      = .ok (readers i, created i))
    (hbatch : fits config.batch.toNat config.mode.width) (hneg : fits config.numNeg.toNat 8) :
    (∀ (graph : Graph) (sampler : UniformSampler) (schedule : List ι) (i : ι) (graph' : Graph)
      (sampler' : UniformSampler) (inst : Instance), sampler'.exclusion = sampler.exclusion →
      let pool := (start readers graph sampler).run schedule
      let alone := Reader.start (readers i) graph' sampler' inst
      pool.outcomes i = (List.range (schedule.count i)).map (fun n => .of (Reader.outcome alone n))
      ∧ .aborted ∉ pool.outcomes i
      ∧ (pool.reader i).stats.Agree sampler.exclusion
        (Reader.after alone (schedule.count i)).reader.stats)
    ∧ ∀ (args : Arguments) (files : Files) (summary : Summary) (last : State),
      Scan.run args files = (.ok summary, last) →
      summary.total = .sum (summary.shards.map ShardSummary.stats)
      ∧ (∀ shards, shards.Perm summary.shards → total shards = summary.total)
      ∧ (args.strategy = .uniform → args.dumpFirst = none → (args.readerConfig files).1 = .ok config →
        List.Forall₂ (fun path shard => shard.input = path
          ∧ ReadAlone config files args.samplingSettings.selfExclusion shard) args.inputs summary.shards
        ∧ ∀ inputs : List String, inputs.Perm args.inputs → ∀ seed workers : UInt64,
          ∃ summary' last' shards,
            Scan.run { args with inputs, seed, workers } files = (.ok summary', last')
            ∧ shards.Perm summary.shards
            ∧ List.Forall₂ (ShardSummary.Agree args.samplingSettings.selfExclusion) summary'.shards shards
            ∧ summary'.total.Agree args.samplingSettings.selfExclusion summary.total) := by
  refine ⟨fun graph sampler schedule i graph' sampler' inst hexclusion => ?_,
    fun args files summary last hrun => ?_⟩
  · obtain ⟨hcheck, hreader, -⟩ := Reader.create_eq_ok.1 (hcreate i)
    have hconfig : (readers i).config = config := by rw [hreader]
    have hinput : (readers i).input = .ofBytes (texts i).toByteArray := by rw [hreader]
    rw [← hconfig] at hcheck hbatch hneg
    -- the calls of one reader in the schedule, against the same calls without the others
    obtain ⟨houtcomes, hagree⟩ := run_eq_alone graph sampler hneg schedule graph' sampler' inst
      hexclusion
    refine ⟨houtcomes, ?_, hagree⟩
    rw [houtcomes, List.mem_map]
    rintro ⟨n, -, haborted⟩
    exact Reader.outcome_ne_aborted (a := Reader.start (readers i) graph' sampler' inst) hinput hcheck
      hbatch hneg n haborted
  · obtain ⟨-, -, -, -, -, -, -, -, htotal⟩ := run_eq_ok hrun
    refine ⟨htotal.trans (total_eq_sum _), fun shards hperm => (total_perm hperm).trans htotal.symm,
      fun huniform hdump hconfig => ⟨?_, fun inputs hinputs seed workers => ?_⟩⟩
    · exact (forall₂_readThrough hrun huniform hdump hconfig).imp fun _ _ h => h.readAlone hneg
    · exact run_perm hrun huniform hdump hconfig hneg hinputs seed workers

/-- Two edges, and an edge to a node of no group before another edge. -/
def twoTexts : Bool → String
  | true => "1 281474976710657\n2 281474976710658\n"
  | false => "1 562949953421313\n3 281474976710659\n"

/-- Readers that make a batch of each edge. -/
def twoReaders (i : Bool) : Reader where
  config := { batch := 1 }
  slots := {}
  input := .ofBytes (twoTexts i).toByteArray

/-- A graph, and inputs with two edges and with none. -/
def twoFiles : Files :=
  .ofList [("graph", "1 281474976710657\n".toByteArray), ("edges", (twoTexts true).toByteArray),
    ("none", .empty)]

def twoInputs : Arguments where
  graph := "graph"
  directed := false
  inputs := ["edges", "none"]
  config := "batch=1"
  configFile := none
  reader := ReaderKind.bipartite.name
  strategy := .uniform
  temperature := 1.0
  allowSelfNegatives := false
  seed := 0
  workers := 1
  dumpFirst := none

theorem readThrough_edges :
    ReadThrough { batch := 1 } twoFiles .excludeQuery "edges" ⟨"edges", ⟨2, 2, 12, 0, 10⟩⟩ := by
  have hfind : ∃ location, twoFiles.find "edges"
      = .ok (location, .file (twoTexts true).toByteArray) := ⟨_, rfl⟩
  have hends : (twoReaders true).EndsAfter 2 := by
    refine ⟨fun k hk => ?_, rfl⟩
    match k, hk with
    | 0, _ => rfl
    | 1, _ => rfl
  have hshared : (twoReaders true).sharedBefore 2 = 10 := by decide +kernel
  have hstats : (((twoReaders true).advanced 2).note 10).stats = ⟨2, 2, 12, 0, 10⟩ := by decide +kernel
  obtain ⟨location, hfind⟩ := hfind
  exact ⟨location, _, twoReaders true, ((twoReaders true).advanced 2).note 10, _, 2, hfind, rfl, hends,
    ⟨10, rfl, fun _ => hshared.symm⟩, by rw [hstats]⟩

theorem readThrough_none :
    ReadThrough { batch := 1 } twoFiles .excludeQuery "none" ⟨"none", {}⟩ := by
  let reader : Reader := { config := { batch := 1 }, slots := {}, input := .ofBytes .empty }
  have hfind : ∃ location, twoFiles.find "none" = .ok (location, .file .empty) := ⟨_, rfl⟩
  obtain ⟨location, hfind⟩ := hfind
  exact ⟨location, _, reader, reader, _, 0, hfind, rfl, ⟨fun _ hk => absurd hk (Nat.not_lt_zero _), rfl⟩,
    .start reader _, rfl⟩

theorem opens_twoInputs : Opens twoInputs twoFiles .bipartite { batch := 1 } := by
  refine ⟨by decide +kernel, rfl, ?_⟩
  have hlines : ∃ lines, twoFiles.lines "graph" = .ok lines ∧ ∃ graph, Graph.ofLines true lines = .ok graph :=
    ⟨_, rfl, _, rfl⟩
  obtain ⟨lines, hlines, graph, hgraph⟩ := hlines
  exact ⟨lines, graph, hlines, hgraph⟩

/-- In the order of calls that stands here one reader gives two batches, the other fails and gives one. A scan
has the same total with its inputs in the other order and with another seed. -/
theorem stats_independent_twoTexts :
    (∃ pool, pool = (start twoReaders ({} : Graph) ({} : UniformSampler)).run
        [true, false, false, true, true, false]
      ∧ pool.outcomes true = [.batch, .batch, .exhausted]
      ∧ pool.outcomes false = [.failed, .batch, .exhausted]
      ∧ (pool.reader true).stats = ⟨2, 2, 12, 0, 10⟩ ∧ (pool.reader false).stats = ⟨1, 1, 6, 0, 10⟩)
    ∧ ∃ summary last summary' last', Scan.run twoInputs twoFiles = (.ok summary, last)
      ∧ Scan.run { twoInputs with inputs := ["none", "edges"], seed := 1 } twoFiles
        = (.ok summary', last')
      ∧ summary.total = ⟨2, 2, 12, 0, 10⟩ ∧ summary'.total = summary.total := by
  have hcreate (i : Bool) : Reader.create { batch := 1 } {} (.ofBytes (twoTexts i).toByteArray)
      = .ok (twoReaders i, [.readerCreated { batch := 1 }]) := rfl
  obtain ⟨hpool, hscan⟩ := stats_independent hcreate (by decide) (by decide)
  constructor
  · refine ⟨_, rfl, ?_⟩
    have halone (i : Bool) := Reader.stage_after
      (a := Reader.start (twoReaders i) ({} : Graph) ({} : UniformSampler) .empty) rfl 3
    have houtcomes (i : Bool) : (List.range 3).map (fun n => Outcome.of (Reader.outcome
        (Reader.start (twoReaders i) ({} : Graph) ({} : UniformSampler) .empty) n))
          = (List.range 3).map (twoReaders i).outcomeAt :=
      List.map_congr_left fun k hk => (halone i).2 k (List.mem_range.1 hk)
    obtain ⟨hone, -, hone'⟩ :=
      hpool {} {} [true, false, false, true, true, false] true {} {} .empty rfl
    obtain ⟨htwo, -, htwo'⟩ :=
      hpool {} {} [true, false, false, true, true, false] false {} {} .empty rfl
    refine ⟨(hone.trans (houtcomes true)).trans rfl, (htwo.trans (houtcomes false)).trans rfl, ?_, ?_⟩
    · exact (hone'.eq.trans ((halone true).1.stats_eq rfl)).trans (by decide +kernel)
    · exact (htwo'.eq.trans ((halone false).1.stats_eq rfl)).trans (by decide +kernel)
  · have hread : List.Forall₂ (ReadThrough { batch := 1 } twoFiles .excludeQuery) twoInputs.inputs _ :=
      .cons readThrough_edges (.cons readThrough_none .nil)
    obtain ⟨s, hfiles, hsampler, hend⟩ := opens_twoInputs.exists_run
    obtain ⟨shards, s', hshards⟩ := exists_readShards (s := s) hread (by decide) hfiles (by rw [hsampler]; rfl)
    obtain ⟨last, hrun⟩ := hend shards s' hshards
    obtain ⟨htotal, -, hsame⟩ := hscan _ _ _ _ hrun
    obtain ⟨-, hsame⟩ := hsame rfl rfl opens_twoInputs.config_eq
    obtain ⟨summary', last', -, hrun', -, -, htotal'⟩ :=
      hsame ["none", "edges"] (List.Perm.swap _ _ _) 1 1
    have hagree := agree_total (forall₂_agree
      (forall₂_readThrough hrun rfl rfl opens_twoInputs.config_eq) hread)
    exact ⟨_, last, summary', last', hrun, hrun', hagree.eq.trans rfl, htotal'.eq⟩

end Shards

end BipartiteBatch
