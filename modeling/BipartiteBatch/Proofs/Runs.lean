import BipartiteBatch.Proofs.Batches
import BipartiteBatch.Proofs.Input

/-!
# Runs

A run calls a reader again and again. If each call takes the records that come next, as many as make a
batch, and there is an end when none are left, then the run takes all records in their order: the calls
with a batch come first, each but the last of them has a full one, and the totals count what was taken.

* `Reader.after`, `Reader.outcome` : the states and the outcomes of a run;
* `Reader.Ready` : some records are left, `Reader.Takes`, `Reader.Ends` : what a call does then;
* `Reader.Course` : calls that take the next records, `Reader.Course.ready_after` : what is left on the way;
* `Reader.CompleteRun` : a run that takes all records, `Reader.Course.completeRun` : such calls make one;
* `Reader.Course.flatMap_decoded` : the records of the batches are all records in order.
-/

namespace BipartiteBatch

/-! ## Pieces of a list -/

section Pieces
variable {α : Type}

/-- The pieces of a length, one after the other, are the list up to their end. -/
theorem flatMap_pieces (xs : List α) (size count : Nat) :
    (List.range count).flatMap (fun n => (xs.drop (n * size)).take size)
      = xs.take (count * size) := by
  induction count with
  | zero => simp
  | succ count ih =>
    rw [List.range_succ, List.flatMap_append, ih, List.flatMap_singleton, ← List.take_add,
      Nat.succ_mul]

theorem lt_pieces_iff {total size n : Nat} (hsize : 0 < size) :
    n < (total + size - 1) / size ↔ n * size < total := by
  rw [Nat.lt_iff_add_one_le, Nat.le_div_iff_mul_le hsize, Nat.succ_mul]
  omega

end Pieces

namespace Reader

variable {γ σ ρ : Type} [GraphClient γ] [NegativeSampler σ] [Record ρ]

/-! ## States and outcomes -/

def after (a : Assembly γ σ) : Nat → Assembly γ σ
  | 0 => a
  | n + 1 => (Reader.fill (after a n)).2

def outcome (a : Assembly γ σ) (n : Nat) : Except Failure Bool := (Reader.fill (after a n)).1

def gives (a : Assembly γ σ) (n : Nat) : Bool :=
  match outcome a n with
  | .ok more => more
  | .error _ => false

/-- The number of batches that a number of calls give. -/
def batchCount (a : Assembly γ σ) (n : Nat) : Nat := (List.range n).countP (gives a)

/-- The sum of the sizes of these batches. -/
def recordCount (a : Assembly γ σ) : Nat → Nat
  | 0 => 0
  | n + 1 => recordCount a n + if gives a n then (after a (n + 1)).inst.batchSize else 0

section Counts
variable {a : Assembly γ σ} {n : Nat}

theorem counts_of_outcome_true (h : outcome a n = .ok true) :
    batchCount a (n + 1) = batchCount a n + 1
      ∧ recordCount a (n + 1) = recordCount a n + (after a (n + 1)).inst.batchSize := by
  have hgives : gives a n = true := by rw [gives, h]
  constructor
  · rw [batchCount, List.range_succ, List.countP_append, List.countP_singleton, if_pos hgives,
      ← batchCount]
  · rw [recordCount, if_pos hgives]

theorem counts_of_outcome_false (h : outcome a n = .ok false) :
    batchCount a (n + 1) = batchCount a n ∧ recordCount a (n + 1) = recordCount a n := by
  have hgives : ¬ gives a n = true := by
    rw [gives, h]
    exact Bool.false_ne_true
  constructor
  · rw [batchCount, List.range_succ, List.countP_append, List.countP_singleton, if_neg hgives,
      Nat.add_zero, ← batchCount]
  · rw [recordCount, if_neg hgives, Nat.add_zero]

end Counts

/-! ## Calls that take the next records -/

/-- Some records are left, and they are of a kind that can be made into batches. -/
structure Ready (config : Config) (slots : SlotNames) (known : ρ → Prop) (records : List ρ)
    (a : Assembly γ σ) : Prop where
  config_eq : a.reader.config = config
  slots_eq : a.reader.slots = slots
  pending : a.reader.input.Pending records
  known : ∀ record ∈ records, known record

/-- A call takes the next records, each for a number of rows. -/
structure Takes (rowsPer : Nat) (records : List ρ) (a a' : Assembly γ σ) : Prop where
  fill_eq : Reader.fill a = (.ok true, a')
  config_eq : a'.reader.config = a.reader.config
  slots_eq : a'.reader.slots = a.reader.slots
  pending : a'.reader.input.Pending (records.drop a.reader.config.batch.toNat)
  batchSize : a'.inst.batchSize = (records.take a.reader.config.batch.toNat).length
  batchStat : a'.reader.stats.batches = a.reader.stats.batches + 1
  recordStat : a'.reader.stats.records
    = a.reader.stats.records + UInt64.ofNat (records.take a.reader.config.batch.toNat).length
  rowStat : a'.reader.stats.rows = a.reader.stats.rows
    + UInt64.ofNat ((records.take a.reader.config.batch.toNat).length * rowsPer)

structure Ends (ρ : Type) [Record ρ] (a a' : Assembly γ σ) : Prop where
  fill_eq : Reader.fill a = (.ok false, a')
  config_eq : a'.reader.config = a.reader.config
  slots_eq : a'.reader.slots = a.reader.slots
  pending : a'.reader.input.Pending ([] : List ρ)
  stats_eq : a'.reader.stats = a.reader.stats

theorem Takes.of_addBatch {rowsPer n rows invalid : Nat} {records : List ρ} {a a' : Assembly γ σ}
    {stats : Stats} {input : LineReader} (hfill : Reader.fill a = (.ok true, a'))
    (hn : (records.take a.reader.config.batch.toNat).length = n)
    (hrows : rows = n * rowsPer)
    (hreader : a'.reader = { a.reader with input, stats := stats.addBatch n rows invalid })
    (hstats : stats.batches = a.reader.stats.batches ∧ stats.records = a.reader.stats.records
      ∧ stats.rows = a.reader.stats.rows)
    (hpending : input.Pending (records.drop a.reader.config.batch.toNat))
    (hsize : a'.inst.batchSize = n) : Takes rowsPer records a a' where
  fill_eq := hfill
  config_eq := by rw [hreader]
  slots_eq := by rw [hreader]
  pending := by
    rw [hreader]
    exact hpending
  batchSize := hsize.trans hn.symm
  batchStat := by rw [hreader, ← hstats.1]; rfl
  recordStat := by rw [hreader, hn, ← hstats.2.1]; rfl
  rowStat := by rw [hreader, hn, ← hrows, ← hstats.2.2]; rfl

/-- A call that closes the input has found the end. -/
theorem Ends.of_finished {a : Assembly γ σ} {input : LineReader} {events : List Event}
    (hfill : Reader.fill a = (.ok false, (a.cleared.withInput input events).finished)) :
    Ends ρ a (a.cleared.withInput input events).finished :=
  ⟨hfill, rfl, rfl, LineReader.close_pending _, rfl⟩

/-- Each call takes the next records while there are any, and finds the end after them. -/
structure Course (γ σ : Type) [GraphClient γ] [NegativeSampler σ] (config : Config)
    (slots : SlotNames) (known : ρ → Prop) (rowsPer : Nat) : Prop where
  batch_pos : 0 < config.batch.toNat
  takes : ∀ {records : List ρ} {a : Assembly γ σ}, Ready config slots known records a →
    records ≠ [] → ∃ a', Takes rowsPer records a a'
  ends : ∀ {a : Assembly γ σ}, Ready config slots known [] a → ∃ a', Ends ρ a a'

variable {config : Config} {slots : SlotNames} {known : ρ → Prop} {rowsPer : Nat}
  {records : List ρ} {a a' : Assembly γ σ}

theorem Ready.of_takes (h : Ready config slots known records a) (ht : Takes rowsPer records a a') :
    Ready config slots known (records.drop config.batch.toNat) a' where
  config_eq := ht.config_eq.trans h.config_eq
  slots_eq := ht.slots_eq.trans h.slots_eq
  pending := by
    rw [← h.config_eq]
    exact ht.pending
  known record hrecord := h.known record (List.mem_of_mem_drop hrecord)

theorem Ready.of_ends (h : Ready config slots known records a) (he : Ends ρ a a') :
    Ready config slots known [] a' where
  config_eq := he.config_eq.trans h.config_eq
  slots_eq := he.slots_eq.trans h.slots_eq
  pending := he.pending
  known := nofun

namespace Course

variable (hc : Course γ σ config slots known rowsPer)

include hc

/-- After a number of calls as many batches are taken off the records. -/
theorem ready_after (h : Ready config slots known records a) (n : Nat) :
    Ready config slots known (records.drop (n * config.batch.toNat)) (after a n) := by
  induction n with
  | zero =>
    rw [Nat.zero_mul, List.drop_zero]
    exact h
  | succ n ih =>
    rw [Nat.succ_mul, ← List.drop_drop]
    -- past the end nothing is left, and nothing can be taken off it
    by_cases hnone : records.drop (n * config.batch.toNat) = []
    · rw [hnone] at ih
      obtain ⟨a', he⟩ := hc.ends ih
      rw [hnone, List.drop_nil, after, he.fill_eq]
      exact ih.of_ends he
    · obtain ⟨a', ht⟩ := hc.takes ih hnone
      rw [after, ht.fill_eq]
      exact ih.of_takes ht

theorem takes_after (h : Ready config slots known records a) {n : Nat}
    (hn : n < (records.length + config.batch.toNat - 1) / config.batch.toNat) :
    Takes rowsPer (records.drop (n * config.batch.toNat)) (after a n) (after a (n + 1)) := by
  have hlt := (lt_pieces_iff hc.batch_pos).1 hn
  have hsome : records.drop (n * config.batch.toNat) ≠ [] := by
    rw [Ne, List.drop_eq_nil_iff]
    omega
  obtain ⟨a', ht⟩ := hc.takes (hc.ready_after h n) hsome
  rw [after, ht.fill_eq]
  exact ht

theorem ends_after (h : Ready config slots known records a) {n : Nat}
    (hn : (records.length + config.batch.toNat - 1) / config.batch.toNat ≤ n) :
    Ends ρ (after a n) (after a (n + 1)) := by
  have hle := Nat.not_lt.1 fun hlt => Nat.not_lt.2 hn ((lt_pieces_iff hc.batch_pos).2 hlt)
  have hready := hc.ready_after h n
  rw [List.drop_eq_nil_iff.2 hle] at hready
  obtain ⟨a', he⟩ := hc.ends hready
  rw [after, he.fill_eq]
  exact he

end Course

/-! ## Complete runs -/

/-- A run over a number of records: the calls that give a batch come first, each but the last of them
gives a full one, and in each state the totals are those of the batches given so far. -/
structure CompleteRun (size total rowsPer : Nat) (a : Assembly γ σ) : Prop where
  outcome_true : ∀ n < (total + size - 1) / size, outcome a n = .ok true
  outcome_false : ∀ n, (total + size - 1) / size ≤ n → outcome a n = .ok false
  batchSize : ∀ n, n + 1 < (total + size - 1) / size → (after a (n + 1)).inst.batchSize = size
  batches : ∀ n, (after a n).reader.stats.batches = UInt64.ofNat (batchCount a n)
  records : ∀ n, (after a n).reader.stats.records = UInt64.ofNat (recordCount a n)
  rows : ∀ n, (after a n).reader.stats.rows = UInt64.ofNat (recordCount a n * rowsPer)

namespace Course

variable (hc : Course γ σ config slots known rowsPer)

include hc

theorem stats_after (h : Ready config slots known records a) (hstats : a.reader.stats = {}) (n : Nat) :
    (after a n).reader.stats.batches = UInt64.ofNat (batchCount a n)
      ∧ (after a n).reader.stats.records = UInt64.ofNat (recordCount a n)
      ∧ (after a n).reader.stats.rows = UInt64.ofNat (recordCount a n * rowsPer) := by
  induction n with
  | zero =>
    rw [after, hstats]
    refine ⟨rfl, rfl, ?_⟩
    rw [show recordCount a 0 = 0 from rfl, Nat.zero_mul]
    rfl
  | succ n ih =>
    obtain ⟨hbatches, hrecords, hrows⟩ := ih
    -- before the end a call adds one batch to both sides, after it a call adds nothing
    rcases Nat.lt_or_ge n ((records.length + config.batch.toNat - 1) / config.batch.toNat)
      with hn | hn
    · have ht := hc.takes_after h hn
      have hcounts := counts_of_outcome_true (congrArg Prod.fst ht.fill_eq)
      rw [hcounts.1, hcounts.2, ht.batchStat, ht.recordStat, ht.rowStat, ht.batchSize, hbatches, hrecords,
        hrows, Nat.add_mul, UInt64.ofNat_add, UInt64.ofNat_add, UInt64.ofNat_add]
      exact ⟨rfl, rfl, rfl⟩
    · have he := hc.ends_after h hn
      have hcounts := counts_of_outcome_false (congrArg Prod.fst he.fill_eq)
      rw [hcounts.1, hcounts.2, he.stats_eq]
      exact ⟨hbatches, hrecords, hrows⟩

theorem completeRun (h : Ready config slots known records a) (hstats : a.reader.stats = {}) :
    CompleteRun config.batch.toNat records.length rowsPer a where
  outcome_true _ hn := congrArg Prod.fst (hc.takes_after h hn).fill_eq
  outcome_false _ hn := congrArg Prod.fst (hc.ends_after h hn).fill_eq
  batchSize n hn := by
    have ht := hc.takes_after h (Nat.lt_of_succ_lt hn)
    have hnext := (lt_pieces_iff hc.batch_pos).1 hn
    rw [ht.batchSize, (hc.ready_after h n).config_eq, List.length_take, List.length_drop]
    rw [Nat.succ_mul] at hnext
    omega
  batches n := (hc.stats_after h hstats n).1
  records n := (hc.stats_after h hstats n).2.1
  rows n := (hc.stats_after h hstats n).2.2

/-- If what is read from each batch is the records it took, what is read from the batches of a run is all
records in order. -/
theorem flatMap_decoded {β : Type} {value : ρ → β} {decoded : Assembly γ σ → List β}
    (hdecoded : ∀ {records : List ρ} {a : Assembly γ σ}, Ready config slots known records a →
      records ≠ [] → decoded a = (records.take config.batch.toNat).map value)
    (h : Ready config slots known records a) :
    (List.range ((records.length + config.batch.toNat - 1) / config.batch.toNat)).flatMap
        (fun n => decoded (after a n))
      = records.map value := by
  let count := (records.length + config.batch.toNat - 1) / config.batch.toNat
  have hpieces : (List.range count).flatMap (fun n => decoded (after a n))
      = (List.range count).flatMap fun n =>
        ((records.map value).drop (n * config.batch.toNat)).take config.batch.toNat := by
    apply List.flatMap_congr
    intro n hn
    have hlt := (lt_pieces_iff hc.batch_pos).1 (List.mem_range.1 hn)
    have hsome : records.drop (n * config.batch.toNat) ≠ [] := by
      rw [Ne, List.drop_eq_nil_iff]
      omega
    rw [hdecoded (hc.ready_after h n) hsome, List.map_take, List.map_drop]
  have hall : records.length ≤ count * config.batch.toNat :=
    Nat.not_lt.1 fun hlt => Nat.lt_irrefl count ((lt_pieces_iff hc.batch_pos).2 hlt)
  rw [hpieces, flatMap_pieces, List.take_of_length_le]
  rw [List.length_map]
  exact hall

end Course

end Reader

end BipartiteBatch
