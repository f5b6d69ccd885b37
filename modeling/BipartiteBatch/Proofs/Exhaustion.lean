import BipartiteBatch.Proofs.Calls
import BipartiteBatch.Proofs.Completeness

/-!
# Calls without a batch

A call that does not give a batch leaves a cleared instance. If it ends without an error, the input has
been read to its end and no record was left in it; from then on no call reads, counts or asks anything.

* `Mode.Holds` : a line holds a record of a mode;
* `Counted` : a collaborator with the number of questions that it was asked;
* `Reader.Exhausted` : nothing is left to read, `Reader.Exhausted.fill_eq` : a call then,
  `Reader.Exhausted.fill_later` : all calls from then on;
* `Reader.FoundEnd` : a call that reads to the end, `Reader.foundEnd` : each call that ends without a batch;
* `Reader.fill_without_batch` : what all calls without a batch leave.
-/

namespace BipartiteBatch

/-! ## Counted questions -/

/-- A collaborator and the number of questions that it was asked. -/
structure Counted (σ : Type) where
  state : σ
  asked : Nat := 0

namespace Counted

variable {σ α : Type}

def ask (q : Query σ α) : Query (Counted σ) α := fun c =>
  match q c.state with
  | (answer, state) => (answer, ⟨state, c.asked + 1⟩)

instance [GraphClient σ] : GraphClient (Counted σ) where
  sampleNeighbors nodes count := ask (GraphClient.sampleNeighbors nodes count)
  nodeFeatures nodes := ask (GraphClient.nodeFeatures nodes)
  neighborFeatures nodes := ask (GraphClient.neighborFeatures nodes)

instance [NegativeSampler σ] : NegativeSampler (Counted σ) where
  negatives count population queries := ask (NegativeSampler.negatives count population queries)
  selfExclusion c := NegativeSampler.selfExclusion c.state

end Counted

/-! ## The records of a mode -/

namespace Mode

/-- The bytes of a record of a mode in a buffer. -/
def width : Mode → Nat
  | train => Record.width EdgeRecord
  | predict => Record.width NodeRecord

/-- The line holds a record of a mode. -/
def Holds (mode : Mode) (line : Line) : Prop :=
  match mode with
  | train => ∃ record, line.record? EdgeRecord = some record
  | predict => ∃ record, line.record? NodeRecord = some record

end Mode

namespace Reader

open Assembly

variable {γ σ : Type} [GraphClient γ] [NegativeSampler σ] {a : Assembly γ σ}

theorem Reachable.after {first : Reader} (h : Reachable γ σ first a.reader) (n : Nat) :
    Reachable γ σ first (after a n).reader := by
  induction n with
  | zero => exact h
  | succ n ih => exact ih.call

/-! ## The end of the input -/

/-- Nothing is left to read. -/
structure Exhausted (r : Reader) : Prop where
  closed : r.input.rest = none
  fits : BipartiteBatch.fits r.config.batch.toNat r.config.mode.width

omit [GraphClient γ] [NegativeSampler σ] in
theorem finished_of_closed (h : a.reader.input.rest = none) :
    (a.cleared.withInput a.reader.input []).finished = { a with
      inst := .empty
      events := a.events ++ [.inputExhausted a.reader.stats.batches a.reader.stats.records] } := by
  show ({ a with
    reader := { a.reader with input := a.reader.input.close.1 }
    inst := .empty
    events := a.events ++ [] ++ a.reader.input.close.2
      ++ [.inputExhausted a.reader.stats.batches a.reader.stats.records] } : Assembly γ σ) = _
  rw [LineReader.close_of_closed h, List.append_nil, List.append_nil]

/-- A call with nothing left to read clears the instance and tells of the end, and that is all. -/
theorem Exhausted.fill_eq (h : Exhausted a.reader) :
    Reader.fill a = (.ok false, { a with
      inst := .empty
      events := a.events ++ [.inputExhausted a.reader.stats.batches a.reader.stats.records] }) := by
  obtain ⟨hclosed, hfits⟩ := h
  unfold Config.mode at hfits
  rw [← finished_of_closed hclosed]
  cases hmode : a.reader.config.isTrain with
  | true =>
    rw [hmode] at hfits
    exact (fill_train_ended hmode).2 ⟨_, _, LineReader.next_of_closed hclosed hfits, rfl⟩
  | false =>
    rw [hmode] at hfits
    exact (fill_predict_ended hmode).2 ⟨_, _, LineReader.next_of_closed hclosed hfits, rfl⟩

/-- No call changes a reader with nothing left to read. -/
theorem Exhausted.eq_of_reachable {r r' : Reader} (h : Exhausted r) (hr : Reachable γ σ r r') :
    r' = r := by
  induction hr with
  | start => rfl
  | @call a _ ih =>
    rw [Exhausted.fill_eq (ih ▸ h)]
    exact ih

/-- With nothing left to read each later call finds the end again. It changes neither the reader nor the
graph nor the sampler, and asks these nothing. -/
theorem Exhausted.fill_later {r : Reader} (h : Exhausted r) {b : Assembly γ σ}
    (hb : Reachable γ σ r b.reader) :
    (Reader.fill b).1 = .ok false ∧ (Reader.fill b).2.reader = r
      ∧ (Reader.fill b).2.graph = b.graph ∧ (Reader.fill b).2.sampler = b.sampler
      ∧ ∀ c : Assembly (Counted γ) (Counted σ), c.reader = b.reader →
        (Reader.fill c).1 = .ok false ∧ (Reader.fill c).2.graph.asked = c.graph.asked
        ∧ (Reader.fill c).2.sampler.asked = c.sampler.asked := by
  have hreader := h.eq_of_reachable hb
  have hexhausted : Exhausted b.reader := hreader ▸ h
  have hfill := hexhausted.fill_eq
  refine ⟨by rw [hfill], by rw [hfill, hreader], by rw [hfill], by rw [hfill], fun c hc => ?_⟩
  have hcounted := (show Exhausted c.reader from hc ▸ hexhausted).fill_eq
  exact ⟨by rw [hcounted], by rw [hcounted], by rw [hcounted]⟩

/-- A call that reads the lines that are left, none of which holds a record, and changes nothing but the
place in the input. -/
structure FoundEnd (a a' : Assembly γ σ) : Prop where
  not_holds : ∀ line ∈ a.reader.input.left, ¬ a.reader.config.mode.Holds line
  reads : LineReader.Reads a.reader.input.left a.reader.input a'.reader.input
  exhausted : Exhausted a'.reader
  stats_eq : a'.reader.stats = a.reader.stats

omit [GraphClient γ] [NegativeSampler σ] in
theorem FoundEnd.of_next {ρ : Type} [Record ρ] {input : LineReader} {events : List Event}
    (hwidth : a.reader.config.mode.width = Record.width ρ)
    (hholds : ∀ line, a.reader.config.mode.Holds line → ∃ record, line.record? ρ = some record)
    (hbatch : 0 < a.reader.config.batch.toNat)
    (hnext : a.reader.input.next ρ a.reader.config.batch.toNat = (.ok none, input, events)) :
    FoundEnd a (a.cleared.withInput input events).finished := by
  obtain ⟨read, hreads, -, hnone⟩ := LineReader.next_reads hnext
  obtain ⟨hrecords, hclosed⟩ := hnone rfl
  have hfits := LineReader.fits_of_next_eq_ok hnext
  rw [← hwidth] at hfits
  have hclose : (a.cleared.withInput input events).finished.reader
      = { a.reader with input } := by
    show ({ a.reader with input := input.close.1 } : Reader) = _
    rw [LineReader.close_of_closed (hclosed hbatch)]
  have hleft : read = a.reader.input.left := by
    rw [← hreads.left_eq, LineReader.left, hclosed hbatch, Option.getD_none, List.append_nil]
  rw [hleft] at hreads hrecords
  refine ⟨?_, ?_, ?_, rfl⟩
  · intro line hline hrecord
    obtain ⟨record, hrecord⟩ := hholds line hrecord
    have hnot := List.filterMap_eq_nil_iff.1 hrecords line hline
    rw [hrecord] at hnot
    cases hnot
  · rw [hclose]
    exact hreads
  · rw [hclose]
    exact ⟨hclosed hbatch, hfits⟩

/-- A call that ends without a batch and without an error has found the end. -/
theorem foundEnd (hbatch : 0 < a.reader.config.batch.toNat) (h : (Reader.fill a).1 = .ok false) :
    FoundEnd a (Reader.fill a).2 := by
  have hfill : Reader.fill a = (.ok false, (Reader.fill a).2) := Prod.ext h rfl
  cases hmode : a.reader.config.isTrain with
  | true =>
    have hmode' : a.reader.config.mode = .train := if_pos hmode
    obtain ⟨input, events, hnext, hstate⟩ := (fill_train_ended hmode).1 hfill
    rw [hstate]
    exact .of_next (by rw [hmode']; rfl) (by rw [hmode']; exact fun _ h => h) hbatch hnext
  | false =>
    have hmode' : a.reader.config.mode = .predict := if_neg (by rw [hmode]; exact Bool.false_ne_true)
    obtain ⟨input, events, hnext, hstate⟩ := (fill_predict_ended hmode).1 hfill
    rw [hstate]
    exact .of_next (by rw [hmode']; rfl) (by rw [hmode']; exact fun _ h => h) hbatch hnext

/-! ## Calls without a batch -/

omit [GraphClient γ] [NegativeSampler σ] in
theorem inst_eq_empty_of_called {ρ : Type} [Record ρ] {make : List ρ → Assembling γ σ Unit}
    {r : Except Failure Bool} {a' : Assembly γ σ} (h : Called make a r a') (hr : r ≠ .ok true) :
    a'.inst = .empty := by
  cases h with
  | unread next => rfl
  | ended next => rfl
  | made next done => exact absurd rfl hr
  | failed next undone => rfl

/-- A call that does not give a batch leaves the instance without slots. -/
theorem fill_inst_eq_empty (h : (Reader.fill a).1 ≠ .ok true) : (Reader.fill a).2.inst = .empty := by
  cases hmode : a.reader.config.isTrain with
  | true => exact inst_eq_empty_of_called (called_train hmode) h
  | false => exact inst_eq_empty_of_called (called_predict hmode) h

/-- Whatever the bytes of the input and whatever the graph and the sampler do, a call that fails or finds
the end leaves an instance without slots. A call that finds the end has read all lines of the input, and
there was no record of its mode in those that were left to it; after it every call finds the end again,
changes neither the reader nor the graph nor the sampler, and asks these nothing. -/
theorem fill_without_batch {config : Config} {slots : SlotNames} {bytes : ByteArray} {reader : Reader}
    {created : List Event}
    (hcreate : Reader.create config slots (.ofBytes bytes) = .ok (reader, created))
    (hreach : Reachable γ σ reader a.reader) :
    ((Reader.fill a).1 = .ok false ∨ (∃ e : BatchError, (Reader.fill a).1 = .error (.error e)) →
      (Reader.fill a).2.inst.names = [] ∧ (∀ name, (Reader.fill a).2.inst.get? name = none)
        ∧ (Reader.fill a).2.inst.batchSize = 0)
    ∧ ((Reader.fill a).1 = .ok false →
      (∃ read, read ++ a.reader.input.left = Line.ofBytes bytes
        ∧ a.reader.input.lines = read.countP Except.isOk
        ∧ (∀ line ∈ a.reader.input.left, ¬ config.mode.Holds line)
        ∧ (Reader.fill a).2.reader.input.rest = none
        ∧ (Reader.fill a).2.reader.input.lines = (Line.ofBytes bytes).countP Except.isOk)
      ∧ (Reader.fill a).2.reader.stats = a.reader.stats
      ∧ ∀ b : Assembly γ σ, Reachable γ σ (Reader.fill a).2.reader b.reader →
        (Reader.fill b).1 = .ok false ∧ (Reader.fill b).2.reader = (Reader.fill a).2.reader
        ∧ (Reader.fill b).2.graph = b.graph ∧ (Reader.fill b).2.sampler = b.sampler
        ∧ ∀ c : Assembly (Counted γ) (Counted σ), c.reader = b.reader →
          (Reader.fill c).1 = .ok false ∧ (Reader.fill c).2.graph.asked = c.graph.asked
          ∧ (Reader.fill c).2.sampler.asked = c.sampler.asked) := by
  obtain ⟨hcheck, rfl, -⟩ := create_eq_ok.1 hcreate
  have hbatch := batch_pos_of_check hcheck
  have hmoved := hreach.moved hbatch
  constructor
  · intro h
    have hne : (Reader.fill a).1 ≠ .ok true := by
      rcases h with h | ⟨e, h⟩
      · rw [h]; exact nofun
      · rw [h]; exact nofun
    rw [fill_inst_eq_empty hne]
    exact ⟨rfl, fun _ => rfl, rfl⟩
  · intro h
    have hconfig : a.reader.config = config := hmoved.config_eq
    have hend := foundEnd (by rw [hconfig]; exact hbatch) h
    -- the lines of earlier calls, and after them those of this call, are all lines
    obtain ⟨read, hread⟩ := hmoved.reads
    refine ⟨⟨read, hread.left_eq, ?_, ?_, hend.exhausted.closed, ?_⟩, hend.stats_eq, ?_⟩
    · rw [hread.lines_eq]
      exact Nat.zero_add _
    · rw [← hconfig]
      exact hend.not_holds
    · rw [(hread.trans hend.reads).lines_eq, hread.left_eq]
      exact Nat.zero_add _
    · exact fun b hb => hend.exhausted.fill_later hb

/-- A reader before one edge, with two edges a batch. -/
def oneEdge : Assembly Graph UniformSampler :=
  start { config := { batch := 2 }, slots := {}, input := .ofBytes "1 281474976710657\n".toByteArray }
    .empty {} .empty

theorem fill_without_batch_oneEdge : ∃ a : Assembly Graph UniformSampler,
    Reachable Graph UniformSampler oneEdge.reader a.reader ∧ a.inst.batchSize = 1
      ∧ (Reader.fill a).1 = .ok false ∧ (Reader.fill a).2.inst.batchSize = 0
      ∧ (Reader.fill a).2.reader.input.lines = 1
      ∧ (Reader.fill (Reader.fill a).2).1 = .ok false := by
  let edges : List EdgeRecord := [⟨1, 281474976710657⟩]
  have hinput : oneEdge.reader.input = .ofLines [.ok "1 281474976710657"] := by
    show LineReader.ofLines (Line.ofBytes "1 281474976710657\n".toByteArray) = _
    rw [Line.ofBytes_toByteArray]
    rfl
  have hnext : oneEdge.reader.input.next EdgeRecord oneEdge.reader.config.batch.toNat
      = (.ok (some edges), ⟨none, 1, 0⟩, [.inputClosed 1 0]) := by
    rw [hinput]
    rfl
  obtain ⟨lists, users, items, rows, a, htrained⟩ :=
    Assembly.exists_trained (oneEdge.cleared.withInput ⟨none, 1, 0⟩ [.inputClosed 1 0]) (by decide)
      (show ∀ record ∈ edges, _ by decide)
  have hfill : Reader.fill oneEdge = (.ok true, a) :=
    (fill_train rfl).2 ⟨edges, _, _, lists, users, items, rows, hnext, htrained⟩
  have hreach : Reachable Graph UniformSampler oneEdge.reader a.reader := by
    have hcall := Reachable.call (a := oneEdge) (.start (γ := Graph) (σ := UniformSampler))
    rwa [hfill] at hcall
  have hexhausted : Exhausted a.reader := by
    rw [htrained.reader]
    exact ⟨rfl, show fits 2 16 = true by decide⟩
  have hended : (Reader.fill a).1 = .ok false := by rw [hexhausted.fill_eq]
  have hcreate : Reader.create { batch := 2 } {} (.ofBytes "1 281474976710657\n".toByteArray)
      = .ok (oneEdge.reader, [.readerCreated { batch := 2 }]) := create_eq_ok.2 ⟨by decide, rfl, rfl⟩
  obtain ⟨hcleared, hlast⟩ := fill_without_batch hcreate hreach
  obtain ⟨⟨read, -, -, -, -, hlines⟩, -, hlater⟩ := hlast hended
  refine ⟨a, hreach, ?_, hended, (hcleared (.inl hended)).2.2, ?_, (hlater _ .start).1⟩
  · rw [htrained.inst]
    rfl
  · rw [hlines, Line.ofBytes_toByteArray]
    rfl

end Reader

end BipartiteBatch
