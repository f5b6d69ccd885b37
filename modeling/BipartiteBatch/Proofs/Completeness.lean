import BipartiteBatch.Proofs.Runs
import BipartiteBatch.Proofs.Training

/-!
# Runs over a text

A reader with a graph held in memory and the uniform sampler is run over a text whose records have known
nodes only. No call fails, so that the run is a complete one: the batches hold all records of the text in
its order, whatever lines stand between them and wherever a batch ends.

* `Instance.edgeRows` : the rows in the slots of a training batch;
* `Reader.decodedEdges`, `Reader.decodedNodes` : the records that the next call leaves;
* `Reader.course_train`, `Reader.course_predict` : each call takes the next records;
* `Reader.run_takes_all_records` : a run over a text.
-/

namespace BipartiteBatch

/-! ## Reading edges from slots -/

def LabelledEdge.record (edge : LabelledEdge) : EdgeRecord := ⟨edge.src, edge.dst⟩

/-- The rows whose columns the three slots of a training batch hold. -/
def Instance.edgeRows (slots : SlotNames) (inst : Instance) : List Block.EdgeRow :=
  match inst.indices? slots.srcId, inst.indices? slots.dstId, inst.labels? slots.label with
  | some srcs, some dsts, some labels =>
    (srcs.zip (dsts.zip labels)).map fun e => ⟨e.1, e.2.1, e.2.2⟩
  | _, _, _ => []

theorem Instance.edgeRows_eq {slots : SlotNames} {inst : Instance} {rows : List Block.EdgeRow}
    (hsrc : inst.indices? slots.srcId = some (rows.map Block.EdgeRow.src))
    (hdst : inst.indices? slots.dstId = some (rows.map Block.EdgeRow.dst))
    (hlabel : inst.labels? slots.label = some (rows.map Block.EdgeRow.label)) :
    inst.edgeRows slots = rows := by
  rw [edgeRows, hsrc, hdst, hlabel]
  dsimp only
  rw [List.zip_map', List.zip_map', List.map_map]
  exact List.map_id' rows

/-- The edges among labelled edges are those with the label one. -/
theorem filter_labelledEdges {records : List EdgeRecord} {lists : List (List NodeId)}
    (h : lists.length = records.length) :
    ((records.zipWith labelledEdges lists).flatten.filter fun edge => edge.label = 1.0).map
      LabelledEdge.record = records := by
  induction records generalizing lists with
  | nil => rfl
  | cons record records ih =>
    match lists with
    | negatives :: lists =>
      have hnegatives : (negatives.map fun n => (⟨record.src, n, 0.0⟩ : LabelledEdge)).filter
          (fun edge => edge.label = 1.0) = [] := by
        rw [List.filter_eq_nil_iff]
        intro edge hedge
        obtain ⟨n, -, rfl⟩ := List.mem_map.1 hedge
        have hlabel : ¬ (0.0 : Float32) = 1.0 := by decide
        exact fun h => hlabel (of_decide_eq_true h)
      rw [List.zipWith_cons_cons, List.flatten_cons, labelledEdges, List.filter_append,
        List.filter_cons_of_pos (by simp), hnegatives, List.map_append, ih (Nat.succ.inj h)]
      rfl

theorem filter_map_of_map_eq {α β : Type} {f : α → Option β} {p : α → Bool} {q : β → Bool}
    (hpq : ∀ x y, f x = some y → p x = q y) {xs : List α} {ys : List β}
    (h : xs.map f = ys.map some) : (xs.filter p).map f = (ys.filter q).map some := by
  induction xs generalizing ys with
  | nil =>
    obtain rfl : ys = [] := List.map_eq_nil_iff.1 h.symm
    rfl
  | cons x xs ih =>
    match ys with
    | y :: ys =>
      obtain ⟨hx, hxs⟩ := List.cons.inj h
      have hp := hpq x y hx
      cases hq : q y with
      | true =>
        rw [List.filter_cons_of_pos (hp.trans hq), List.filter_cons_of_pos hq, List.map_cons,
          List.map_cons, hx, ih hxs]
      | false =>
        rw [List.filter_cons_of_neg (by rw [hp, hq]; exact Bool.false_ne_true),
          List.filter_cons_of_neg (by rw [hq]; exact Bool.false_ne_true), ih hxs]

namespace Reader

open Assembly

variable {γ σ : Type} [GraphClient γ] [NegativeSampler σ] {a a' : Assembly γ σ}

/-! ## The records of a batch -/

/-- The nodes of the next call in training: those of the edges it takes and of the negatives it gets. -/
def callNodes (a : Assembly γ σ) : List NodeId :=
  match (a.reader.input.next EdgeRecord a.reader.config.batch.toNat).1 with
  | .ok (some records) =>
    match (NegativeSampler.negatives a.reader.config.numNeg.toNat (records.map EdgeRecord.dst)
      (records.map EdgeRecord.dst) a.sampler).1 with
    | .ok lists => trainingNodes records lists
    | .error _ => []
  | .ok none => []
  | .error _ => []

/-- The edges that the next call leaves: the rows with the label one, their indices read as positions
among the users and then the items of the call. -/
def decodedEdges (a : Assembly γ σ) : List (Option EdgeRecord) :=
  let positives := ((Reader.fill a).2.inst.edgeRows a.reader.slots).filter fun row => row.label = 1.0
  (positives.map (Block.EdgeRow.decode (flatNodes a.reader.config.tags (callNodes a)))).map
    (Option.map LabelledEdge.record)

def decodedNodes (a : Assembly γ σ) : List NodeId :=
  ((Reader.fill a).2.inst.nodes? a.reader.slots.predictNode).getD []

section Edges
variable {records : List EdgeRecord} {lists : List (List NodeId)} {users items : Findings}
  {rows : List Block.EdgeRow} {input : LineReader} {events : List Event}

/-- The three slots of the edges are written last, so that these need only differ from each other. -/
theorem edgeRows_of_trained (h : Trained records a lists users items rows a')
    (hnames : [a.reader.slots.srcId, a.reader.slots.dstId, a.reader.slots.label].Nodup) :
    a'.inst.edgeRows a.reader.slots = rows := by
  have hslot : ∀ e ∈ edgeEntries a.reader.slots rows, a'.inst.get? e.1 = some e.2 := by
    intro e he
    have hnodup : ((edgeEntries a.reader.slots rows).map Prod.fst).Nodup := hnames
    rw [h.inst, Instance.get?_withBatchSize, trainingEntries, Instance.insertAll_append]
    exact Instance.get?_insertAll_of_mem hnodup he
  apply Instance.edgeRows_eq
  · exact Instance.indices?_of_get? (hslot (_, _) (by simp [edgeEntries]))
  · exact Instance.indices?_of_get? (hslot (_, _) (by simp [edgeEntries]))
  · exact Instance.labels?_of_get? (hslot (_, _) (by simp [edgeEntries]))

theorem callNodes_eq
    (hnext : a.reader.input.next EdgeRecord a.reader.config.batch.toNat
      = (.ok (some records), input, events))
    (h : Trained records (a.cleared.withInput input events) lists users items rows a') :
    callNodes a = trainingNodes records lists := by
  have hnegatives : NegativeSampler.negatives a.reader.config.numNeg.toNat
      (records.map EdgeRecord.dst) (records.map EdgeRecord.dst) a.sampler = (.ok lists, a'.sampler) :=
    h.negatives
  rw [callNodes, hnext]
  dsimp only
  rw [hnegatives]

theorem decodedEdges_eq (hne : a.reader.config.tags.user ≠ a.reader.config.tags.item)
    (hnames : [a.reader.slots.srcId, a.reader.slots.dstId, a.reader.slots.label].Nodup)
    (hnext : a.reader.input.next EdgeRecord a.reader.config.batch.toNat
      = (.ok (some records), input, events))
    (h : Trained records (a.cleared.withInput input events) lists users items rows a')
    (hfill : Reader.fill a = (.ok true, a')) : decodedEdges a = records.map some := by
  have hrows : a'.inst.edgeRows a.reader.slots = rows :=
    edgeRows_of_trained (a := a.cleared.withInput input events) h hnames
  have hdecode : rows.map (Block.EdgeRow.decode
      (flatNodes a.reader.config.tags (trainingNodes records lists)))
      = (records.zipWith labelledEdges lists).flatten.map some := h.decode hne
  -- a row reads as an edge with its own label, so that it can be chosen before it is read
  have hpositive := filter_map_of_map_eq (p := fun row => decide (row.label = 1.0))
    (q := fun edge => decide (edge.label = 1.0))
    (fun row edge hedge => by rw [Block.EdgeRow.label_of_decode hedge]) hdecode
  have hrecords : ((records.zipWith labelledEdges lists).flatten.filter fun edge =>
      edge.label = 1.0).map LabelledEdge.record = records := filter_labelledEdges h.length_lists
  rw [decodedEdges, hfill]
  dsimp only
  rw [hrows, callNodes_eq hnext h, hpositive, List.map_map]
  conv_rhs => rw [← hrecords, List.map_map]
  rfl

end Edges

/-- The nodes of a batch are read back. -/
theorem decodedNodes_eq {records : List NodeRecord} {users items : Findings} {block : Csr}
    {input : LineReader} {events : List Event}
    (h : Predicted records (a.cleared.withInput input events) users items block a')
    (hfill : Reader.fill a = (.ok true, a')) : decodedNodes a = records.map NodeRecord.node := by
  have hslot : a'.inst.get? a.reader.slots.predictNode
      = some (.nodes (records.map NodeRecord.node)) := by
    rw [h.inst, Instance.get?_withBatchSize, predictionEntries, Instance.insertAll_append]
    simp only [lookupEntries, Instance.insertAll, List.foldl_cons, List.foldl_nil,
      Instance.get?_insert]
    exact if_pos rfl
  rw [decodedNodes, hfill, Instance.nodes?_of_get? hslot, Option.getD_some]

/-! ## Calls that cannot fail -/

/-- An edge between users and items. -/
def KnownEdge (config : Config) (record : EdgeRecord) : Prop :=
  config.tags.Known record.src ∧ config.tags.Known record.dst

def KnownNode (config : Config) (record : NodeRecord) : Prop := config.tags.Known record.node

instance (config : Config) (record : EdgeRecord) : Decidable (KnownEdge config record) :=
  inferInstanceAs (Decidable (_ ∧ _))

instance (config : Config) (record : NodeRecord) : Decidable (KnownNode config record) :=
  inferInstanceAs (Decidable (config.tags.Known record.node))

section Calls
variable {config : Config} {slots : SlotNames}

theorem batch_pos_of_check (h : config.check = .ok ()) : 0 < config.batch.toNat := by
  apply Nat.pos_of_ne_zero
  intro hzero
  have hbatch : config.batch = 0 := UInt64.toNat_inj.1 hzero
  unfold Config.check at h
  rw [if_pos hbatch] at h
  cases h

omit [GraphClient γ] [NegativeSampler σ] in
theorem Ready.exists_next {ρ : Type} [Record ρ] {known : ρ → Prop} {records : List ρ}
    {a : Assembly γ σ} (h : Ready config slots known records a) (hcheck : config.check = .ok ())
    (hfits : fits config.batch.toNat (Record.width ρ)) : ∃ input events,
      a.reader.input.next ρ a.reader.config.batch.toNat
        = (.ok (if records.isEmpty then none else some (records.take config.batch.toNat)), input,
          events)
      ∧ input.Pending (records.drop config.batch.toNat) := by
  rw [h.config_eq]
  exact LineReader.next_of_pending h.pending (batch_pos_of_check hcheck) hfits

variable [GraphClient.Answering γ]

theorem Ready.exists_trained [NegativeSampler.Answering σ] {records : List EdgeRecord}
    (h : Ready config slots (KnownEdge config) records a) (hsome : records ≠ [])
    (hcheck : config.check = .ok ()) (hmode : config.isTrain = true)
    (hbatch : fits config.batch.toNat 16) (hneg : fits config.numNeg.toNat 8) :
    ∃ input events lists users items rows a',
      a.reader.input.next EdgeRecord a.reader.config.batch.toNat
        = (.ok (some (records.take config.batch.toNat)), input, events)
      ∧ input.Pending (records.drop config.batch.toNat)
      ∧ Trained (records.take config.batch.toNat) (a.cleared.withInput input events) lists users items
        rows a'
      ∧ Reader.fill a = (.ok true, a') := by
  obtain ⟨input, events, hnext, hpending⟩ := h.exists_next hcheck hbatch
  obtain rfl := h.config_eq
  rw [if_neg (by simpa using hsome)] at hnext
  obtain ⟨lists, users, items, rows, a', ht⟩ :=
    Assembly.exists_trained (a.cleared.withInput input events) hneg
      fun record hrecord => h.known record (List.mem_of_mem_take hrecord)
  exact ⟨input, events, lists, users, items, rows, a', hnext, hpending, ht,
    (fill_train hmode).2 ⟨_, input, events, lists, users, items, rows, hnext, ht⟩⟩

theorem Ready.exists_predicted {records : List NodeRecord}
    (h : Ready config slots (KnownNode config) records a) (hsome : records ≠ [])
    (hcheck : config.check = .ok ()) (hmode : config.isTrain = false)
    (hbatch : fits config.batch.toNat 8) :
    ∃ input events users items block a',
      a.reader.input.next NodeRecord a.reader.config.batch.toNat
        = (.ok (some (records.take config.batch.toNat)), input, events)
      ∧ input.Pending (records.drop config.batch.toNat)
      ∧ Predicted (records.take config.batch.toNat) (a.cleared.withInput input events) users items
        block a'
      ∧ Reader.fill a = (.ok true, a') := by
  obtain ⟨input, events, hnext, hpending⟩ := h.exists_next hcheck hbatch
  obtain rfl := h.config_eq
  rw [if_neg (by simpa using hsome)] at hnext
  obtain ⟨users, items, block, a', hp⟩ :=
    Assembly.exists_predicted (a.cleared.withInput input events)
      fun record hrecord => h.known record (List.mem_of_mem_take hrecord)
  exact ⟨input, events, users, items, block, a', hnext, hpending, hp,
    (fill_predict hmode).2 ⟨_, input, events, users, items, block, hnext, hp⟩⟩

theorem course_train [NegativeSampler.Answering σ] (hcheck : config.check = .ok ())
    (hmode : config.isTrain = true) (hbatch : fits config.batch.toNat 16)
    (hneg : fits config.numNeg.toNat 8) :
    Course γ σ config slots (KnownEdge config) (1 + config.numNeg.toNat) where
  batch_pos := batch_pos_of_check hcheck
  takes := by
    intro records a hready hsome
    obtain ⟨input, events, lists, users, items, rows, a', -, hpending, h, hfill⟩ :=
      hready.exists_trained hsome hcheck hmode hbatch hneg
    obtain rfl := hready.config_eq
    have hrows := h.length_rows
    refine ⟨a', .of_addBatch hfill rfl hrows h.reader ⟨rfl, rfl, rfl⟩ hpending ?_⟩
    rw [h.inst]
    rfl
  ends := by
    intro a hready
    obtain ⟨input, events, hnext, -⟩ := hready.exists_next hcheck hbatch
    obtain rfl := hready.config_eq
    exact ⟨_, .of_finished ((fill_train_ended hmode).2 ⟨input, events, hnext, rfl⟩)⟩

theorem course_predict (hcheck : config.check = .ok ()) (hmode : config.isTrain = false)
    (hbatch : fits config.batch.toNat 8) : Course γ σ config slots (KnownNode config) 1 where
  batch_pos := batch_pos_of_check hcheck
  takes := by
    intro records a hready hsome
    obtain ⟨input, events, users, items, block, a', -, hpending, h, hfill⟩ :=
      hready.exists_predicted hsome hcheck hmode hbatch
    obtain rfl := hready.config_eq
    have hrows := (Nat.mul_one (records.take a.reader.config.batch.toNat).length).symm
    refine ⟨a', .of_addBatch hfill rfl hrows h.reader ⟨rfl, rfl, rfl⟩ hpending ?_⟩
    rw [h.inst]
    rfl
  ends := by
    intro a hready
    obtain ⟨input, events, hnext, -⟩ := hready.exists_next hcheck hbatch
    obtain rfl := hready.config_eq
    exact ⟨_, .of_finished ((fill_predict_ended hmode).2 ⟨input, events, hnext, rfl⟩)⟩

end Calls

/-! ## A run over a text -/

theorem create_eq_ok {config : Config} {slots : SlotNames} {input : LineReader} {reader : Reader}
    {events : List Event} :
    Reader.create config slots input = .ok (reader, events)
      ↔ config.check = .ok () ∧ reader = { config, slots, input }
        ∧ events = [.readerCreated config] := by
  unfold create
  cases config.check with
  | error e => simp
  | ok _ => simp [eq_comm]

/-- What there is to work on before the first call of a reader. -/
def start (reader : Reader) (graph : γ) (sampler : σ) (inst : Instance) : Assembly γ σ :=
  { reader, graph, sampler, inst }

/-- A run over a text with known nodes takes all records of the text. The edges can be read back where
the three slots that they are written to have different names, as they have by default. -/
theorem run_takes_all_records {config : Config} {slots : SlotNames} {text : String} {reader : Reader}
    {events : List Event} (graph : Graph) (sampler : UniformSampler) (inst : Instance)
    (hcreate : Reader.create config slots (.ofBytes text.toByteArray) = .ok (reader, events)) :
    (config.isTrain = true → fits config.batch.toNat 16 → fits config.numNeg.toNat 8 →
      (∀ record ∈ recordsOfText EdgeRecord text, KnownEdge config record) →
        CompleteRun config.batch.toNat (recordsOfText EdgeRecord text).length
          (1 + config.numNeg.toNat) (start reader graph sampler inst)
        ∧ ([slots.srcId, slots.dstId, slots.label].Nodup →
          (List.range (((recordsOfText EdgeRecord text).length + config.batch.toNat - 1)
              / config.batch.toNat)).flatMap
              (fun n => decodedEdges (after (start reader graph sampler inst) n))
            = (recordsOfText EdgeRecord text).map some))
    ∧ (config.isTrain = false → fits config.batch.toNat 8 →
      (∀ record ∈ recordsOfText NodeRecord text, KnownNode config record) →
        CompleteRun config.batch.toNat (recordsOfText NodeRecord text).length 1
          (start reader graph sampler inst)
        ∧ (List.range (((recordsOfText NodeRecord text).length + config.batch.toNat - 1)
              / config.batch.toNat)).flatMap
              (fun n => decodedNodes (after (start reader graph sampler inst) n))
            = (recordsOfText NodeRecord text).map NodeRecord.node) := by
  obtain ⟨hcheck, rfl, -⟩ := create_eq_ok.1 hcreate
  constructor
  · intro hmode hbatch hneg hknown
    have hcourse : Course Graph UniformSampler config slots (KnownEdge config)
        (1 + config.numNeg.toNat) := course_train hcheck hmode hbatch hneg
    have hready : Ready config slots (KnownEdge config) (recordsOfText EdgeRecord text)
        (start { config, slots, input := .ofBytes text.toByteArray } graph sampler inst) :=
      ⟨rfl, rfl, LineReader.pending_ofBytes text, hknown⟩
    refine ⟨hcourse.completeRun hready rfl, fun hnames => hcourse.flatMap_decoded ?_ hready⟩
    intro records a hleft hsome
    -- each batch reads back as the records that it took
    obtain ⟨input, _, lists, users, items, rows, a', hnext, -, h, hfill⟩ :=
      hleft.exists_trained hsome hcheck hmode hbatch hneg
    obtain rfl := hleft.config_eq
    obtain rfl := hleft.slots_eq
    exact decodedEdges_eq (Config.tags_ne_of_check hcheck) hnames hnext h hfill
  · intro hmode hbatch hknown
    have hcourse : Course Graph UniformSampler config slots (KnownNode config) 1 :=
      course_predict hcheck hmode hbatch
    have hready : Ready config slots (KnownNode config) (recordsOfText NodeRecord text)
        (start { config, slots, input := .ofBytes text.toByteArray } graph sampler inst) :=
      ⟨rfl, rfl, LineReader.pending_ofBytes text, hknown⟩
    refine ⟨hcourse.completeRun hready rfl, hcourse.flatMap_decoded ?_ hready⟩
    intro records a hleft hsome
    obtain ⟨input, _, users, items, block, a', hnext, -, h, hfill⟩ :=
      hleft.exists_predicted hsome hcheck hmode hbatch
    obtain rfl := hleft.config_eq
    exact decodedNodes_eq h hfill

/-- Three edges, a comment and an empty line. -/
def notedEdges : String := "1 281474976710657\n# note\n\n1 281474976710658\n2 281474976710657\n"

/-- A reader of these, two records a batch. -/
def notedReader (isTrain : Bool) : Reader where
  config := { batch := 2, isTrain }
  slots := {}
  input := .ofBytes notedEdges.toByteArray

/-- A run over these with no graph and the default sampler. -/
def notedStart (isTrain : Bool) : Assembly Graph UniformSampler :=
  start (notedReader isTrain) .empty {} .empty

theorem run_takes_all_records_notedEdges :
    (CompleteRun 2 3 6 (notedStart true)
      ∧ (List.range 2).flatMap (fun n => decodedEdges (after (notedStart true) n))
        = [some ⟨1, 281474976710657⟩, some ⟨1, 281474976710658⟩, some ⟨2, 281474976710657⟩])
    ∧ (CompleteRun 2 3 1 (notedStart false)
      ∧ (List.range 2).flatMap (fun n => decodedNodes (after (notedStart false) n)) = [1, 1, 2]) := by
  have hcreate : ∀ isTrain : Bool, Reader.create { batch := 2, isTrain } {}
      (.ofBytes notedEdges.toByteArray)
        = .ok (notedReader isTrain, [.readerCreated { batch := 2, isTrain }]) := by
    intro isTrain
    exact create_eq_ok.2 ⟨by cases isTrain <;> decide, rfl, rfl⟩
  obtain ⟨hrun, hedges⟩ := (run_takes_all_records .empty {} .empty (hcreate true)).1 rfl (by decide)
    (by decide) (by decide)
  exact ⟨⟨hrun, hedges (by decide)⟩,
    (run_takes_all_records .empty {} .empty (hcreate false)).2 rfl (by decide) (by decide)⟩

end Reader

end BipartiteBatch
