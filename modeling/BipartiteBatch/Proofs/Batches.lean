import BipartiteBatch.Proofs.EdgeRows
import BipartiteBatch.Proofs.Slots

/-!
# Batches that succeed

What a call that gives a batch has done: the records it took, the answers it got, and what it left. For
either kind of batch this is a structure with one field for each part, and the call succeeds if and only
if there is such a structure.

* `Negatives.check_eq_ok` : the lists of a sampler that are accepted;
* `Assembly.Trained` : a training batch, `Assembly.trainOn_eq_ok` : how it comes about;
* `Assembly.Predicted` : a prediction batch, `Assembly.predictFor_eq_ok` : how it comes about;
* `Assembly.nextBatch_eq_true`, `Assembly.nextBatch_eq_false` : the records of a call, or their end;
* `Assembly.nextBatch_eq_error`, `Reader.fill_eq_error` : calls that fail;
* `Reader.fill_train`, `Reader.fill_predict` : the calls of a reader that give a batch;
* `Reader.fill_train_ended`, `Reader.fill_predict_ended` : the calls that do not.
-/

namespace BipartiteBatch

/-! ## Negatives -/

namespace Negatives

/-- How many negatives equal their destination. -/
def selfCount : List NodeId → List (List NodeId) → Nat
  | dst :: dsts, negatives :: lists => negatives.count dst + selfCount dsts lists
  | _, _ => 0

variable {count n : Nat} {dsts : List NodeId} {lists : List (List NodeId)}

theorem countSelf_eq_ok (hlength : lists.length = dsts.length) :
    countSelf count dsts lists = .ok n
      ↔ (∀ list ∈ lists, list.length = count) ∧ n = selfCount dsts lists := by
  induction dsts generalizing lists n with
  | nil =>
    obtain rfl := List.eq_nil_of_length_eq_zero hlength
    show Except.ok 0 = Except.ok n ↔ _
    simp [selfCount, eq_comm]
  | cons dst dsts ih =>
    match lists with
    | negatives :: lists =>
      unfold countSelf
      by_cases hnegatives : negatives.length = count
      · rw [if_pos hnegatives, except_bind_eq_ok, List.forall_mem_cons]
        constructor
        · rintro ⟨m, hm, h⟩
          obtain ⟨hlists, rfl⟩ := (ih (Nat.succ.inj hlength)).1 hm
          obtain rfl := except_pure_eq_ok.1 h
          exact ⟨⟨hnegatives, hlists⟩, rfl⟩
        · rintro ⟨⟨-, hlists⟩, rfl⟩
          exact ⟨_, (ih (Nat.succ.inj hlength)).2 ⟨hlists, rfl⟩, rfl⟩
      · rw [if_neg hnegatives]
        constructor
        · intro h
          cases h
        · intro h
          exact absurd (h.1 negatives List.mem_cons_self) hnegatives

/-- Lists are accepted if there is one for each destination and each has `count` negatives. -/
theorem check_eq_ok :
    check count dsts lists = .ok n ↔ lists.length = dsts.length
      ∧ (∀ list ∈ lists, list.length = count) ∧ n = selfCount dsts lists := by
  unfold check
  by_cases hlength : lists.length = dsts.length
  · rw [if_pos hlength, countSelf_eq_ok hlength, and_iff_right hlength]
  · rw [if_neg hlength]
    constructor
    · intro h
      cases h
    · intro h
      exact absurd h.1 hlength

def events (dsts : List NodeId) (lists : List (List NodeId)) : List Event :=
  if 0 < selfCount dsts lists then [.selfNegatives (selfCount dsts lists) dsts.length] else []

end Negatives

namespace Assembly

variable {γ σ : Type}

section Draw
variable [NegativeSampler σ] {a a' : Assembly γ σ}

def noteSelfNegatives (count total : Nat) : Assembling γ σ Unit := do
  if 0 < count then tell [.selfNegatives count total]
  modifyStats fun s => s.addSelfNegatives count

omit [NegativeSampler σ] in
theorem noteSelfNegatives_eq_ok {count total : Nat} :
    noteSelfNegatives count total a = (.ok (), a') ↔ a' = { a with
      reader := { a.reader with stats := a.reader.stats.addSelfNegatives count }
      events := a.events ++ if 0 < count then [.selfNegatives count total] else [] } := by
  unfold noteSelfNegatives
  by_cases hcount : 0 < count
  · simp only [if_pos hcount]
    rw [Query.bind_eq_ok]
    constructor
    · rintro ⟨_, _, htell, h⟩
      obtain rfl := tell_eq_ok.1 htell
      exact modifyStats_eq_ok.1 h
    · rintro rfl
      exact ⟨(), _, rfl, rfl⟩
  · simp only [if_neg hcount, List.append_nil]
    exact modifyStats_eq_ok

theorem drawNegatives_eq (dsts : List NodeId) (a : Assembly γ σ) :
    drawNegatives dsts a = (do
      let lists ← askSampler (NegativeSampler.negatives a.reader.config.numNeg.toNat dsts dsts)
      let count ← result (Negatives.check a.reader.config.numNeg.toNat dsts lists)
      noteSelfNegatives count dsts.length
      return lists : Assembling γ σ (List (List NodeId))) a := by
  unfold drawNegatives noteSelfNegatives
  rw [get_bind]
  -- the report splits what comes after it in two, below the two questions
  refine congrFun (congrArg (Bind.bind _) (funext fun lists => ?_)) a
  refine congrArg (Bind.bind _) (funext fun count => ?_)
  by_cases hcount : 0 < count
  · rw [if_pos hcount, if_pos hcount]
    rfl
  · rw [if_neg hcount, if_neg hcount]

/-- Negatives are drawn if the sampler gives lists that are accepted. -/
theorem drawNegatives_eq_ok {dsts : List NodeId} {lists : List (List NodeId)} :
    drawNegatives dsts a = (.ok lists, a') ↔ ∃ sampler,
      NegativeSampler.negatives a.reader.config.numNeg.toNat dsts dsts a.sampler = (.ok lists, sampler)
        ∧ lists.length = dsts.length
        ∧ (∀ list ∈ lists, list.length = a.reader.config.numNeg.toNat)
        ∧ a' = { a with
          reader := { a.reader with
            stats := a.reader.stats.addSelfNegatives (Negatives.selfCount dsts lists) }
          sampler
          events := a.events ++ Negatives.events dsts lists } := by
  rw [drawNegatives_eq, Query.bind_eq_ok]
  constructor
  · rintro ⟨_, _, hask, h⟩
    obtain ⟨sampler, hlists, rfl⟩ := askSampler_eq_ok.1 hask
    obtain ⟨count, _, hresult, h⟩ := Query.bind_eq_ok.1 h
    obtain ⟨hcheck, rfl⟩ := result_eq_ok.1 hresult
    obtain ⟨hlength, hall, rfl⟩ := Negatives.check_eq_ok.1 hcheck
    obtain ⟨_, _, hnote, h⟩ := Query.bind_eq_ok.1 h
    obtain rfl := noteSelfNegatives_eq_ok.1 hnote
    obtain ⟨rfl, rfl⟩ := Query.pure_eq_ok.1 h
    exact ⟨sampler, hlists, hlength, hall, rfl⟩
  · rintro ⟨sampler, hlists, hlength, hall, rfl⟩
    refine ⟨lists, _, askSampler_eq_ok.2 ⟨sampler, hlists, rfl⟩, ?_⟩
    refine Query.bind_eq_ok.2 ⟨_, _,
      result_eq_ok.2 ⟨Negatives.check_eq_ok.2 ⟨hlength, hall, rfl⟩, rfl⟩, ?_⟩
    exact Query.bind_eq_ok.2 ⟨(), _, noteSelfNegatives_eq_ok.2 rfl, rfl⟩

end Draw

/-! ## Training batches -/

/-- The nodes of a training batch: all sources, all destinations, and the negatives of each edge. -/
def trainingNodes (records : List EdgeRecord) (lists : List (List NodeId)) : List NodeId :=
  records.map EdgeRecord.src ++ records.map EdgeRecord.dst ++ lists.flatten

def flatOf (tags : GroupTags) (users items : Findings) : FlatIndex :=
  ⟨tags, users.indexing, items.indexing⟩

section Flat
variable [GraphClient γ] {config : Config} {nodes : List NodeId} {users items : Findings}
  {g between g' : γ}

theorem mem_nodes_ofList {tags : GroupTags} {group : Group} {node : NodeId} :
    node ∈ (Partition.ofList tags nodes).nodes group
      ↔ node ∈ nodes ∧ tags.groupOf? node = some group := by
  rw [Partition.nodes_ofList, List.mem_filter, decide_eq_true_iff]

theorem exists_index_of_mem_nodes
    (husers : users.Found config (Partition.ofList config.tags nodes).users g between)
    (hitems : items.Found config (Partition.ofList config.tags nodes).items between g')
    {group : Group} {node : NodeId} (hnode : node ∈ (Partition.ofList config.tags nodes).nodes group) :
    ∃ j, (flatOf config.tags users items).index node = .ok j := by
  apply FlatIndex.exists_index (mem_nodes_ofList.1 hnode).2
  cases group with
  | user =>
    show node ∈ users.indexing.nodes
    rw [husers.nodes_indexing]
    exact List.mem_eraseDups.2 hnode
  | item =>
    show node ∈ items.indexing.nodes
    rw [hitems.nodes_indexing]
    exact List.mem_eraseDups.2 hnode

end Flat

section Train
variable [GraphClient γ] [NegativeSampler σ] {a a' : Assembly γ σ} {records : List EdgeRecord}

/-- From `a`, edges are made into a training batch with these negatives, findings and rows, and `a'` is
left. -/
structure Trained (records : List EdgeRecord) (a : Assembly γ σ) (lists : List (List NodeId))
    (users items : Findings) (rows : List Block.EdgeRow) (a' : Assembly γ σ) : Prop where
  negatives : NegativeSampler.negatives a.reader.config.numNeg.toNat (records.map EdgeRecord.dst)
    (records.map EdgeRecord.dst) a.sampler = (.ok lists, a'.sampler)
  length_lists : lists.length = records.length
  length_of_mem_lists : ∀ list ∈ lists, list.length = a.reader.config.numNeg.toNat
  found : ∃ between,
    users.Found a.reader.config
      (Partition.ofList a.reader.config.tags (trainingNodes records lists)).users a.graph between
    ∧ items.Found a.reader.config
      (Partition.ofList a.reader.config.tags (trainingNodes records lists)).items between a'.graph
  edgeRows : Block.edgeRows (Block.flatIndex (flatOf a.reader.config.tags users items))
    (Block.flatIndex (flatOf a.reader.config.tags users items)) (records.map EdgeRecord.src)
    (records.map EdgeRecord.dst) lists = .ok rows
  inst : a'.inst = (a.inst.insertAll
    (trainingEntries a.reader.slots users items rows)).withBatchSize records.length
  reader : a'.reader = { a.reader with
    stats := (a.reader.stats.addSelfNegatives
      (Negatives.selfCount (records.map EdgeRecord.dst) lists)).addBatch records.length rows.length
        (Partition.ofList a.reader.config.tags (trainingNodes records lists)).unknown.length }
  events : a'.events = a.events ++ Negatives.events (records.map EdgeRecord.dst) lists
    ++ (Partition.ofList a.reader.config.tags (trainingNodes records lists)).events
      a.reader.config.tags

/-- Edges can be made into a training batch if and only if negatives, findings and rows for it can be
had. -/
theorem trainOn_eq_ok :
    trainOn records a = (.ok (), a')
      ↔ ∃ lists users items rows, Trained records a lists users items rows a' := by
  unfold trainOn
  rw [get_bind, Query.bind_eq_ok]
  constructor
  · rintro ⟨lists, _, hdraw, h⟩
    -- step by step: the draw, the groups, the encoders, the rows, the writing, the count
    obtain ⟨sampler, hlists, hlength, hall, rfl⟩ := drawNegatives_eq_ok.1 hdraw
    obtain ⟨_, _, hpartition, h⟩ := Query.bind_eq_ok.1 h
    obtain ⟨rfl, rfl⟩ := partition_eq_ok.1 hpartition
    obtain ⟨_, _, hfill, h⟩ := Query.bind_eq_ok.1 h
    obtain ⟨users, items, between, graph, husers, hitems, rfl, rfl⟩ := fillEncoders_eq_ok.1 hfill
    obtain ⟨rows, _, hresult, h⟩ := Query.bind_eq_ok.1 h
    obtain ⟨hrows, rfl⟩ := result_eq_ok.1 hresult
    obtain ⟨_, _, hwrite, h⟩ := Query.bind_eq_ok.1 h
    obtain rfl := modifyInstance_eq_ok.1 hwrite
    obtain rfl := countBatch_eq_ok.1 h
    refine ⟨lists, users, items, rows, hlists, ?_, hall, ⟨between, husers, hitems⟩, hrows, ?_, rfl,
      rfl⟩
    · rw [hlength, List.length_map]
    · rw [insertAll_trainingEntries]
  · rintro ⟨lists, users, items, rows, h⟩
    obtain ⟨between, husers, hitems⟩ := h.found
    have hlength : lists.length = (records.map EdgeRecord.dst).length := by
      rw [h.length_lists, List.length_map]
    refine ⟨lists, _, drawNegatives_eq_ok.2 ⟨_, h.negatives, hlength, h.length_of_mem_lists, rfl⟩, ?_⟩
    refine Query.bind_eq_ok.2 ⟨_, _, partition_eq_ok.2 ⟨rfl, rfl⟩, ?_⟩
    refine Query.bind_eq_ok.2 ⟨_, _,
      fillEncoders_eq_ok.2 ⟨users, items, between, _, husers, hitems, rfl, rfl⟩, ?_⟩
    refine Query.bind_eq_ok.2 ⟨rows, _, result_eq_ok.2 ⟨h.edgeRows, rfl⟩, ?_⟩
    refine Query.bind_eq_ok.2 ⟨(), _, modifyInstance_eq_ok.2 rfl, countBatch_eq_ok.2 ?_⟩
    obtain ⟨reader, graph, sampler, inst, events⟩ := a'
    have hinst := h.inst
    have hreader := h.reader
    have hevents := h.events
    dsimp only at hinst hreader hevents
    rw [insertAll_trainingEntries] at hinst
    rw [hinst, hreader, hevents]
    dsimp only
    rfl

/-- A training batch has as many rows as its edges have negatives, and one more for each edge. -/
theorem Trained.length_rows {lists : List (List NodeId)} {users items : Findings}
    {rows : List Block.EdgeRow} (h : Trained records a lists users items rows a') :
    rows.length = records.length * (1 + a.reader.config.numNeg.toNat) := by
  rw [Block.length_of_edgeRows h.edgeRows, length_flatten_of_length h.length_of_mem_lists,
    h.length_lists, List.length_map, Nat.mul_add, Nat.mul_one]

theorem Trained.get?_of_mem {lists : List (List NodeId)} {users items : Findings}
    {rows : List Block.EdgeRow} (h : Trained records a lists users items rows a')
    (hslots : a.reader.slots.Distinct) {name : String} {value : SlotValue}
    (hmem : (name, value) ∈ trainingEntries a.reader.slots users items rows) :
    a'.inst.get? name = some value := by
  rw [h.inst, Instance.get?_withBatchSize]
  exact Instance.get?_insertAll_of_mem ((sublist_trainingNames _ _ _ _).nodup hslots) hmem

/-- The labels are set last, so that their slot holds them whatever the slots are called. -/
theorem Trained.get?_label {lists : List (List NodeId)} {users items : Findings}
    {rows : List Block.EdgeRow} (h : Trained records a lists users items rows a') :
    a'.inst.get? a.reader.slots.label = some (.labels (rows.map Block.EdgeRow.label)) := by
  rw [h.inst, Instance.get?_withBatchSize, insertAll_trainingEntries, Block.writeEdges_eq,
    Instance.get?_insert, if_pos rfl]

end Train

/-! ## Prediction batches -/

section Predict
variable [GraphClient γ] {a a' : Assembly γ σ} {records : List NodeRecord}

/-- From `a`, nodes are made into a prediction batch with these findings and this block, and `a'` is
left. -/
structure Predicted (records : List NodeRecord) (a : Assembly γ σ) (users items : Findings)
    (block : Csr) (a' : Assembly γ σ) : Prop where
  sampler : a'.sampler = a.sampler
  found : ∃ between,
    users.Found a.reader.config
      (Partition.ofList a.reader.config.tags (records.map NodeRecord.node)).users a.graph between
    ∧ items.Found a.reader.config
      (Partition.ofList a.reader.config.tags (records.map NodeRecord.node)).items between a'.graph
  lookupBlock : Block.lookupBlock (flatOf a.reader.config.tags users items)
    (records.map NodeRecord.node) = .ok block
  inst : a'.inst = (a.inst.insertAll (predictionEntries a.reader.slots users items block
    (records.map NodeRecord.node))).withBatchSize records.length
  reader : a'.reader = { a.reader with
    stats := a.reader.stats.addBatch records.length records.length
      (Partition.ofList a.reader.config.tags (records.map NodeRecord.node)).unknown.length }
  events : a'.events = a.events
    ++ (Partition.ofList a.reader.config.tags (records.map NodeRecord.node)).events
      a.reader.config.tags

theorem predictFor_eq_ok :
    predictFor records a = (.ok (), a')
      ↔ ∃ users items block, Predicted records a users items block a' := by
  unfold predictFor
  rw [get_bind, Query.bind_eq_ok]
  constructor
  · rintro ⟨_, _, hpartition, h⟩
    obtain ⟨rfl, rfl⟩ := partition_eq_ok.1 hpartition
    obtain ⟨_, _, hfill, h⟩ := Query.bind_eq_ok.1 h
    obtain ⟨users, items, between, graph, husers, hitems, rfl, rfl⟩ := fillEncoders_eq_ok.1 hfill
    obtain ⟨block, _, hresult, h⟩ := Query.bind_eq_ok.1 h
    obtain ⟨hblock, rfl⟩ := result_eq_ok.1 hresult
    obtain ⟨_, _, hwrite, h⟩ := Query.bind_eq_ok.1 h
    obtain rfl := modifyInstance_eq_ok.1 hwrite
    obtain rfl := countBatch_eq_ok.1 h
    refine ⟨users, items, block, rfl, ⟨between, husers, hitems⟩, hblock, ?_, rfl, rfl⟩
    rw [insertAll_predictionEntries]
  · rintro ⟨users, items, block, h⟩
    obtain ⟨between, husers, hitems⟩ := h.found
    refine ⟨_, _, partition_eq_ok.2 ⟨rfl, rfl⟩, ?_⟩
    refine Query.bind_eq_ok.2 ⟨_, _,
      fillEncoders_eq_ok.2 ⟨users, items, between, _, husers, hitems, rfl, rfl⟩, ?_⟩
    refine Query.bind_eq_ok.2 ⟨block, _, result_eq_ok.2 ⟨h.lookupBlock, rfl⟩, ?_⟩
    refine Query.bind_eq_ok.2 ⟨(), _, modifyInstance_eq_ok.2 rfl, countBatch_eq_ok.2 ?_⟩
    obtain ⟨reader, graph, sampler, inst, events⟩ := a'
    have hsampler := h.sampler
    have hinst := h.inst
    have hreader := h.reader
    have hevents := h.events
    dsimp only at hsampler hinst hreader hevents
    rw [insertAll_predictionEntries] at hinst
    rw [hsampler, hinst, hreader, hevents]

theorem Predicted.get?_of_mem {users items : Findings} {block : Csr}
    (h : Predicted records a users items block a') (hslots : a.reader.slots.Distinct)
    {name : String} {value : SlotValue} (hmem : (name, value)
      ∈ predictionEntries a.reader.slots users items block (records.map NodeRecord.node)) :
    a'.inst.get? name = some value := by
  rw [h.inst, Instance.get?_withBatchSize]
  exact Instance.get?_insertAll_of_mem ((sublist_predictionNames _ _ _ _ _).nodup hslots) hmem

end Predict

/-! ## The next batch -/

section Next
variable {ρ : Type} [Record ρ] {make : List ρ → Assembling γ σ Unit} {a a' : Assembly γ σ}

def withInput (a : Assembly γ σ) (input : LineReader) (events : List Event) : Assembly γ σ :=
  { a with reader := { a.reader with input }, events := a.events ++ events }

def finished (a : Assembly γ σ) : Assembly γ σ := (finish a).2

theorem nextRecords_eq_iff {result : Except Failure (Option (List ρ))} :
    nextRecords ρ a = (result, a') ↔ ∃ input events,
      a.reader.input.next ρ a.reader.config.batch.toNat = (result, input, events)
        ∧ a' = a.withInput input events := by
  unfold nextRecords
  constructor
  · intro h
    obtain ⟨hresult, hstate⟩ := Prod.mk.inj h
    exact ⟨_, _, Prod.ext hresult rfl, hstate.symm⟩
  · rintro ⟨input, events, hnext, rfl⟩
    rw [hnext]
    rfl

/-- A call gives a batch if there are records and these can be made into one. -/
theorem nextBatch_eq_true :
    nextBatch ρ make a = (.ok true, a') ↔ ∃ records input events,
      a.reader.input.next ρ a.reader.config.batch.toNat = (.ok (some records), input, events)
        ∧ make records (a.withInput input events) = (.ok (), a') := by
  unfold nextBatch
  rw [Query.bind_eq_ok]
  constructor
  · rintro ⟨records, _, hrecords, h⟩
    obtain ⟨input, events, hnext, rfl⟩ := nextRecords_eq_iff.1 hrecords
    cases records with
    | none =>
      obtain ⟨hresult, -⟩ := Prod.mk.inj h
      cases hresult
    | some records =>
      obtain ⟨_, _, hmake, h⟩ := Query.bind_eq_ok.1 h
      obtain ⟨-, rfl⟩ := Query.pure_eq_ok.1 h
      exact ⟨records, input, events, hnext, hmake⟩
  · rintro ⟨records, input, events, hnext, hmake⟩
    refine ⟨some records, _, nextRecords_eq_iff.2 ⟨input, events, hnext, rfl⟩, ?_⟩
    exact Query.bind_eq_ok.2 ⟨(), a', hmake, rfl⟩

theorem nextBatch_eq_false :
    nextBatch ρ make a = (.ok false, a') ↔ ∃ input events,
      a.reader.input.next ρ a.reader.config.batch.toNat = (.ok none, input, events)
        ∧ a' = (a.withInput input events).finished := by
  unfold nextBatch
  rw [Query.bind_eq_ok]
  constructor
  · rintro ⟨records, _, hrecords, h⟩
    obtain ⟨input, events, hnext, rfl⟩ := nextRecords_eq_iff.1 hrecords
    cases records with
    | none => exact ⟨input, events, hnext, (Prod.mk.inj h).2.symm⟩
    | some records =>
      obtain ⟨_, _, hmake, h⟩ := Query.bind_eq_ok.1 h
      obtain ⟨hresult, -⟩ := Query.pure_eq_ok.1 h
      cases hresult
  · rintro ⟨input, events, hnext, rfl⟩
    exact ⟨none, _, nextRecords_eq_iff.2 ⟨input, events, hnext, rfl⟩, rfl⟩

/-- A call fails if the input cannot be read, or if its records cannot be made into a batch. -/
theorem nextBatch_eq_error {e : Failure} :
    nextBatch ρ make a = (.error e, a') ↔
      (∃ input events, a.reader.input.next ρ a.reader.config.batch.toNat = (.error e, input, events)
        ∧ a' = a.withInput input events)
      ∨ ∃ records input events,
        a.reader.input.next ρ a.reader.config.batch.toNat = (.ok (some records), input, events)
          ∧ make records (a.withInput input events) = (.error e, a') := by
  unfold nextBatch
  rw [Query.bind_eq_error, nextRecords_eq_iff]
  refine or_congr_right ?_
  constructor
  · rintro ⟨records, _, hrecords, h⟩
    obtain ⟨input, events, hnext, rfl⟩ := nextRecords_eq_iff.1 hrecords
    cases records with
    | none => cases (Prod.mk.inj h).1
    | some records =>
      rcases Query.bind_eq_error.1 h with hmake | ⟨_, _, -, h⟩
      · exact ⟨records, input, events, hnext, hmake⟩
      · cases (Prod.mk.inj h).1
  · rintro ⟨records, input, events, hnext, hmake⟩
    exact ⟨some records, _, nextRecords_eq_iff.2 ⟨input, events, hnext, rfl⟩, Query.bind_error hmake⟩

end Next

/-- What a call of a reader begins with: the instance is cleared. -/
def cleared (a : Assembly γ σ) : Assembly γ σ := { a with inst := .empty }

end Assembly

/-! ## The calls of a reader -/

namespace Reader

variable {γ σ : Type} [GraphClient γ] [NegativeSampler σ] {a a' : Assembly γ σ}

open Assembly

theorem fill_eq_ok {more : Bool} :
    Reader.fill a = (.ok more, a') ↔ nextOf a.reader.config.mode a.cleared = (.ok more, a') := by
  unfold Reader.fill
  rw [show ({ a with inst := .empty } : Assembly γ σ) = a.cleared from rfl]
  cases nextOf a.reader.config.mode a.cleared with
  | mk result state =>
    cases result with
    | ok b => exact Iff.rfl
    | error e => simp

theorem fill_eq_error {e : Failure} :
    Reader.fill a = (.error e, a') ↔ ∃ t, nextOf a.reader.config.mode a.cleared = (.error e, t)
      ∧ a' = t.cleared := by
  unfold Reader.fill
  rw [show ({ a with inst := .empty } : Assembly γ σ) = a.cleared from rfl]
  cases nextOf a.reader.config.mode a.cleared with
  | mk result state =>
    cases result with
    | ok b => simp
    | error e => simp [cleared, eq_comm]

theorem nextOf_train (hmode : a.reader.config.isTrain = true) :
    nextOf a.reader.config.mode a.cleared = nextBatch EdgeRecord trainOn a.cleared := by
  rw [Config.mode, if_pos hmode]
  rfl

theorem nextOf_predict (hmode : a.reader.config.isTrain = false) :
    nextOf a.reader.config.mode a.cleared = nextBatch NodeRecord predictFor a.cleared := by
  rw [Config.mode, hmode]
  rfl

/-- A call in training gives a batch of the next edges. -/
theorem fill_train (hmode : a.reader.config.isTrain = true) :
    Reader.fill a = (.ok true, a') ↔ ∃ records input events lists users items rows,
      a.reader.input.next EdgeRecord a.reader.config.batch.toNat = (.ok (some records), input, events)
        ∧ Trained records (a.cleared.withInput input events) lists users items rows a' := by
  rw [fill_eq_ok, nextOf_train hmode, nextBatch_eq_true]
  constructor
  · rintro ⟨records, input, events, hnext, hmake⟩
    obtain ⟨lists, users, items, rows, h⟩ := trainOn_eq_ok.1 hmake
    exact ⟨records, input, events, lists, users, items, rows, hnext, h⟩
  · rintro ⟨records, input, events, lists, users, items, rows, hnext, h⟩
    exact ⟨records, input, events, hnext, trainOn_eq_ok.2 ⟨lists, users, items, rows, h⟩⟩

theorem fill_predict (hmode : a.reader.config.isTrain = false) :
    Reader.fill a = (.ok true, a') ↔ ∃ records input events users items block,
      a.reader.input.next NodeRecord a.reader.config.batch.toNat = (.ok (some records), input, events)
        ∧ Predicted records (a.cleared.withInput input events) users items block a' := by
  rw [fill_eq_ok, nextOf_predict hmode, nextBatch_eq_true]
  constructor
  · rintro ⟨records, input, events, hnext, hmake⟩
    obtain ⟨users, items, block, h⟩ := predictFor_eq_ok.1 hmake
    exact ⟨records, input, events, users, items, block, hnext, h⟩
  · rintro ⟨records, input, events, users, items, block, hnext, h⟩
    exact ⟨records, input, events, hnext, predictFor_eq_ok.2 ⟨users, items, block, h⟩⟩

theorem fill_train_ended (hmode : a.reader.config.isTrain = true) :
    Reader.fill a = (.ok false, a') ↔ ∃ input events,
      a.reader.input.next EdgeRecord a.reader.config.batch.toNat = (.ok none, input, events)
        ∧ a' = (a.cleared.withInput input events).finished := by
  rw [fill_eq_ok, nextOf_train hmode]
  exact nextBatch_eq_false

theorem fill_predict_ended (hmode : a.reader.config.isTrain = false) :
    Reader.fill a = (.ok false, a') ↔ ∃ input events,
      a.reader.input.next NodeRecord a.reader.config.batch.toNat = (.ok none, input, events)
        ∧ a' = (a.cleared.withInput input events).finished := by
  rw [fill_eq_ok, nextOf_predict hmode]
  exact nextBatch_eq_false

end Reader

end BipartiteBatch
