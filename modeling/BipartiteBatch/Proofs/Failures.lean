import BipartiteBatch.Proofs.Calls
import BipartiteBatch.Proofs.Completeness

/-!
# Calls that fail

With a graph held in memory and the uniform sampler nothing can go wrong over a text but one thing: a
record with a node that is neither a user nor an item. Its nodes are looked up in an order, and the first
unknown one is what the call fails with; before that all unknown nodes of the batch are reported. So no
batch has unknown nodes, whatever the graph and the sampler.

* `outcomeOf` : how a call ends that looks up nodes in an order, `unknownEvents` : the reports of nodes;
* `Assembly.mapM_flatIndex_eq_error` : which node fails a look-up;
* `Assembly.Prepared.trainOn_of_unknown`, `Assembly.predictFor_of_unknown` : what a batch with an unknown
  node leaves;
* `Reader.FailsByUnknown` : a call that fails by unknown nodes only;
* `Reader.Reachable.invalidNodes_eq` : unknown nodes are never counted;
* `Reader.fill_fails_by_unknown` : the calls of a reader over a text.
-/

namespace BipartiteBatch

/-! ## Unknown nodes -/

def firstUnknown? (tags : GroupTags) (order : List NodeId) : Option NodeId :=
  order.find? fun node => ¬ tags.Known node

/-- How a call ends that looks up nodes in an order: the first unknown one fails it. -/
def outcomeOf (tags : GroupTags) (order : List NodeId) : Except Failure Bool :=
  match firstUnknown? tags order with
  | none => .ok true
  | some node => .error (.error (.node (.unknownGroup node tags)))

/-- The reports of the unknown nodes of a list, one for each occurrence. -/
def unknownEvents (tags : GroupTags) (nodes : List NodeId) : List Event :=
  (nodes.filter fun node => ¬ tags.Known node).map fun node => .unknownNode node tags

theorem Partition.unknown_ofList (tags : GroupTags) (nodes : List NodeId) :
    (Partition.ofList tags nodes).unknown = nodes.filter fun node => ¬ tags.Known node := by
  rw [ofList_eq]
  exact List.filter_congr fun _ _ => decide_eq_decide.2 GroupTags.groupOf?_eq_none

theorem Partition.events_ofList (tags : GroupTags) (nodes : List NodeId) :
    (Partition.ofList tags nodes).events tags = unknownEvents tags nodes := by
  rw [events, unknown_ofList, unknownEvents]

def errorsAmong (events : List Event) : List Event := events.filter fun e => e.level = .error

theorem errorsAmong_append (events more : List Event) :
    errorsAmong (events ++ more) = errorsAmong events ++ errorsAmong more := List.filter_append _ _

theorem errorsAmong_unknownEvents (tags : GroupTags) (nodes : List NodeId) :
    errorsAmong (unknownEvents tags nodes) = unknownEvents tags nodes := by
  rw [errorsAmong, List.filter_eq_self]
  intro e he
  obtain ⟨node, -, rfl⟩ := List.mem_map.1 he
  rfl

theorem errorsAmong_negatives (dsts : List NodeId) (lists : List (List NodeId)) :
    errorsAmong (Negatives.events dsts lists) = [] := by
  unfold Negatives.events
  split
  · rfl
  · rfl

theorem errorsAmong_of_next {ρ : Type} [Record ρ] {count : Nat} {r r' : LineReader}
    {result : Except Failure (Option (List ρ))} {events : List Event}
    (h : r.next ρ count = (result, r', events)) : errorsAmong events = [] := by
  rw [errorsAmong, List.filter_eq_nil_iff]
  refine LineReader.forall_mem_next_events (fun _ _ => ?_) (fun _ _ => ?_) h
  · exact of_decide_eq_false rfl
  · exact of_decide_eq_false rfl

namespace Assembly

variable {γ σ : Type} [GraphClient γ]

/-! ## Look-ups that fail -/

theorem flatIndex_of_unknown {flat : FlatIndex} {node : NodeId} (h : ¬ flat.tags.Known node) :
    Block.flatIndex flat node = .error (.node (.unknownGroup node flat.tags)) := by
  rw [Block.flatIndex, FlatIndex.index, GroupTags.groupOf, GroupTags.groupOf?_eq_none.2 h]

theorem known_of_flatIndex {flat : FlatIndex} {node : NodeId} {i : Nat}
    (h : Block.flatIndex flat node = .ok i) : flat.tags.Known node := by
  by_contra hunknown
  rw [flatIndex_of_unknown hunknown] at h
  cases h

/-- Among nodes of a batch the first unknown one fails a look-up, and no other node does. -/
theorem mapM_flatIndex_eq_error {config : Config} {nodes order : List NodeId} {users items : Findings}
    {g between g' : γ}
    (husers : users.Found config (Partition.ofList config.tags nodes).users g between)
    (hitems : items.Found config (Partition.ofList config.tags nodes).items between g')
    (horder : ∀ node ∈ order, node ∈ nodes) {e : BatchError} :
    order.mapM (Block.flatIndex (flatOf config.tags users items)) = .error e
      ↔ ∃ node, firstUnknown? config.tags order = some node
        ∧ e = .node (.unknownGroup node config.tags) := by
  apply mapM_eq_error_iff_find?
  · intro node hnode hgood
    have hknown : config.tags.Known node := not_not.1 (of_decide_eq_false hgood)
    exact exists_flatIndex husers hitems (horder node hnode) hknown
  · intro node _ hbad
    have hunknown : ¬ config.tags.Known node := of_decide_eq_true hbad
    exact flatIndex_of_unknown hunknown

variable {a : Assembly γ σ} {e : BatchError}

omit [GraphClient γ] in
theorem result_eq_error {α : Type} {r : Except BatchError α} {a' : Assembly γ σ} :
    result r a = (.error (.error e), a') ↔ r = .error e ∧ a' = a := by
  rw [result, Query.lift_apply, Prod.mk.injEq, mapError_eq_error fun _ _ => Failure.error.inj]
  exact and_congr_right fun _ => eq_comm

section Train
variable [NegativeSampler σ] {records : List EdgeRecord} {lists : List (List NodeId)}
  {users items : Findings} {graph : γ} {sampler : σ}

/-- The nodes of a training batch in the order in which they are looked up. -/
def trainingOrder (records : List EdgeRecord) (lists : List (List NodeId)) : List NodeId :=
  Block.lookupOrder (records.map EdgeRecord.src) (records.map EdgeRecord.dst) lists

theorem Prepared.edgeRows_eq_error (h : Prepared records a lists users items graph sampler) :
    Block.edgeRows (Block.flatIndex (flatOf a.reader.config.tags users items))
        (Block.flatIndex (flatOf a.reader.config.tags users items)) (records.map EdgeRecord.src)
        (records.map EdgeRecord.dst) lists = .error e
      ↔ ∃ node, firstUnknown? a.reader.config.tags (trainingOrder records lists) = some node
        ∧ e = .node (.unknownGroup node a.reader.config.tags) := by
  obtain ⟨between, husers, hitems⟩ := h.found
  rw [Block.edgeRows_eq_error h.lengths]
  exact mapM_flatIndex_eq_error husers hitems fun node => (Block.mem_lookupOrder h.lengths).1

/-- Prepared edges without unknown nodes make a batch. -/
theorem Prepared.exists_trained_of_known (h : Prepared records a lists users items graph sampler)
    (hknown : firstUnknown? a.reader.config.tags (trainingOrder records lists) = none) :
    ∃ rows a', Trained records a lists users items rows a' := by
  obtain ⟨rows, hrows⟩ := except_exists_ok_iff.2 fun e herror => by
    obtain ⟨node, hnode, -⟩ := h.edgeRows_eq_error.1 herror
    rw [hknown] at hnode
    cases hnode
  obtain ⟨a', htrained⟩ := h.exists_trained hrows
  exact ⟨rows, a', htrained⟩

/-- Prepared edges with an unknown node fail by the first one. The negatives that equal their destination
stay counted, and the unknown nodes are reported. -/
theorem Prepared.trainOn_of_unknown (h : Prepared records a lists users items graph sampler)
    {node : NodeId}
    (hunknown : firstUnknown? a.reader.config.tags (trainingOrder records lists) = some node) :
    ∃ a', trainOn records a
        = (.error (.error (.node (.unknownGroup node a.reader.config.tags))), a')
      ∧ a'.reader = { a.reader with
        stats := a.reader.stats.addSelfNegatives
          (Negatives.selfCount (records.map EdgeRecord.dst) lists) }
      ∧ a'.events = a.events ++ Negatives.events (records.map EdgeRecord.dst) lists
        ++ unknownEvents a.reader.config.tags (trainingNodes records lists) := by
  obtain ⟨between, husers, hitems⟩ := h.found
  have hrows := h.edgeRows_eq_error.2 ⟨node, hunknown, rfl⟩
  have hdraw := drawNegatives_eq_ok.2
    ⟨sampler, h.negatives, h.lengths.2.symm, h.length_of_mem_lists, rfl⟩
  rw [← Partition.events_ofList]
  unfold trainOn
  rw [get_bind]
  refine ⟨{ reader := _, graph := graph, sampler := sampler, inst := ?_, events := _ }, ?_, rfl, rfl⟩
  · exact items.write a.reader.slots.item (users.write a.reader.slots.user a.inst)
  refine Query.bind_eq_error.2 (.inr ⟨lists, _, hdraw, ?_⟩)
  refine Query.bind_eq_error.2 (.inr ⟨_, _, partition_eq_ok.2 ⟨rfl, rfl⟩, ?_⟩)
  refine Query.bind_eq_error.2 (.inr ⟨_, _,
    fillEncoders_eq_ok.2 ⟨users, items, between, graph, husers, hitems, rfl, rfl⟩, ?_⟩)
  exact Query.bind_error (result_eq_error.2 ⟨hrows, rfl⟩)

end Train

section Predict
variable [GraphClient.Answering γ] (a) (records : List NodeRecord)

theorem exists_predicted_of_known
    (hknown : firstUnknown? a.reader.config.tags (records.map NodeRecord.node) = none) :
    ∃ users items block a', Predicted records a users items block a' := by
  apply exists_predicted
  intro record hrecord
  have hnode := List.find?_eq_none.1 hknown record.node (List.mem_map_of_mem hrecord)
  exact not_not.1 fun hunknown => hnode (decide_eq_true hunknown)

theorem predictFor_of_unknown {node : NodeId}
    (hunknown : firstUnknown? a.reader.config.tags (records.map NodeRecord.node) = some node) :
    ∃ a', predictFor records a
        = (.error (.error (.node (.unknownGroup node a.reader.config.tags))), a')
      ∧ a'.events = a.events ++ unknownEvents a.reader.config.tags (records.map NodeRecord.node) := by
  let p := Partition.ofList a.reader.config.tags (records.map NodeRecord.node)
  obtain ⟨users, between, husers⟩ := Findings.exists_found a.reader.config p.users a.graph
  obtain ⟨items, graph, hitems⟩ := Findings.exists_found a.reader.config p.items between
  have hblock : Block.lookupBlock (flatOf a.reader.config.tags users items)
      (records.map NodeRecord.node) = .error (.node (.unknownGroup node a.reader.config.tags)) := by
    rw [Block.lookupBlock_eq_error, mapM_flatIndex_eq_error husers hitems fun _ h => h]
    exact ⟨node, hunknown, rfl⟩
  rw [← Partition.events_ofList]
  unfold predictFor
  rw [get_bind]
  refine ⟨{ reader := a.reader, graph := graph, sampler := a.sampler, inst := ?_, events := _ }, ?_, rfl⟩
  · exact items.write a.reader.slots.item (users.write a.reader.slots.user a.inst)
  refine Query.bind_eq_error.2 (.inr ⟨_, _, partition_eq_ok.2 ⟨rfl, rfl⟩, ?_⟩)
  refine Query.bind_eq_error.2 (.inr ⟨_, _,
    fillEncoders_eq_ok.2 ⟨users, items, between, graph, husers, hitems, rfl, rfl⟩, ?_⟩)
  exact Query.bind_error (result_eq_error.2 ⟨hblock, rfl⟩)

end Predict

/-! ## Unknown nodes are never counted -/

omit [GraphClient γ] in
theorem unknown_eq_nil {flat : FlatIndex} {nodes : List NodeId}
    (h : ∀ node ∈ nodes, ∃ i, Block.flatIndex flat node = .ok i) :
    (Partition.ofList flat.tags nodes).unknown = [] := by
  rw [Partition.unknown_ofList, List.filter_eq_nil_iff]
  intro node hnode hunknown
  obtain ⟨i, hi⟩ := h node hnode
  exact of_decide_eq_true hunknown (known_of_flatIndex hi)

/-- A training batch has no unknown nodes. -/
theorem Trained.unknown_eq_nil [NegativeSampler σ] {records : List EdgeRecord}
    {lists : List (List NodeId)} {users items : Findings} {rows : List Block.EdgeRow}
    {a' : Assembly γ σ} (h : Trained records a lists users items rows a') :
    (Partition.ofList a.reader.config.tags (trainingNodes records lists)).unknown = [] := by
  have hlengths : (records.map EdgeRecord.src).length = (records.map EdgeRecord.dst).length := by
    rw [List.length_map, List.length_map]
  have hlookups := (Block.exists_edgeRows ⟨hlengths, h.draws.length_lists.symm⟩).1 ⟨rows, h.edgeRows⟩
  exact Assembly.unknown_eq_nil hlookups

theorem Predicted.unknown_eq_nil {records : List NodeRecord} {users items : Findings} {block : Csr}
    {a' : Assembly γ σ} (h : Predicted records a users items block a') :
    (Partition.ofList a.reader.config.tags (records.map NodeRecord.node)).unknown = [] := by
  obtain ⟨indices, hindices, -⟩ := Block.lookupBlock_eq_ok.1 h.lookupBlock
  exact Assembly.unknown_eq_nil (forall_ok_of_mapM hindices)

end Assembly

namespace Reader

open Assembly

variable {γ σ : Type} [GraphClient γ] [NegativeSampler σ] {a a' : Assembly γ σ}
  {r : Except Failure Bool}

omit [GraphClient γ] [NegativeSampler σ] in
theorem invalidNodes_addBatch (s : Stats) (records rows : Nat) :
    (s.addBatch records rows 0).invalidNodes = s.invalidNodes := UInt64.add_zero _

theorem invalidNodes_of_called_train (h : Called trainOn a r a') :
    a'.reader.stats.invalidNodes = a.reader.stats.invalidNodes := by
  cases h with
  | unread next => rfl
  | ended next => rfl
  | made next done =>
    obtain ⟨lists, users, items, rows, h⟩ := trainOn_eq_ok.1 done
    rw [h.reader, h.unknown_eq_nil]
    exact invalidNodes_addBatch _ _ _
  | failed next undone =>
    rcases trainOn_eq_error undone with ⟨-, h⟩ | ⟨lists, -, h⟩
    · exact congrArg (fun r => r.stats.invalidNodes) h
    · exact congrArg (fun r => r.stats.invalidNodes) h

omit [NegativeSampler σ] in
theorem invalidNodes_of_called_predict (h : Called predictFor a r a') :
    a'.reader.stats.invalidNodes = a.reader.stats.invalidNodes := by
  cases h with
  | unread next => rfl
  | ended next => rfl
  | made next done =>
    obtain ⟨users, items, block, h⟩ := predictFor_eq_ok.1 done
    rw [h.reader, h.unknown_eq_nil]
    exact invalidNodes_addBatch _ _ _
  | failed next undone =>
    exact congrArg (fun r => r.stats.invalidNodes) (predictFor_eq_error undone)

/-- No call counts unknown nodes: a batch has none, and a call that fails counts none. -/
theorem fill_invalidNodes_eq (a : Assembly γ σ) :
    (Reader.fill a).2.reader.stats.invalidNodes = a.reader.stats.invalidNodes := by
  cases hmode : a.reader.config.isTrain with
  | true => exact invalidNodes_of_called_train (called_train hmode)
  | false => exact invalidNodes_of_called_predict (called_predict hmode)

theorem Reachable.invalidNodes_eq {first r : Reader} (h : Reachable γ σ first r) :
    r.stats.invalidNodes = first.stats.invalidNodes := by
  induction h with
  | start => rfl
  | call _ ih => exact (fill_invalidNodes_eq _).trans ih

/-! ## Calls that fail by unknown nodes only -/

/-- Among the events of the next call these are the ones of the level of errors. -/
def TellsErrors (a : Assembly γ σ) (errors : List Event) : Prop :=
  ∃ told, (Reader.fill a).2.events = a.events ++ told ∧ errorsAmong told = errors

/-- The next call fails if and only if one of its own nodes is unknown. It fails with the first unknown
node in the order in which it looks them up, and reports each unknown node. -/
structure FailsByUnknown (tags : GroupTags) (own order reported : List NodeId) (a : Assembly γ σ) :
    Prop where
  fails_iff : (∃ e, (Reader.fill a).1 = .error e) ↔ ∃ node ∈ own, ¬ tags.Known node
  outcome_eq : (Reader.fill a).1 = outcomeOf tags order
  message_eq : ∀ e, (Reader.fill a).1 = .error (.error e) → ∃ node,
    firstUnknown? tags order = some node ∧ e.message
      = s!"Invalid node: {node} with ns_id: {node.tag}, expect {tags.user} or {tags.item}"
  tells : TellsErrors a (unknownEvents tags reported)

omit [GraphClient γ] [NegativeSampler σ] in
theorem exists_outcomeOf_eq_error {tags : GroupTags} {order : List NodeId} :
    (∃ e, outcomeOf tags order = .error e) ↔ ∃ node ∈ order, ¬ tags.Known node := by
  unfold outcomeOf
  cases hfind : firstUnknown? tags order with
  | none =>
    have hnone := List.find?_eq_none.1 hfind
    simpa using hnone
  | some node =>
    obtain ⟨hunknown, -⟩ := List.find?_eq_some_iff_append.1 hfind
    have hmem := List.mem_of_find?_eq_some hfind
    exact ⟨fun _ => ⟨node, hmem, of_decide_eq_true hunknown⟩, fun _ => ⟨_, rfl⟩⟩

theorem FailsByUnknown.of_fill {tags : GroupTags} {own order reported : List NodeId}
    (told : List Event) (hown : ∀ node, node ∈ order ↔ node ∈ own)
    (hfill : ∃ a', Reader.fill a = (outcomeOf tags order, a')
      ∧ a'.events = a.events ++ told ++ unknownEvents tags reported)
    (htold : errorsAmong told = []) : FailsByUnknown tags own order reported a := by
  obtain ⟨a', hfill, hevents⟩ := hfill
  have houtcome : (Reader.fill a).1 = outcomeOf tags order := by rw [hfill]
  refine ⟨?_, houtcome, ?_, told ++ unknownEvents tags reported, ?_, ?_⟩
  · rw [houtcome, exists_outcomeOf_eq_error]
    simp only [hown]
  · intro e he
    rw [houtcome, outcomeOf] at he
    cases hfirst : firstUnknown? tags order with
    | none =>
      rw [hfirst] at he
      cases he
    | some node =>
      rw [hfirst] at he
      obtain rfl := Failure.error.inj (Except.error.inj he)
      exact ⟨node, rfl, rfl⟩
  · rw [hfill, hevents, List.append_assoc]
  · rw [errorsAmong_append, htold, errorsAmong_unknownEvents, List.nil_append]

section Answering
variable [GraphClient.Answering γ] {input : LineReader} {events : List Event}

/-- In training a call with records fails by unknown nodes only. -/
theorem failsByUnknown_train [NegativeSampler.Answering σ] (hmode : a.reader.config.isTrain = true)
    (hfits : fits a.reader.config.numNeg.toNat 8) {records : List EdgeRecord}
    (hnext : a.reader.input.next EdgeRecord a.reader.config.batch.toNat
      = (.ok (some records), input, events)) :
    ∃ lists sampler, NegativeSampler.negatives a.reader.config.numNeg.toNat
        (records.map EdgeRecord.dst) (records.map EdgeRecord.dst) a.sampler = (.ok lists, sampler)
      ∧ lists.length = records.length
      ∧ FailsByUnknown a.reader.config.tags (records.map EdgeRecord.src ++ records.map EdgeRecord.dst)
        (trainingOrder records lists) (trainingNodes records lists) a := by
  obtain ⟨lists, users, items, graph, sampler, h, hmem⟩ :=
    exists_prepared (a.cleared.withInput input events) records hfits
  refine ⟨lists, sampler, h.negatives, h.length_lists,
    .of_fill (events ++ Negatives.events (records.map EdgeRecord.dst) lists) ?_ ?_ ?_⟩
  · intro node
    rw [trainingOrder, Block.mem_lookupOrder h.lengths, List.mem_append]
    exact or_iff_left_of_imp fun hnode => List.mem_append_right _ (hmem node hnode)
  · unfold outcomeOf
    -- without unknown nodes there is a batch; the first unknown one fails the listing of the rows
    cases hfirst : firstUnknown? a.reader.config.tags (trainingOrder records lists) with
    | none =>
      obtain ⟨rows, a', ht⟩ := h.exists_trained_of_known hfirst
      refine ⟨a', (fill_train hmode).2 ⟨records, input, events, lists, users, items, rows, hnext, ht⟩, ?_⟩
      rw [ht.events, Partition.events_ofList]
      simp only [withInput, cleared, List.append_assoc]
    | some node =>
      obtain ⟨a', hmake, -, hevents⟩ := h.trainOn_of_unknown hfirst
      refine ⟨a'.cleared, fill_eq_error.2 ⟨a', ?_, rfl⟩, ?_⟩
      · rw [nextOf_train hmode]
        exact nextBatch_eq_error.2 (.inr ⟨records, input, events, hnext, hmake⟩)
      · rw [show a'.cleared.events = _ from hevents]
        simp only [withInput, cleared, List.append_assoc]
  · rw [errorsAmong_append, errorsAmong_of_next hnext, errorsAmong_negatives]
    rfl

theorem failsByUnknown_predict (hmode : a.reader.config.isTrain = false) {records : List NodeRecord}
    (hnext : a.reader.input.next NodeRecord a.reader.config.batch.toNat
      = (.ok (some records), input, events)) :
    FailsByUnknown a.reader.config.tags (records.map NodeRecord.node) (records.map NodeRecord.node)
      (records.map NodeRecord.node) a := by
  refine .of_fill events (fun _ => Iff.rfl) ?_ (errorsAmong_of_next hnext)
  unfold outcomeOf
  cases hfirst : firstUnknown? a.reader.config.tags (records.map NodeRecord.node) with
  | none =>
    obtain ⟨users, items, block, a', hp⟩ :=
      exists_predicted_of_known (a.cleared.withInput input events) records hfirst
    refine ⟨a', (fill_predict hmode).2 ⟨records, input, events, users, items, block, hnext, hp⟩, ?_⟩
    rw [hp.events, Partition.events_ofList]
    rfl
  | some node =>
    obtain ⟨a', hmake, hevents⟩ :=
      predictFor_of_unknown (a.cleared.withInput input events) records hfirst
    refine ⟨a'.cleared, fill_eq_error.2 ⟨a', ?_, rfl⟩, hevents⟩
    rw [nextOf_predict hmode]
    exact nextBatch_eq_error.2 (.inr ⟨records, input, events, hnext, hmake⟩)

end Answering

/-! ## Calls over a text -/

omit [GraphClient γ] [NegativeSampler σ] in
theorem exists_next_of_text {ρ : Type} [Record ρ] {text : String} {read : List Line} {config : Config}
    (hconfig : a.reader.config = config) (hcheck : config.check = .ok ())
    (hreads : LineReader.Reads read (.ofBytes text.toByteArray) a.reader.input)
    (hfits : fits config.batch.toNat (Record.width ρ)) : ∃ taken input events,
      a.reader.input.next ρ a.reader.config.batch.toNat = (.ok taken, input, events) := by
  obtain ⟨input, events, hnext, -⟩ :=
    LineReader.next_of_pending (ρ := ρ) hreads.pending (batch_pos_of_check hcheck) hfits
  rw [hconfig]
  exact ⟨_, input, events, hnext⟩

theorem tellsErrors_nil {ρ : Type} [Record ρ] {input : LineReader} {events : List Event}
    (hnext : a.reader.input.next ρ a.reader.config.batch.toNat = (.ok none, input, events))
    (hfill : Reader.fill a = (.ok false, (a.cleared.withInput input events).finished)) :
    TellsErrors a [] := by
  have hclose : errorsAmong input.close.2 = [] := by
    unfold LineReader.close
    split
    · rfl
    · rfl
  refine ⟨events ++ input.close.2
    ++ [.inputExhausted a.reader.stats.batches a.reader.stats.records], ?_, ?_⟩
  · rw [hfill]
    show a.events ++ events ++ input.close.2 ++ _ = _
    simp only [List.append_assoc]
    rfl
  · rw [errorsAmong_append, errorsAmong_append, errorsAmong_of_next hnext, hclose]
    rfl

/-- A reader over a text, with a graph held in memory and the uniform sampler: in every state that calls
lead to, no unknown node was ever counted; a call finds the end and reports nothing, or it takes records,
draws negatives, and fails by unknown nodes only. -/
theorem fill_fails_by_unknown {config : Config} {slots : SlotNames} {text : String} {reader : Reader}
    {created : List Event} {a : Assembly Graph UniformSampler}
    (hcreate : Reader.create config slots (.ofBytes text.toByteArray) = .ok (reader, created))
    (hreach : Reachable Graph UniformSampler reader a.reader) :
    a.reader.stats.invalidNodes = 0
    ∧ (config.isTrain = true → fits config.batch.toNat 16 → fits config.numNeg.toNat 8 →
      ∃ taken input told,
        a.reader.input.next EdgeRecord config.batch.toNat = (.ok taken, input, told)
        ∧ (taken = none → (Reader.fill a).1 = .ok false ∧ TellsErrors a [])
        ∧ ∀ records, taken = some records → records ≠ [] ∧ ∃ lists sampler,
          NegativeSampler.negatives config.numNeg.toNat (records.map EdgeRecord.dst)
            (records.map EdgeRecord.dst) a.sampler = (.ok lists, sampler)
          ∧ lists.length = records.length
          ∧ FailsByUnknown config.tags (records.map EdgeRecord.src ++ records.map EdgeRecord.dst)
            (Block.lookupOrder (records.map EdgeRecord.src) (records.map EdgeRecord.dst) lists)
            (records.map EdgeRecord.src ++ records.map EdgeRecord.dst ++ lists.flatten) a)
    ∧ (config.isTrain = false → fits config.batch.toNat 8 →
      ∃ taken input told,
        a.reader.input.next NodeRecord config.batch.toNat = (.ok taken, input, told)
        ∧ (taken = none → (Reader.fill a).1 = .ok false ∧ TellsErrors a [])
        ∧ ∀ records, taken = some records → records ≠ []
          ∧ FailsByUnknown config.tags (records.map NodeRecord.node) (records.map NodeRecord.node)
            (records.map NodeRecord.node) a) := by
  obtain ⟨hcheck, rfl, -⟩ := create_eq_ok.1 hcreate
  have hmoved := hreach.moved (batch_pos_of_check hcheck)
  have hconfig : a.reader.config = config := hmoved.config_eq
  obtain ⟨read, hreads⟩ := hmoved.reads
  refine ⟨hreach.invalidNodes_eq, fun hmode hbatch hneg => ?_, fun hmode hbatch => ?_⟩
  · obtain ⟨taken, input, told, hnext⟩ :=
      exists_next_of_text (ρ := EdgeRecord) hconfig hcheck hreads hbatch
    subst hconfig
    refine ⟨taken, input, told, hnext, ?_, ?_⟩
    · rintro rfl
      have hfill := (fill_train_ended hmode).2 ⟨input, told, hnext, rfl⟩
      exact ⟨by rw [hfill], tellsErrors_nil hnext hfill⟩
    · rintro records rfl
      obtain ⟨_, -, hsome, -⟩ := LineReader.next_reads hnext
      exact ⟨(hsome records rfl).2, failsByUnknown_train hmode hneg hnext⟩
  · obtain ⟨taken, input, told, hnext⟩ :=
      exists_next_of_text (ρ := NodeRecord) hconfig hcheck hreads hbatch
    subst hconfig
    refine ⟨taken, input, told, hnext, ?_, ?_⟩
    · rintro rfl
      have hfill := (fill_predict_ended hmode).2 ⟨input, told, hnext, rfl⟩
      exact ⟨by rw [hfill], tellsErrors_nil hnext hfill⟩
    · rintro records rfl
      obtain ⟨_, -, hsome, -⟩ := LineReader.next_reads hnext
      exact ⟨(hsome records rfl).2, failsByUnknown_predict hmode hnext⟩

/-- A reader before one edge from a node that is neither a user nor an item, with one negative an edge. -/
def strayEdge (isTrain : Bool) : Assembly Graph UniformSampler :=
  start
    { config := { numNeg := 1, isTrain }
      slots := {}
      input := .ofBytes "844424930131969 281474976710657\n".toByteArray }
    .empty {} .empty

theorem strayEdge_input (isTrain : Bool) : (strayEdge isTrain).reader.input
    = .ofLines [.ok "844424930131969 281474976710657"] := by
  show LineReader.ofLines (Line.ofBytes "844424930131969 281474976710657\n".toByteArray) = _
  rw [Line.ofBytes_toByteArray]
  rfl

theorem fill_fails_by_unknown_strayEdge :
    ((Reader.fill (strayEdge true)).1
        = .error (.error (.node (.unknownGroup 844424930131969 { user := 0, item := 1 })))
      ∧ (strayEdge true).reader.stats.invalidNodes = 0)
    ∧ (Reader.fill (strayEdge false)).1
        = .error (.error (.node (.unknownGroup 844424930131969 { user := 0, item := 1 })))
      ∧ TellsErrors (strayEdge false) [.unknownNode 844424930131969 { user := 0, item := 1 }] := by
  have hcreate : ∀ isTrain : Bool, Reader.create { numNeg := 1, isTrain } {}
      (.ofBytes "844424930131969 281474976710657\n".toByteArray)
        = .ok ((strayEdge isTrain).reader, [.readerCreated { numNeg := 1, isTrain }]) := by
    intro isTrain
    exact create_eq_ok.2 ⟨by cases isTrain <;> decide, rfl, rfl⟩
  constructor
  · obtain ⟨hinvalid, htrain, -⟩ := fill_fails_by_unknown (hcreate true) .start
    obtain ⟨taken, input, told, hnext, -, hsome⟩ := htrain rfl (by decide) (by decide)
    rw [strayEdge_input] at hnext
    obtain rfl : some [⟨844424930131969, 281474976710657⟩] = taken :=
      Except.ok.inj (congrArg Prod.fst hnext)
    obtain ⟨-, lists, sampler, -, hlength, hfails⟩ := hsome _ rfl
    match lists with
    | [negatives] => exact ⟨hfails.outcome_eq, hinvalid⟩
  · obtain ⟨-, -, hpredict⟩ := fill_fails_by_unknown (hcreate false) .start
    obtain ⟨taken, input, told, hnext, -, hsome⟩ := hpredict rfl (by decide)
    rw [strayEdge_input] at hnext
    obtain rfl : some [⟨844424930131969⟩] = taken := Except.ok.inj (congrArg Prod.fst hnext)
    obtain ⟨-, hfails⟩ := hsome _ rfl
    exact ⟨hfails.outcome_eq, hfails.tells⟩

end Reader

end BipartiteBatch
