import BipartiteBatch.Proofs.Exhaustion
import BipartiteBatch.Proofs.Statistics

/-!
# Prediction batches read back

A prediction batch holds the nodes it was made from, and a block that looks each of them up: row `i` has one
entry, at the position of node `i` among the users and then the items of the batch. Nothing is drawn for it,
and no call in prediction has anything to do with the sampler.

* `Assembly.Predicted.rows` : the rows of the block, `Assembly.Predicted.get?_of_mem_edgeSlots` : the slots
  that the batch does not have;
* `Reader.after_keeps_sampler` : calls leave the sampler alone;
* `Reader.Reachable.selfNegatives_eq` : they count no negatives;
* `Reader.fill_predict_looks_up` : the slots that calls in prediction leave.
-/

namespace BipartiteBatch

/-! ## The rows of a look-up block -/

namespace Assembly

variable {γ σ : Type} [GraphClient γ] {a a' : Assembly γ σ} {records : List NodeRecord}
  {users items : Findings} {block : Csr}

theorem map_getElem?_columns {flat : FlatIndex} (hnodup : flat.nodes.Nodup) {nodes : List NodeId}
    {indices : List Nat} (h : nodes.mapM (Block.flatIndex flat) = .ok indices) :
    (indices.map UInt64.ofNat).map (fun col => flat.nodes[col.toNat]?) = nodes.map some := by
  have hall := mapM_eq_ok.1 h
  induction hall with
  | nil => rfl
  | @cons node i _ _ hi _ ih =>
    have hnode : flat.nodes[i]? = some node := Block.positions_flatIndex flat node i hi
    have hlt := (List.getElem?_eq_some_iff.1 hnode).1
    rw [List.map_cons, List.map_cons, List.map_cons, toNat_ofNat_of_nodup hnodup hlt, hnode,
      ih (mapM_eq_ok.2 ‹_›)]

/-- Each row of the block has one entry of weight one, where the node of the row stands. -/
theorem Predicted.rows (h : Predicted records a users items block a')
    (hne : a.reader.config.tags.user ≠ a.reader.config.tags.item) :
    ∃ cols : List UInt64, block.Holds (cols.map fun col => [(col, 1.0)]) []
      ∧ cols.map (fun col =>
          (flatNodes a.reader.config.tags (records.map NodeRecord.node))[col.toNat]?)
        = records.map fun record => some record.node := by
  obtain ⟨between, husers, hitems⟩ := h.found
  obtain ⟨indices, hindices, rfl⟩ := Block.lookupBlock_eq_ok.1 h.lookupBlock
  have hnodes := nodes_flatOf hne husers hitems
  refine ⟨indices.map UInt64.ofNat, ?_, ?_⟩
  · rw [List.map_map]
    exact Csr.holds_ofRows _
  · rw [← hnodes, map_getElem?_columns (hnodes ▸ nodup_flatNodes hne _) hindices, List.map_map]
    rfl

theorem Predicted.get?_of_mem_edgeSlots (h : Predicted records a users items block a')
    (hslots : a.reader.slots.Distinct) {name : String}
    (hname : name ∈ [a.reader.slots.dstId, a.reader.slots.label]) :
    a'.inst.get? name = a.inst.get? name := by
  rw [h.inst, Instance.get?_withBatchSize]
  exact Instance.get?_insertAll_of_not_mem (not_mem_predictionNames _ _ _ _ _ hslots hname)

end Assembly

namespace Reader

open Assembly

variable {γ σ : Type} [GraphClient γ] [NegativeSampler σ] {a a' : Assembly γ σ}

/-! ## The sampler -/

/-- All calls in prediction leave the sampler as it is. -/
theorem after_keeps_sampler (hbatch : 0 < a.reader.config.batch.toNat)
    (hmode : a.reader.config.isTrain = false) (n : Nat) : (after a n).sampler = a.sampler := by
  induction n with
  | zero => rfl
  | succ n ih =>
    have hmoved := (Reachable.after (a := a) .start n).moved hbatch
    exact (fill_predict_keeps_sampler (by rw [hmoved.config_eq, hmode])).trans ih

theorem Reachable.selfNegatives_eq {first r : Reader} (h : Reachable γ σ first r)
    (hbatch : 0 < first.config.batch.toNat) (hmode : first.config.isTrain = false) :
    r.stats.selfNegatives = first.stats.selfNegatives := by
  induction h with
  | start => rfl
  | @call a h ih =>
    have hconfig := (h.moved hbatch).config_eq
    rw [fill_selfNegatives, acceptedSelfNegatives_predict (by rw [hconfig, hmode]), ← ih]
    exact UInt64.add_zero _

/-! ## The slots of a prediction batch -/

/-- In prediction a call that succeeds leaves the nodes it took from the input, and a block that looks them
up: with `flatNodes` for the columns, the one entry of row `i` is at node `i`. It leaves no destinations and
no labels. No calls count negatives or change the sampler, and if questions to it are counted there are
none. -/
theorem fill_predict_looks_up {config : Config} {slots : SlotNames} {input : LineReader}
    {reader : Reader} {created : List Event}
    (hcreate : Reader.create config slots input = .ok (reader, created))
    (hmode : config.isTrain = false) (hslots : slots.Distinct)
    (hreach : Reachable γ σ reader a.reader) :
    (∀ a', Reader.fill a = (.ok true, a') →
      ∃ (records : List NodeRecord) (events : List Event) (block : Csr) (cols : List UInt64),
        a.reader.input.next NodeRecord config.batch.toNat
          = (.ok (some records), a'.reader.input, events)
        ∧ a'.inst.nodes? slots.predictNode = some (records.map NodeRecord.node)
        ∧ a'.inst.batchSize = records.length
        ∧ a'.inst.csr? slots.srcId = some block
        ∧ block.rowCount = records.length ∧ block.nnz = records.length
        ∧ block.rows = .ok (cols.map fun col => [(col, 1.0)])
        ∧ cols.map (fun col => (flatNodes config.tags (records.map NodeRecord.node))[col.toNat]?)
          = records.map (fun record => some record.node)
        ∧ a'.inst.get? slots.dstId = none ∧ a'.inst.get? slots.label = none
        ∧ a'.reader.stats.rows = a.reader.stats.rows + UInt64.ofNat records.length
        ∧ a'.reader.stats.records = a.reader.stats.records + UInt64.ofNat records.length)
    ∧ a.reader.stats.selfNegatives = 0
    ∧ ∀ n, (after a n).sampler = a.sampler
      ∧ ∀ c : Assembly γ (Counted σ), c.reader = a.reader →
        (after c n).sampler.asked = c.sampler.asked := by
  obtain ⟨hcheck, rfl, -⟩ := create_eq_ok.1 hcreate
  have hbatch := batch_pos_of_check hcheck
  have hmoved := hreach.moved hbatch
  have hconfig : a.reader.config = config := hmoved.config_eq
  have hslots_eq : a.reader.slots = slots := hmoved.slots_eq
  have hpredict : a.reader.config.isTrain = false := by rw [hconfig, hmode]
  have hpos : 0 < a.reader.config.batch.toNat := by rw [hconfig]; exact hbatch
  refine ⟨fun a' hfill => ?_, ?_, fun n => ⟨after_keeps_sampler hpos hpredict n, fun c hc => ?_⟩⟩
  · obtain ⟨records, input, events, users, items, block, hnext, h⟩ := (fill_predict hpredict).1 hfill
    have hinput : a'.reader.input = input := by rw [h.reader]; rfl
    -- the block as one row of one entry for each node
    obtain ⟨cols, hblock, hcols⟩ := h.rows (Config.tags_ne_of_check (hconfig ▸ hcheck))
    have hlength : cols.length = records.length := by
      have hlengths := congrArg List.length hcols
      rwa [List.length_map, List.length_map] at hlengths
    subst hconfig hslots_eq
    have hslot : ∀ e ∈ lookupEntries a.reader.slots block (records.map NodeRecord.node),
        a'.inst.get? e.1 = some e.2 :=
      fun e he => h.get?_of_mem hslots (List.mem_append_right _ he)
    have hno : ∀ name ∈ [a.reader.slots.dstId, a.reader.slots.label], a'.inst.get? name = none :=
      fun name hname => h.get?_of_mem_edgeSlots hslots hname
    refine ⟨records, events, block, cols, hinput ▸ hnext,
      Instance.nodes?_of_get? (hslot (_, _) (by simp [lookupEntries])), ?_,
      Instance.csr?_of_get? (hslot (_, _) (by simp [lookupEntries])), ?_, ?_, hblock.rows_eq, hcols,
      hno _ (by simp), hno _ (by simp), ?_, ?_⟩
    · rw [h.inst]
      rfl
    · rw [hblock.rowCount_eq, List.length_map, hlength]
    · have hone : ∀ row ∈ cols.map fun col => [((col, 1.0) : Entry)], row.length = 1 := by
        intro row hrow
        obtain ⟨col, -, rfl⟩ := List.mem_map.1 hrow
        rfl
      rw [hblock.nnz_eq, List.append_nil, length_flatten_of_length hone, List.length_map, hlength,
        Nat.mul_one]
    · rw [h.reader]
      rfl
    · rw [h.reader]
      rfl
  · exact hreach.selfNegatives_eq hbatch hmode
  · rw [after_keeps_sampler (by rw [hc]; exact hpos) (by rw [hc]; exact hpredict)]

/-- A reader before an item, a user and the same item again. -/
def threeNodes : Assembly Graph UniformSampler where
  reader :=
    { config := { isTrain := false }
      slots := {}
      input := .ofLines [.ok "281474976710657", .ok "1", .ok "281474976710657"] }
  graph := {}
  sampler := {}
  inst := {}

/-- The user has the first column, and the item the second one. -/
theorem fill_predict_looks_up_threeNodes : ∃ (a' : Assembly Graph UniformSampler) (block : Csr)
    (cols : List UInt64),
    Reader.fill threeNodes = (.ok true, a') ∧ a'.inst.csr? "src_id" = some block
      ∧ a'.inst.nodes? "predict_node" = some [281474976710657, 1, 281474976710657]
      ∧ block.rows = .ok (cols.map fun col => [(col, 1.0)])
      ∧ cols.map (fun col => ([1, 281474976710657] : List NodeId)[col.toNat]?)
        = [some 281474976710657, some 1, some 281474976710657]
      ∧ a'.reader.stats.rows = 3 ∧ a'.sampler = threeNodes.sampler := by
  let nodes : List NodeRecord := [⟨281474976710657⟩, ⟨1⟩, ⟨281474976710657⟩]
  have hnext : threeNodes.reader.input.next NodeRecord threeNodes.reader.config.batch.toNat
      = (.ok (some nodes), ⟨none, 3, 0⟩, [.inputClosed 3 0]) := rfl
  obtain ⟨a', hfill⟩ := exists_fill_predict (a := threeNodes) rfl hnext (by decide)
  obtain ⟨hcall, -, hsampler⟩ := fill_predict_looks_up (a := threeNodes)
    (create_eq_ok.2 ⟨by decide, rfl, rfl⟩) rfl (by decide) (.start (γ := Graph) (σ := UniformSampler))
  obtain ⟨records, events, block, cols, htaken, hnodes, -, hblock, -, -, hrows, hcols, -, -, hstats, -⟩ :=
    hcall a' hfill
  have htaken := congrArg Prod.fst (hnext.symm.trans htaken)
  obtain rfl : nodes = records := Option.some.inj (Except.ok.inj htaken)
  have hafter : (after threeNodes 1).sampler = a'.sampler := by
    rw [after, after, hfill]
  exact ⟨a', block, cols, hfill, hblock, hnodes, hrows, hcols, hstats, hafter ▸ (hsampler 1).1⟩

end Reader

end BipartiteBatch
