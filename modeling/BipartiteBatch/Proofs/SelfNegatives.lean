import BipartiteBatch.Proofs.Statistics

/-!
# Negatives that equal their destination

A uniform sampler that leaves out the query draws it only where there is nothing else to draw. The negatives
of a batch are drawn from its destinations, so a negative equals its destination exactly if all destinations
of the batch are one node, and then all negatives do.

* `AllEqual` : the nodes of a list are one node;
* `NegativeSampler.LeavesOut` : a sampler that leaves out the query, `UniformSampler.leavesOut` : this one
  does if it is to;
* `Assembly.Draws.selfCount_eq` : how many negatives equal their destination;
* `Assembly.Trained.rows_of_edge`, `Assembly.Trained.exists_index` : the rows of a batch;
* `Reader.fill_train_selfNegatives` : the rows and the totals of a call in training.
-/

namespace BipartiteBatch

def AllEqual (nodes : List NodeId) : Prop := ∀ x ∈ nodes, ∀ y ∈ nodes, x = y

instance (nodes : List NodeId) : Decidable (AllEqual nodes) :=
  decidable_of_iff (nodes.all fun x => nodes.all fun y => x == y) (by simp [AllEqual])

/-- Drawing negatives for nodes from these nodes, the sampler gives a node itself exactly if there is no
other. -/
def NegativeSampler.LeavesOut {σ : Type} [NegativeSampler σ] (s : σ) : Prop :=
  ∀ (count : Nat) (nodes : List NodeId) (lists : List (List NodeId)) (s' : σ),
    NegativeSampler.negatives count nodes nodes s = (.ok lists, s') →
      List.Forall₂ (fun query list => ∀ node ∈ list, node = query ↔ AllEqual nodes) nodes lists

/-! ## Lists that leave out the query -/

/-- A node of the list of a query that is left out equals the query exactly if the population, which has
the query, has no other. -/
theorem Serves.eq_iff_allEqual {nodes list : List NodeId} {count : Nat} {query : NodeId}
    (h : Serves nodes .excludeQuery count query list) (hquery : query ∈ nodes) :
    ∀ node ∈ list, node = query ↔ AllEqual nodes := by
  intro node hnode
  constructor
  · intro heq
    have hone : ∀ x ∈ nodes, x = query := by
      intro x hx
      by_contra hne
      exact h.ne rfl ⟨x, hx, hne⟩ node hnode heq
    exact fun x hx y hy => (hone x hx).trans (hone y hy).symm
  · exact fun hall => h.eq rfl (fun x hx => hall x hx query hquery) node hnode

theorem UniformSampler.leavesOut {u : UniformSampler} (hexclude : u.exclusion = .excludeQuery) :
    NegativeSampler.LeavesOut u := by
  intro count nodes lists u' h
  have hserves := forall₂_serves h
  rw [hexclude] at hserves
  have hboth : List.Forall₂ (fun query list => query ∈ nodes ∧ Serves nodes .excludeQuery count query list)
      nodes lists := (List.forall₂_and_left _ _).2 ⟨fun _ => id, hserves⟩
  exact hboth.imp fun query list hlist => hlist.2.eq_iff_allEqual hlist.1

theorem Negatives.selfCount_of_forall₂ {P : Prop} [Decidable P] {count : Nat} {dsts : List NodeId}
    {lists : List (List NodeId)}
    (h : List.Forall₂ (fun dst list => ∀ node ∈ list, node = dst ↔ P) dsts lists)
    (hcount : ∀ list ∈ lists, list.length = count) :
    selfCount dsts lists = if P then dsts.length * count else 0 := by
  induction h with
  | nil =>
    rw [List.length_nil, Nat.zero_mul, ite_self]
    rfl
  | @cons dst list dsts lists hlist _ ih =>
    rw [List.forall_mem_cons] at hcount
    rw [selfCount, ih hcount.2]
    by_cases hall : P
    · rw [if_pos hall, if_pos hall, List.count_eq_length.2 fun node hnode => ((hlist node hnode).2 hall).symm,
        hcount.1, List.length_cons, Nat.succ_mul, Nat.add_comm]
    · rw [if_neg hall, if_neg hall, List.count_eq_zero.2 fun hmem => hall ((hlist dst hmem).1 rfl)]

/-! ## The rows of a training batch -/

namespace Assembly

variable {γ σ : Type} [GraphClient γ] [NegativeSampler σ] {a a' : Assembly γ σ}
  {records : List EdgeRecord} {lists : List (List NodeId)} {users items : Findings}
  {rows : List Block.EdgeRow}

omit [GraphClient γ] in
/-- All negatives that are drawn for destinations are counted, or none. -/
theorem Draws.selfCount_eq {dsts : List NodeId} (h : Draws a dsts lists)
    (hleaves : NegativeSampler.LeavesOut a.sampler) : Negatives.selfCount dsts lists
      = if AllEqual dsts then dsts.length * a.reader.config.numNeg.toNat else 0 := by
  obtain ⟨sampler, hnegatives⟩ := h.negatives
  exact Negatives.selfCount_of_forall₂ (hleaves _ _ _ _ hnegatives) h.length_of_mem_lists

theorem Trained.mem_of_mem_lists (h : Trained records a lists users items rows a')
    (hleaves : NegativeSampler.LeavesOut a.sampler) (hall : AllEqual (records.map EdgeRecord.dst)) :
    ∀ node ∈ lists.flatten, node ∈ records.map EdgeRecord.dst := by
  intro node hnode
  obtain ⟨list, hlist, hnode⟩ := List.mem_flatten.1 hnode
  obtain ⟨i, hi, rfl⟩ := List.mem_iff_getElem.1 hlist
  have hlt : i < (records.map EdgeRecord.dst).length := by rwa [List.length_map, ← h.length_lists]
  have hiff := (hleaves _ _ _ _ h.negatives).get hlt hi node hnode
  rw [hiff.2 hall]
  exact List.getElem_mem hlt

theorem Trained.rows_of_edge (h : Trained records a lists users items rows a')
    (hne : a.reader.config.tags.user ≠ a.reader.config.tags.item)
    (hleaves : NegativeSampler.LeavesOut a.sampler) {i j : Nat} {record : EdgeRecord}
    {edge negative : Block.EdgeRow} (hrecord : records[i]? = some record)
    (hj : j < a.reader.config.numNeg.toNat)
    (hedge : rows[i * (1 + a.reader.config.numNeg.toNat)]? = some edge)
    (hnegative : rows[i * (1 + a.reader.config.numNeg.toNat) + 1 + j]? = some negative) :
    edge.label = 1.0 ∧ negative.label = 0.0 ∧ negative.src = edge.src
      ∧ (flatNodes a.reader.config.tags (trainingNodes records lists))[edge.dst]? = some record.dst
      ∧ (negative.dst = edge.dst ↔ AllEqual (records.map EdgeRecord.dst)) := by
  have hcount := h.length_of_mem_lists
  have hcomm := Nat.add_comm 1 a.reader.config.numNeg.toNat
  have hi : i < lists.length := by
    rw [h.length_lists]
    exact (List.getElem?_eq_some_iff.1 hrecord).1
  have hlist : lists[i]? = some lists[i] := List.getElem?_eq_getElem hi
  have hlength : j < lists[i].length := by rwa [hcount _ (List.getElem_mem hi)]
  have hnode : lists[i][j]? = some lists[i][j] := List.getElem?_eq_getElem hlength
  -- the two rows read as the edge and as its source with the negative
  have hreads := (bind_getElem?_of_map_eq (h.decode hne) _).trans
    (getElem?_labelledEdges_zero hcount hrecord hlist)
  have hreads' := (bind_getElem?_of_map_eq (h.decode hne) _).trans
    (getElem?_labelledEdges_succ hcount hrecord hlist hnode)
  rw [← hcomm, hedge, Option.bind_some] at hreads
  rw [← hcomm, hnegative, Option.bind_some] at hreads'
  obtain ⟨hsrc, hdst⟩ := Block.EdgeRow.getElem?_of_decode hreads
  obtain ⟨hsrc', hdst'⟩ := Block.EdgeRow.getElem?_of_decode hreads'
  refine ⟨Block.EdgeRow.label_of_decode hreads, Block.EdgeRow.label_of_decode hreads', ?_, hdst, ?_⟩
  · exact index_unique hne hsrc' hsrc
  · have hiff : lists[i][j] = record.dst ↔ AllEqual (records.map EdgeRecord.dst) := by
      have hdsts : (records.map EdgeRecord.dst)[i]? = some record.dst := by
        rw [List.getElem?_map, hrecord]
        rfl
      obtain ⟨hlt, hrecord'⟩ := List.getElem?_eq_some_iff.1 hdsts
      rw [← hrecord']
      exact (hleaves _ _ _ _ h.negatives).get hlt hi _ (List.getElem_mem hlength)
    rw [← hiff]
    constructor
    · intro heq
      rw [heq, hdst] at hdst'
      exact (Option.some.inj hdst').symm
    · intro heq
      rw [← heq] at hdst
      exact index_unique hne hdst' hdst

theorem Trained.exists_index (h : Trained records a lists users items rows a')
    (hne : a.reader.config.tags.user ≠ a.reader.config.tags.item)
    (hleaves : NegativeSampler.LeavesOut a.sampler) (hsome : records ≠ [])
    (hall : AllEqual (records.map EdgeRecord.dst)) : ∃ index, (∀ record ∈ records,
      (flatNodes a.reader.config.tags (trainingNodes records lists))[index]? = some record.dst)
      ∧ ∀ row ∈ rows, row.dst = index := by
  obtain ⟨record, hrecord⟩ := List.exists_mem_of_ne_nil records hsome
  have hrecords : ∀ other ∈ records, other.dst = record.dst :=
    fun other hother => hall _ (List.mem_map_of_mem hother) _ (List.mem_map_of_mem hrecord)
  -- the rows read as edges, all of which have the one destination
  have hnode : ∀ row ∈ rows, (flatNodes a.reader.config.tags (trainingNodes records lists))[row.dst]?
      = some record.dst := by
    intro row hrow
    have hmem := List.mem_map_of_mem hrow
      (f := Block.EdgeRow.decode (flatNodes a.reader.config.tags (trainingNodes records lists)))
    rw [h.decode hne] at hmem
    obtain ⟨edge, hedge, hread⟩ := List.mem_map.1 hmem
    rw [(Block.EdgeRow.getElem?_of_decode hread.symm).2]
    have hdst : edge.dst ∈ records.map EdgeRecord.dst :=
      (dst_of_mem_labelledEdges hedge).elim id (h.mem_of_mem_lists hleaves hall _)
    rw [hall _ hdst _ (List.mem_map_of_mem hrecord)]
  obtain ⟨row, hrow⟩ : ∃ row, row ∈ rows := by
    apply List.exists_mem_of_length_pos
    rw [h.length_rows]
    exact Nat.mul_pos (List.length_pos_of_ne_nil hsome) (by omega)
  refine ⟨row.dst, fun other hother => ?_, fun other hother => ?_⟩
  · rw [hnode row hrow, hrecords other hother]
  · exact index_unique hne (hnode other hother) (hnode row hrow)

end Assembly

/-! ## Calls in training -/

namespace Reader

open Assembly

variable {γ : Type} [GraphClient γ] {a a' : Assembly γ UniformSampler}

/-- A call in training with a uniform sampler that leaves out the query: if all edges it took have one
destination, all of their negatives are counted, and all rows have the index of that destination; otherwise
none is counted, and a row of a negative has another destination than the row of its edge. -/
theorem fill_train_selfNegatives (hcheck : a.reader.config.check = .ok ())
    (htrain : a.reader.config.isTrain = true) (hslots : a.reader.slots.Distinct)
    (hexclude : a.sampler.exclusion = .excludeQuery) (hfill : Reader.fill a = (.ok true, a')) :
    ∃ (records : List EdgeRecord) (lists : List (List NodeId)) (rows : List Block.EdgeRow)
      (events : List Event),
      a.reader.input.next EdgeRecord a.reader.config.batch.toNat
        = (.ok (some records), a'.reader.input, events)
      ∧ NegativeSampler.negatives a.reader.config.numNeg.toNat (records.map EdgeRecord.dst)
        (records.map EdgeRecord.dst) a.sampler = (.ok lists, a'.sampler)
      ∧ a'.inst.indices? a.reader.slots.srcId = some (rows.map Block.EdgeRow.src)
      ∧ a'.inst.indices? a.reader.slots.dstId = some (rows.map Block.EdgeRow.dst)
      ∧ a'.inst.labels? a.reader.slots.label = some (rows.map Block.EdgeRow.label)
      ∧ rows.length = records.length * (1 + a.reader.config.numNeg.toNat)
      ∧ (AllEqual (records.map EdgeRecord.dst) →
        a'.reader.stats.selfNegatives = a.reader.stats.selfNegatives
          + UInt64.ofNat (records.length * a.reader.config.numNeg.toNat)
        ∧ ∃ index, (∀ record ∈ records, (flatNodes a.reader.config.tags
            (trainingNodes records lists))[index]? = some record.dst)
          ∧ ∀ row ∈ rows, row.dst = index)
      ∧ (¬ AllEqual (records.map EdgeRecord.dst) →
        a'.reader.stats.selfNegatives = a.reader.stats.selfNegatives)
      ∧ ∀ (i j : Nat) (record : EdgeRecord) (edge negative : Block.EdgeRow),
        records[i]? = some record → j < a.reader.config.numNeg.toNat →
        rows[i * (1 + a.reader.config.numNeg.toNat)]? = some edge →
        rows[i * (1 + a.reader.config.numNeg.toNat) + 1 + j]? = some negative →
          edge.label = 1.0 ∧ negative.label = 0.0 ∧ negative.src = edge.src
          ∧ (flatNodes a.reader.config.tags (trainingNodes records lists))[edge.dst]? = some record.dst
          ∧ (negative.dst = edge.dst ↔ AllEqual (records.map EdgeRecord.dst)) := by
  obtain ⟨records, input, events, lists, users, items, rows, hnext, h⟩ := (fill_train htrain).1 hfill
  have hne := Config.tags_ne_of_check hcheck
  have hslot : ∀ e ∈ edgeEntries a.reader.slots rows, a'.inst.get? e.1 = some e.2 :=
    fun e he => h.get?_of_mem hslots (List.mem_append_right _ he)
  have hinput : a'.reader.input = input := by rw [h.reader]; rfl
  have hstats : a'.reader.stats.selfNegatives = a.reader.stats.selfNegatives
      + UInt64.ofNat (Negatives.selfCount (records.map EdgeRecord.dst) lists) := by
    rw [h.reader]
    rfl
  have hleaves : NegativeSampler.LeavesOut a.sampler := UniformSampler.leavesOut hexclude
  -- the sampler alone decides: all of the negatives are counted, or none is
  have hcount := h.draws.selfCount_eq hleaves
  rw [List.length_map] at hcount
  obtain ⟨read, -, hread, -⟩ := LineReader.next_reads hnext
  refine ⟨records, lists, rows, events, hinput ▸ hnext, h.negatives,
    Instance.indices?_of_get? (hslot (_, _) (by simp [edgeEntries])),
    Instance.indices?_of_get? (hslot (_, _) (by simp [edgeEntries])),
    Instance.labels?_of_get? (hslot (_, _) (by simp [edgeEntries])), h.length_rows,
    fun hall => ⟨?_, h.exists_index hne hleaves (hread records rfl).2 hall⟩, fun hnot => ?_,
    fun i j record edge negative hrecord hj hedge hnegative =>
      h.rows_of_edge hne hleaves hrecord hj hedge hnegative⟩
  · rw [hstats, hcount, if_pos hall]
    rfl
  · rw [hstats, hcount, if_neg hnot]
    exact UInt64.add_zero _

/-- A reader with the default options, before two edges to one item. -/
def sharedItem : Assembly Graph UniformSampler where
  reader :=
    { config := {}
      slots := {}
      input := .ofLines [.ok "1 281474976710657", .ok "2 281474976710657"] }
  graph := {}
  sampler := {}
  inst := {}

/-- All ten negatives equal their destination with one item, and none with two. -/
theorem fill_train_selfNegatives_sharedItem :
    (∃ a', Reader.fill sharedItem = (.ok true, a') ∧ a'.reader.stats.selfNegatives = 10)
      ∧ ∃ a', Reader.fill twoEdges = (.ok true, a') ∧ a'.reader.stats.selfNegatives = 0 := by
  constructor
  · let edges : List EdgeRecord := [⟨1, 281474976710657⟩, ⟨2, 281474976710657⟩]
    have hnext : sharedItem.reader.input.next EdgeRecord sharedItem.reader.config.batch.toNat
        = (.ok (some edges), ⟨none, 2, 0⟩, [.inputClosed 2 0]) := rfl
    obtain ⟨a', hfill⟩ := exists_fill_train (a := sharedItem) rfl (by decide) hnext (by decide)
    obtain ⟨records, lists, rows, events, htaken, -, -, -, -, -, hshared, -⟩ :=
      fill_train_selfNegatives (a := sharedItem) (by decide) rfl (by decide) rfl hfill
    have htaken := congrArg Prod.fst (hnext.symm.trans htaken)
    obtain rfl : edges = records := Option.some.inj (Except.ok.inj htaken)
    have hall : AllEqual ([281474976710657, 281474976710657] : List NodeId) := by simp [AllEqual]
    exact ⟨a', hfill, (hshared hall).1.trans rfl⟩
  · let edges : List EdgeRecord := [⟨1, 281474976710657⟩, ⟨1, 281474976710658⟩]
    have hnext : twoEdges.reader.input.next EdgeRecord twoEdges.reader.config.batch.toNat
        = (.ok (some edges), ⟨none, 2, 0⟩, [.inputClosed 2 0]) := rfl
    obtain ⟨a', hfill⟩ := exists_fill_train (a := twoEdges) rfl (by decide) hnext (by decide)
    obtain ⟨records, lists, rows, events, htaken, -, -, -, -, -, -, hdistinct, -⟩ :=
      fill_train_selfNegatives (a := twoEdges) (by decide) rfl (by decide) rfl hfill
    have htaken := congrArg Prod.fst (hnext.symm.trans htaken)
    obtain rfl : edges = records := Option.some.inj (Except.ok.inj htaken)
    have hnot : ¬ AllEqual ([281474976710657, 281474976710658] : List NodeId) := by simp [AllEqual]
    exact ⟨a', hfill, hdistinct hnot⟩

end Reader

end BipartiteBatch
