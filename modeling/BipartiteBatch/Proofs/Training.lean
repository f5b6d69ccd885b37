import BipartiteBatch.Proofs.Answers

/-!
# Training batches read back

A training batch holds indices only. Read as positions among the users and then the items of the batch,
each group in first-seen order, they give back the edges that the batch was made from, and after each
edge its source with the negatives that the sampler gave for it.

* `nodesTagged`, `flatNodes` : the nodes of a group, and of both;
* `lt_length_nodesTagged_iff` : the group of the node at an index;
* `Assembly.Trained.decode` : the rows of a training batch;
* `Reader.fill_train_decodes` : the slots that a call in training leaves.
-/

namespace BipartiteBatch

/-! ## The nodes of both groups -/

/-- The nodes with a tag, each once, in first-seen order. -/
def nodesTagged (tag : Tag) (nodes : List NodeId) : List NodeId :=
  (nodes.filter fun node => node.tag = tag).eraseDups

/-- The users of a list and then its items. -/
def flatNodes (tags : GroupTags) (nodes : List NodeId) : List NodeId :=
  nodesTagged tags.user nodes ++ nodesTagged tags.item nodes

theorem mem_nodesTagged {tag : Tag} {nodes : List NodeId} {node : NodeId} :
    node ∈ nodesTagged tag nodes ↔ node ∈ nodes ∧ node.tag = tag := by
  rw [nodesTagged, List.mem_eraseDups, List.mem_filter, decide_eq_true_iff]

theorem nodup_flatNodes {tags : GroupTags} (hne : tags.user ≠ tags.item) (nodes : List NodeId) :
    (flatNodes tags nodes).Nodup := by
  refine List.nodup_append.2 ⟨nodup_eraseDups _, nodup_eraseDups _, fun user huser item hitem h => hne ?_⟩
  rw [← (mem_nodesTagged.1 huser).2, ← (mem_nodesTagged.1 hitem).2, h]

theorem index_unique {tags : GroupTags} (hne : tags.user ≠ tags.item) {nodes : List NodeId} {i j : Nat}
    {node : NodeId} (hi : (flatNodes tags nodes)[i]? = some node)
    (hj : (flatNodes tags nodes)[j]? = some node) : i = j :=
  (List.getElem?_inj (List.getElem?_eq_some_iff.1 hi).1 (nodup_flatNodes hne nodes)).1 (hi.trans hj.symm)

theorem eraseDups_nodes_ofList {tags : GroupTags} {group : Group}
    (h : ∀ node, tags.groupOf? node = some group ↔ node.tag = tags.tagOf group) (nodes : List NodeId) :
    ((Partition.ofList tags nodes).nodes group).eraseDups = nodesTagged (tags.tagOf group) nodes := by
  rw [Partition.nodes_ofList]
  unfold nodesTagged
  simp only [h]

theorem eraseDups_users (tags : GroupTags) (nodes : List NodeId) :
    (Partition.ofList tags nodes).users.eraseDups = nodesTagged tags.user nodes :=
  eraseDups_nodes_ofList (fun _ => GroupTags.groupOf?_eq_user) nodes

theorem eraseDups_items {tags : GroupTags} (hne : tags.user ≠ tags.item) (nodes : List NodeId) :
    (Partition.ofList tags nodes).items.eraseDups = nodesTagged tags.item nodes :=
  eraseDups_nodes_ofList (fun _ => GroupTags.groupOf?_eq_item hne) nodes

theorem lt_length_nodesTagged_iff {tags : GroupTags} (hne : tags.user ≠ tags.item)
    {nodes : List NodeId} {i : Nat} {node : NodeId} (h : (flatNodes tags nodes)[i]? = some node) :
    i < (nodesTagged tags.user nodes).length ↔ node.tag = tags.user := by
  unfold flatNodes at h
  constructor
  · intro hlt
    rw [List.getElem?_append_left hlt] at h
    exact (mem_nodesTagged.1 (List.mem_of_getElem? h)).2
  · intro htag
    by_contra hge
    rw [List.getElem?_append_right (Nat.not_lt.1 hge)] at h
    have hitem := (mem_nodesTagged.1 (List.mem_of_getElem? h)).2
    exact hne (htag.symm.trans hitem)

theorem Config.tags_ne_of_check {config : Config} (h : config.check = .ok ()) :
    config.tags.user ≠ config.tags.item := by
  intro htags
  replace htags : config.userTag = config.itemTag := htags
  unfold check at h
  simp only [htags, if_true] at h
  split at h
  · cases h
  · split at h
    · cases h
    · split at h
      · cases h
      · cases h

/-! ## Rows -/

theorem bind_getElem?_of_map_eq {α β : Type} {f : α → Option β} {xs : List α} {ys : List β}
    (h : xs.map f = ys.map some) (i : Nat) : xs[i]?.bind f = ys[i]? := by
  have hi : (xs.map f)[i]? = (ys.map some)[i]? := by rw [h]
  rw [List.getElem?_map, List.getElem?_map] at hi
  cases hx : xs[i]? with
  | none =>
    rw [hx] at hi
    rw [Option.map_none] at hi
    exact (Option.map_eq_none_iff.1 hi.symm).symm
  | some x =>
    rw [hx, Option.map_some] at hi
    obtain ⟨y, hy, hfx⟩ := Option.map_eq_some_iff.1 hi.symm
    rw [hy, Option.bind_some, hfx]

namespace Assembly

variable {γ σ : Type} [GraphClient γ] [NegativeSampler σ] {a a' : Assembly γ σ}
  {records : List EdgeRecord} {lists : List (List NodeId)} {users items : Findings}
  {rows : List Block.EdgeRow}

theorem nodes_flatOf {config : Config} (hne : config.tags.user ≠ config.tags.item)
    {nodes : List NodeId} {g between g' : γ}
    (husers : users.Found config (Partition.ofList config.tags nodes).users g between)
    (hitems : items.Found config (Partition.ofList config.tags nodes).items between g') :
    (flatOf config.tags users items).nodes = flatNodes config.tags nodes := by
  show users.indexing.nodes ++ items.indexing.nodes = _
  rw [husers.nodes_indexing, hitems.nodes_indexing, eraseDups_users, eraseDups_items hne, flatNodes]

/-- The rows of a training batch read as its edges, each with its negatives after it. -/
theorem Trained.decode (h : Trained records a lists users items rows a')
    (hne : a.reader.config.tags.user ≠ a.reader.config.tags.item) :
    rows.map (Block.EdgeRow.decode (flatNodes a.reader.config.tags (trainingNodes records lists)))
      = (records.zipWith labelledEdges lists).flatten.map some := by
  obtain ⟨between, husers, hitems⟩ := h.found
  rw [← nodes_flatOf hne husers hitems]
  exact Block.edgeRows_decode (Block.positions_flatIndex _) h.edgeRows

theorem Trained.exists_node_of_index (h : Trained records a lists users items rows a')
    (hne : a.reader.config.tags.user ≠ a.reader.config.tags.item) {row : Block.EdgeRow}
    (hrow : row ∈ rows) {index : Nat} (hindex : index ∈ [row.src, row.dst]) :
    ∃ node, (flatNodes a.reader.config.tags (trainingNodes records lists))[index]? = some node := by
  have hmem := List.mem_map_of_mem hrow
    (f := Block.EdgeRow.decode (flatNodes a.reader.config.tags (trainingNodes records lists)))
  rw [h.decode hne] at hmem
  obtain ⟨edge, -, hedge⟩ := List.mem_map.1 hmem
  obtain ⟨hsrc, hdst⟩ := Block.EdgeRow.getElem?_of_decode hedge.symm
  rcases List.mem_cons.1 hindex with rfl | hindex
  · exact ⟨edge.src, hsrc⟩
  · rw [List.mem_singleton] at hindex
    exact ⟨edge.dst, hindex ▸ hdst⟩

end Assembly

/-! ## The slots of a training batch -/

open Assembly

namespace Reader

variable {γ σ : Type} [GraphClient γ] [NegativeSampler σ] {a a' : Assembly γ σ}

/-- A call in training that succeeds leaves the edges it took from the input and the negatives that the
sampler gave for them: with `flatNodes` for the indices, entry `i * (1 + numNeg)` of the three slots is
edge `i` with the label one, and the entries after it are its source with its negatives and the label
zero. -/
theorem fill_train_decodes (hcheck : a.reader.config.check = .ok ())
    (htrain : a.reader.config.isTrain = true) (hslots : a.reader.slots.Distinct)
    (hfill : Reader.fill a = (.ok true, a')) :
    ∃ (records : List EdgeRecord) (lists : List (List NodeId)) (rows : List Block.EdgeRow)
      (events : List Event),
      a.reader.input.next EdgeRecord a.reader.config.batch.toNat
        = (.ok (some records), a'.reader.input, events)
      ∧ NegativeSampler.negatives a.reader.config.numNeg.toNat (records.map EdgeRecord.dst)
        (records.map EdgeRecord.dst) a.sampler = (.ok lists, a'.sampler)
      ∧ lists.length = records.length
      ∧ (∀ list ∈ lists, list.length = a.reader.config.numNeg.toNat)
      ∧ a'.inst.batchSize = records.length
      ∧ a'.inst.indices? a.reader.slots.srcId = some (rows.map Block.EdgeRow.src)
      ∧ a'.inst.indices? a.reader.slots.dstId = some (rows.map Block.EdgeRow.dst)
      ∧ a'.inst.labels? a.reader.slots.label = some (rows.map Block.EdgeRow.label)
      ∧ rows.length = records.length * (1 + a.reader.config.numNeg.toNat)
      ∧ (∀ (i : Nat) (record : EdgeRecord) (negatives : List NodeId),
        records[i]? = some record → lists[i]? = some negatives →
          rows[i * (1 + a.reader.config.numNeg.toNat)]?.bind (Block.EdgeRow.decode
              (flatNodes a.reader.config.tags (trainingNodes records lists)))
            = some ⟨record.src, record.dst, 1.0⟩
          ∧ ∀ (j : Nat) (negative : NodeId), negatives[j]? = some negative →
            rows[i * (1 + a.reader.config.numNeg.toNat) + 1 + j]?.bind (Block.EdgeRow.decode
                (flatNodes a.reader.config.tags (trainingNodes records lists)))
              = some ⟨record.src, negative, 0.0⟩)
      ∧ ∀ row ∈ rows, ∀ index ∈ [row.src, row.dst], ∃ node,
        (flatNodes a.reader.config.tags (trainingNodes records lists))[index]? = some node
        ∧ index < (flatNodes a.reader.config.tags (trainingNodes records lists)).length
        ∧ (index < (nodesTagged a.reader.config.userTag (trainingNodes records lists)).length
          ↔ node.tag = a.reader.config.userTag) := by
  obtain ⟨records, input, events, lists, users, items, rows, hnext, h⟩ := (fill_train htrain).1 hfill
  have hne := Config.tags_ne_of_check hcheck
  have hdecode := h.decode hne
  have hcount := h.length_of_mem_lists
  have hslot : ∀ e ∈ edgeEntries a.reader.slots rows, a'.inst.get? e.1 = some e.2 :=
    fun e he => h.get?_of_mem hslots (List.mem_append_right _ he)
  have hinput : a'.reader.input = input := by rw [h.reader]; rfl
  refine ⟨records, lists, rows, events, hinput ▸ hnext, h.negatives, h.length_lists, hcount, ?_,
    Instance.indices?_of_get? (hslot (_, _) (by simp [edgeEntries])),
    Instance.indices?_of_get? (hslot (_, _) (by simp [edgeEntries])),
    Instance.labels?_of_get? (hslot (_, _) (by simp [edgeEntries])), h.length_rows, ?_, ?_⟩
  · rw [h.inst]
    rfl
  · intro i record negatives hrecord hlist
    have hcomm := Nat.add_comm 1 a.reader.config.numNeg.toNat
    refine ⟨?_, fun j negative hj => ?_⟩
    · exact hcomm ▸ (bind_getElem?_of_map_eq hdecode _).trans
        (getElem?_labelledEdges_zero hcount hrecord hlist)
    · exact hcomm ▸ (bind_getElem?_of_map_eq hdecode _).trans
        (getElem?_labelledEdges_succ hcount hrecord hlist hj)
  · intro row hrow index hindex
    obtain ⟨node, hnode⟩ := h.exists_node_of_index hne hrow hindex
    exact ⟨node, hnode, (List.getElem?_eq_some_iff.1 hnode).1, lt_length_nodesTagged_iff hne hnode⟩

/-- A reader with the default options, before two edges of one user. -/
def twoEdges : Assembly Graph UniformSampler where
  reader :=
    { config := {}
      slots := {}
      input := .ofLines [.ok "1 281474976710657", .ok "1 281474976710658"] }
  graph := {}
  sampler := {}
  inst := {}

theorem fill_train_decodes_twoEdges : ∃ (a' : Assembly Graph UniformSampler)
    (rows : List Block.EdgeRow) (nodes : List NodeId),
    Reader.fill twoEdges = (.ok true, a') ∧ a'.inst.batchSize = 2
      ∧ a'.inst.indices? "src_id" = some (rows.map Block.EdgeRow.src) ∧ rows.length = 12
      ∧ rows[6]?.bind (Block.EdgeRow.decode nodes) = some ⟨1, 281474976710658, 1.0⟩ := by
  let edges : List EdgeRecord := [⟨1, 281474976710657⟩, ⟨1, 281474976710658⟩]
  have hnext : twoEdges.reader.input.next EdgeRecord twoEdges.reader.config.batch.toNat
      = (.ok (some edges), ⟨none, 2, 0⟩, [.inputClosed 2 0]) := rfl
  obtain ⟨a', hfill⟩ := exists_fill_train (a := twoEdges) rfl (by decide) hnext (by decide)
  obtain ⟨records, lists, rows, events, htaken, -, hlists, -, hsize, hsrc, -, -, hrows, hdecode, -⟩ :=
    fill_train_decodes (a := twoEdges) (by decide) rfl (by decide) hfill
  have htaken := congrArg Prod.fst (hnext.symm.trans htaken)
  obtain rfl : edges = records := Option.some.inj (Except.ok.inj htaken)
  have hlt : 1 < lists.length := by rw [hlists]; decide
  have hlist := List.getElem?_eq_getElem hlt
  exact ⟨a', rows, _, hfill, hsize, hsrc, hrows, (hdecode 1 _ _ rfl hlist).1⟩

end Reader

end BipartiteBatch
