import BipartiteBatch.Block.Edge
import BipartiteBatch.Input.Record
import BipartiteBatch.Proofs.FlatIndices
import BipartiteBatch.Proofs.Results
import BipartiteBatch.Proofs.Rows

/-!
# Edge rows read back

Rows whose indices are read as positions in the list of the nodes of a flat index give the edges again,
each with its negatives after it.

* `Block.EdgeRow.decode` : a row read back, `LabelledEdge` : what it reads as;
* `Block.edgeRows_decode` : the rows of edges read as the edges and their negatives;
* `getElem?_labelledEdges_zero`, `getElem?_labelledEdges_succ` : where each of these stands;
* `Block.length_of_edgeRows` : a row for each source and each negative;
* `Block.edgeLookups` : the look-ups of edges, `Block.errorOf?_edgeRows` : the first one that fails is told;
* `Block.lookupOrder`, `Block.edgeRows_eq_error` : the same for sources and destinations looked up alike;
* `Block.lookupBlock_eq_ok` : the rows of a look-up block.
-/

namespace BipartiteBatch

/-! ## Rows of one length, one after the other -/

section Chunks
variable {α : Type} {rows : List (List α)} {count : Nat}

theorem length_flatten_of_length (h : ∀ row ∈ rows, row.length = count) :
    rows.flatten.length = rows.length * count := by
  induction rows with
  | nil => simp
  | cons row rows ih =>
    have hrow : row.length = count := h row List.mem_cons_self
    have hrest := ih fun r hr => h r (List.mem_cons_of_mem _ hr)
    rw [List.flatten_cons, List.length_append, hrow, hrest, List.length_cons, Nat.succ_mul,
      Nat.add_comm]

theorem getElem?_flatten_of_length (h : ∀ row ∈ rows, row.length = count) {i j : Nat}
    {row : List α} (hi : rows[i]? = some row) (hj : j < count) :
    rows.flatten[i * count + j]? = row[j]? := by
  induction rows generalizing i with
  | nil => cases hi
  | cons first rows ih =>
    have hfirst : first.length = count := h first List.mem_cons_self
    cases i with
    | zero =>
      obtain rfl := Option.some.inj hi
      rw [List.flatten_cons, Nat.zero_mul, Nat.zero_add, List.getElem?_append_left (by omega)]
    | succ i =>
      have hrest := ih (fun r hr => h r (List.mem_cons_of_mem _ hr)) hi
      have hpast : first.length ≤ (i + 1) * count + j := by
        rw [hfirst, Nat.succ_mul]
        omega
      have hsub : (i + 1) * count + j - first.length = i * count + j := by
        rw [hfirst, Nat.succ_mul]
        omega
      rw [List.flatten_cons, List.getElem?_append_right hpast, hsub, hrest]

end Chunks

/-! ## Labelled edges -/

structure LabelledEdge where
  src : NodeId
  dst : NodeId
  label : Float32
deriving DecidableEq

/-- An edge, and its source with each negative. -/
def labelledEdges (record : EdgeRecord) (negatives : List NodeId) : List LabelledEdge :=
  ⟨record.src, record.dst, 1.0⟩ :: negatives.map fun n => ⟨record.src, n, 0.0⟩

section LabelledEdges
variable {records : List EdgeRecord} {lists : List (List NodeId)} {count : Nat}

theorem length_of_mem_labelledEdges (hcount : ∀ list ∈ lists, list.length = count) :
    ∀ row ∈ records.zipWith labelledEdges lists, row.length = count + 1 := by
  intro row hrow
  obtain ⟨i, hi, rfl⟩ := List.mem_iff_getElem.1 hrow
  rw [List.length_zipWith] at hi
  have hlist := hcount _ (List.getElem_mem (Nat.lt_of_lt_of_le hi (Nat.min_le_right ..)))
  rw [List.getElem_zipWith, labelledEdges, List.length_cons, List.length_map, hlist]

theorem dst_of_mem_labelledEdges {edge : LabelledEdge}
    (h : edge ∈ (records.zipWith labelledEdges lists).flatten) :
    edge.dst ∈ records.map EdgeRecord.dst ∨ edge.dst ∈ lists.flatten := by
  obtain ⟨row, hrow, hedge⟩ := List.mem_flatten.1 h
  obtain ⟨i, hi, rfl⟩ := List.mem_iff_getElem.1 hrow
  rw [List.length_zipWith, Nat.lt_min] at hi
  rw [List.getElem_zipWith] at hedge
  rcases List.mem_cons.1 hedge with rfl | hedge
  · exact .inl (List.mem_map_of_mem (List.getElem_mem hi.1))
  · obtain ⟨node, hnode, rfl⟩ := List.mem_map.1 hedge
    exact .inr (List.mem_flatten.2 ⟨_, List.getElem_mem hi.2, hnode⟩)

variable {i : Nat} {record : EdgeRecord} {negatives : List NodeId}

theorem getElem?_labelledEdges (hcount : ∀ list ∈ lists, list.length = count)
    (hrecord : records[i]? = some record) (hlist : lists[i]? = some negatives) {j : Nat}
    (hj : j < count + 1) :
    (records.zipWith labelledEdges lists).flatten[i * (count + 1) + j]?
      = (labelledEdges record negatives)[j]? := by
  refine getElem?_flatten_of_length (length_of_mem_labelledEdges hcount) ?_ hj
  exact List.getElem?_zipWith_eq_some.2 ⟨record, negatives, hrecord, hlist, rfl⟩

/-- An edge stands before its negatives. -/
theorem getElem?_labelledEdges_zero (hcount : ∀ list ∈ lists, list.length = count)
    (hrecord : records[i]? = some record) (hlist : lists[i]? = some negatives) :
    (records.zipWith labelledEdges lists).flatten[i * (count + 1)]?
      = some ⟨record.src, record.dst, 1.0⟩ :=
  getElem?_labelledEdges hcount hrecord hlist (Nat.zero_lt_succ count)

/-- The negatives of an edge stand after it, in their order. -/
theorem getElem?_labelledEdges_succ (hcount : ∀ list ∈ lists, list.length = count)
    (hrecord : records[i]? = some record) (hlist : lists[i]? = some negatives) {j : Nat}
    {negative : NodeId} (hj : negatives[j]? = some negative) :
    (records.zipWith labelledEdges lists).flatten[i * (count + 1) + 1 + j]?
      = some ⟨record.src, negative, 0.0⟩ := by
  have hlt := (List.getElem?_eq_some_iff.1 hj).1
  rw [hcount negatives (List.mem_of_getElem? hlist)] at hlt
  rw [Nat.add_assoc, Nat.add_comm 1 j,
    getElem?_labelledEdges hcount hrecord hlist (Nat.succ_lt_succ hlt), labelledEdges,
    List.getElem?_cons_succ, List.getElem?_map, hj]
  rfl

end LabelledEdges

namespace Block

/-! ## Edge rows -/

/-- The labelled edge whose ends stand at the indices of a row. -/
def EdgeRow.decode (nodes : List NodeId) (row : EdgeRow) : Option LabelledEdge := do
  return ⟨← nodes[row.src]?, ← nodes[row.dst]?, row.label⟩

theorem EdgeRow.decode_eq_some {nodes : List NodeId} {row : EdgeRow} {src dst : NodeId}
    (hsrc : nodes[row.src]? = some src) (hdst : nodes[row.dst]? = some dst) :
    row.decode nodes = some ⟨src, dst, row.label⟩ := by
  rw [decode, hsrc, hdst]
  rfl

theorem EdgeRow.label_of_decode {nodes : List NodeId} {row : EdgeRow} {edge : LabelledEdge}
    (h : row.decode nodes = some edge) : row.label = edge.label := by
  unfold decode at h
  obtain ⟨src, -, h⟩ := Option.bind_eq_some_iff.1 h
  obtain ⟨dst, -, h⟩ := Option.bind_eq_some_iff.1 h
  obtain rfl := Option.some.inj h
  rfl

theorem EdgeRow.getElem?_of_decode {nodes : List NodeId} {row : EdgeRow} {edge : LabelledEdge}
    (h : row.decode nodes = some edge) :
    nodes[row.src]? = some edge.src ∧ nodes[row.dst]? = some edge.dst := by
  unfold decode at h
  obtain ⟨src, hsrc, h⟩ := Option.bind_eq_some_iff.1 h
  obtain ⟨dst, hdst, h⟩ := Option.bind_eq_some_iff.1 h
  obtain rfl := Option.some.inj h
  exact ⟨hsrc, hdst⟩

theorem flatIndex_eq_ok {flat : FlatIndex} {node : NodeId} {i : Nat} :
    flatIndex flat node = .ok i ↔ flat.index node = .ok i := by
  unfold flatIndex
  cases flat.index node with
  | ok j => simp
  | error e => simp

/-- An index function whose indices are positions in a list. -/
def Positions (nodes : List NodeId) (index : IndexFn) : Prop :=
  ∀ node i, index node = .ok i → nodes[i]? = some node

theorem positions_flatIndex (flat : FlatIndex) : Positions flat.nodes (flatIndex flat) :=
  fun _ _ h => FlatIndex.getElem?_of_index (flatIndex_eq_ok.1 h)

section Rows
variable {nodes : List NodeId} {index : IndexFn}

theorem map_decode_negatives (hindex : Positions nodes index) {src : NodeId} {i : Nat}
    (hi : index src = .ok i) {negatives : List NodeId} {js : List Nat}
    (hjs : List.Forall₂ (fun n j => index n = .ok j) negatives js) :
    js.map (fun j => (⟨i, j, 0.0⟩ : EdgeRow).decode nodes)
      = negatives.map fun n => some ⟨src, n, 0.0⟩ := by
  induction hjs with
  | nil => rfl
  | @cons n j _ _ hn _ ih =>
    have hrow : (⟨i, j, 0.0⟩ : EdgeRow).decode nodes = some ⟨src, n, 0.0⟩ :=
      EdgeRow.decode_eq_some (hindex _ _ hi) (hindex _ _ hn)
    rw [List.map_cons, List.map_cons, hrow, ih]

/-- The rows of an edge read as the edge and its negatives. -/
theorem rowsOfEdge_decode (hindex : Positions nodes index) {record : EdgeRecord}
    {negatives : List NodeId} {rows : List EdgeRow}
    (h : rowsOfEdge index index record.src record.dst negatives = .ok rows) :
    rows.map (EdgeRow.decode nodes) = (labelledEdges record negatives).map some := by
  unfold rowsOfEdge at h
  obtain ⟨i, hi, h⟩ := except_bind_eq_ok.1 h
  obtain ⟨j, hj, h⟩ := except_bind_eq_ok.1 h
  obtain ⟨js, hjs, h⟩ := except_bind_eq_ok.1 h
  obtain rfl := except_pure_eq_ok.1 h
  have hedge : (⟨i, j, 1.0⟩ : EdgeRow).decode nodes = some ⟨record.src, record.dst, 1.0⟩ :=
    EdgeRow.decode_eq_some (hindex _ _ hi) (hindex _ _ hj)
  rw [List.map_cons, List.map_map, labelledEdges, List.map_cons, List.map_map, hedge]
  exact congrArg _ (map_decode_negatives hindex hi (mapM_eq_ok.1 hjs))

theorem rowsOfEdges_decode (hindex : Positions nodes index) {records : List EdgeRecord}
    {lists : List (List NodeId)} {blocks : List (List EdgeRow)}
    (hlength : lists.length = records.length)
    (h : rowsOfEdges index index (records.map EdgeRecord.src) (records.map EdgeRecord.dst) lists
      = .ok blocks) :
    blocks.flatten.map (EdgeRow.decode nodes)
      = (records.zipWith labelledEdges lists).flatten.map some := by
  induction records generalizing lists blocks with
  | nil =>
    obtain rfl := except_pure_eq_ok.1 h
    rfl
  | cons record records ih =>
    match lists with
    | negatives :: lists =>
      obtain ⟨rows, hrows, h⟩ := except_bind_eq_ok.1 h
      obtain ⟨rest, hrest, h⟩ := except_bind_eq_ok.1 h
      obtain rfl := except_pure_eq_ok.1 h
      rw [List.flatten_cons, List.map_append, rowsOfEdge_decode hindex hrows,
        ih (Nat.succ.inj hlength) hrest, List.zipWith_cons_cons, List.flatten_cons,
        List.map_append]

/-- The rows of edges read as the edges, each with its negatives after it. -/
theorem edgeRows_decode (hindex : Positions nodes index) {records : List EdgeRecord}
    {lists : List (List NodeId)} {rows : List EdgeRow}
    (h : edgeRows index index (records.map EdgeRecord.src) (records.map EdgeRecord.dst) lists
      = .ok rows) :
    rows.map (EdgeRow.decode nodes)
      = (records.zipWith labelledEdges lists).flatten.map some := by
  unfold edgeRows at h
  split at h
  · next hlengths =>
    obtain ⟨blocks, hblocks, rfl⟩ := except_map_eq_ok.1 h
    rw [List.length_map, List.length_map] at hlengths
    exact rowsOfEdges_decode hindex hlengths.2.symm hblocks
  · cases h

end Rows

section Lengths
variable {srcIndex dstIndex : IndexFn} {src dst : NodeId} {negatives srcs dsts : List NodeId}
  {lists : List (List NodeId)}

theorem length_of_rowsOfEdge {rows : List EdgeRow}
    (h : rowsOfEdge srcIndex dstIndex src dst negatives = .ok rows) :
    rows.length = negatives.length + 1 := by
  unfold rowsOfEdge at h
  obtain ⟨i, -, h⟩ := except_bind_eq_ok.1 h
  obtain ⟨j, -, h⟩ := except_bind_eq_ok.1 h
  obtain ⟨js, hjs, h⟩ := except_bind_eq_ok.1 h
  obtain rfl := except_pure_eq_ok.1 h
  rw [List.length_cons, List.length_map, (mapM_eq_ok.1 hjs).length_eq]

theorem length_of_rowsOfEdges {blocks : List (List EdgeRow)}
    (hlengths : srcs.length = dsts.length ∧ dsts.length = lists.length)
    (h : rowsOfEdges srcIndex dstIndex srcs dsts lists = .ok blocks) :
    blocks.flatten.length = srcs.length + lists.flatten.length := by
  induction srcs generalizing dsts lists blocks with
  | nil =>
    obtain rfl := List.eq_nil_of_length_eq_zero hlengths.1.symm
    obtain rfl := List.eq_nil_of_length_eq_zero hlengths.2.symm
    obtain rfl := except_pure_eq_ok.1 h
    rfl
  | cons src srcs ih =>
    match dsts, lists with
    | dst :: dsts, negatives :: lists =>
      obtain ⟨rows, hrows, h⟩ := except_bind_eq_ok.1 h
      obtain ⟨rest, hrest, h⟩ := except_bind_eq_ok.1 h
      obtain rfl := except_pure_eq_ok.1 h
      have ih := ih ⟨Nat.succ.inj hlengths.1, Nat.succ.inj hlengths.2⟩ hrest
      rw [List.flatten_cons, List.length_append, length_of_rowsOfEdge hrows, ih, List.flatten_cons,
        List.length_append, List.length_cons]
      omega

/-- There are as many rows as sources and negatives. -/
theorem length_of_edgeRows {rows : List EdgeRow}
    (h : edgeRows srcIndex dstIndex srcs dsts lists = .ok rows) :
    rows.length = srcs.length + lists.flatten.length := by
  unfold edgeRows at h
  split at h
  · next hlengths =>
    obtain ⟨blocks, hblocks, rfl⟩ := except_map_eq_ok.1 h
    exact length_of_rowsOfEdges hlengths hblocks
  · cases h

end Lengths

/-! ## Edges that cannot be listed -/

/-- The order in which the nodes of edges are looked up: the ends of an edge and then its negatives. -/
def lookupOrder : List NodeId → List NodeId → List (List NodeId) → List NodeId
  | src :: srcs, dst :: dsts, negatives :: lists =>
    (src :: dst :: negatives) ++ lookupOrder srcs dsts lists
  | _, _, _ => []

section Failures
variable {index srcIndex dstIndex : IndexFn} {src dst : NodeId} {negatives srcs dsts : List NodeId}
  {lists : List (List NodeId)} {e : BatchError}

theorem mem_lookupOrder (hlengths : srcs.length = dsts.length ∧ dsts.length = lists.length)
    {node : NodeId} :
    node ∈ lookupOrder srcs dsts lists ↔ node ∈ srcs ++ dsts ++ lists.flatten := by
  induction srcs generalizing dsts lists with
  | nil =>
    obtain rfl := List.eq_nil_of_length_eq_zero hlengths.1.symm
    obtain rfl := List.eq_nil_of_length_eq_zero hlengths.2.symm
    rfl
  | cons src srcs ih =>
    match dsts, lists with
    | dst :: dsts, negatives :: lists =>
      have hrest := ih ⟨Nat.succ.inj hlengths.1, Nat.succ.inj hlengths.2⟩
      simp only [lookupOrder, List.mem_append, List.mem_cons, List.flatten_cons] at hrest ⊢
      rw [hrest]
      tauto

def edgeLookups (srcIndex dstIndex : IndexFn) :
    List NodeId → List NodeId → List (List NodeId) → List (Except BatchError Nat)
  | src :: srcs, dst :: dsts, negatives :: lists =>
    (srcIndex src :: (dst :: negatives).map dstIndex) ++ edgeLookups srcIndex dstIndex srcs dsts lists
  | _, _, _ => []

theorem edgeLookups_same :
    edgeLookups index index srcs dsts lists = (lookupOrder srcs dsts lists).map index := by
  induction srcs generalizing dsts lists with
  | nil => rfl
  | cons src srcs ih =>
    match dsts, lists with
    | [], _ => rfl
    | _ :: _, [] => rfl
    | dst :: dsts, negatives :: lists =>
      rw [edgeLookups, lookupOrder, List.map_append, ih]
      rfl

/-- An edge cannot be listed if one of its nodes has no index. -/
theorem errorOf?_rowsOfEdge :
    errorOf? (rowsOfEdge srcIndex dstIndex src dst negatives)
      = (srcIndex src :: (dst :: negatives).map dstIndex).findSome? errorOf? := by
  have hnegatives : ∀ i j, errorOf? (do
      let js ← negatives.mapM dstIndex
      return (⟨i, j, 1.0⟩ :: js.map fun j => ⟨i, j, 0.0⟩ : List EdgeRow))
      = (negatives.map dstIndex).findSome? errorOf? := by
    intro i j
    rw [errorOf?_bind_pure, errorOf?_mapM, List.findSome?_map]
    rfl
  unfold rowsOfEdge
  rw [errorOf?_bind fun i => errorOf?_bind fun j => hnegatives i j, List.map_cons, List.findSome?_cons,
    List.findSome?_cons]
  cases errorOf? (srcIndex src) with
  | some e => rfl
  | none =>
    cases errorOf? (dstIndex dst) with
    | some e => rfl
    | none => rfl

theorem errorOf?_rowsOfEdges :
    errorOf? (rowsOfEdges srcIndex dstIndex srcs dsts lists)
      = (edgeLookups srcIndex dstIndex srcs dsts lists).findSome? errorOf? := by
  induction srcs generalizing dsts lists with
  | nil => rfl
  | cons src srcs ih =>
    match dsts, lists with
    | [], _ => rfl
    | _ :: _, [] => rfl
    | dst :: dsts, negatives :: lists =>
      rw [rowsOfEdges, edgeLookups, List.findSome?_append, ← errorOf?_rowsOfEdge, ← ih, errorOf?_both]

theorem errorOf?_edgeRows (srcIndex dstIndex : IndexFn) (srcs dsts : List NodeId)
    (lists : List (List NodeId)) :
    errorOf? (edgeRows srcIndex dstIndex srcs dsts lists)
      = if srcs.length = dsts.length ∧ dsts.length = lists.length then
          (edgeLookups srcIndex dstIndex srcs dsts lists).findSome? errorOf?
        else some (.graph (.edgeLengths srcs.length dsts.length lists.length)) := by
  unfold edgeRows
  split
  · rw [errorOf?_map, errorOf?_rowsOfEdges]
  · rfl

/-- Edges cannot be listed if a node has no index, and the first such node in the order of the edges is
the one that is told. -/
theorem edgeRows_eq_error (hlengths : srcs.length = dsts.length ∧ dsts.length = lists.length) :
    edgeRows index index srcs dsts lists = .error e
      ↔ (lookupOrder srcs dsts lists).mapM index = .error e := by
  rw [← errorOf?_eq_some, errorOf?_edgeRows, if_pos hlengths, edgeLookups_same, List.findSome?_map,
    ← errorOf?_eq_some, errorOf?_mapM]
  rfl

/-- Edges can be listed if and only if their nodes all have an index. -/
theorem exists_edgeRows (hlengths : srcs.length = dsts.length ∧ dsts.length = lists.length) :
    (∃ rows, edgeRows index index srcs dsts lists = .ok rows)
      ↔ ∀ node ∈ srcs ++ dsts ++ lists.flatten, ∃ i, index node = .ok i := by
  have hlisted : (∃ rows, edgeRows index index srcs dsts lists = .ok rows)
      ↔ ∃ js, (lookupOrder srcs dsts lists).mapM index = .ok js := by
    rw [except_exists_ok_iff, except_exists_ok_iff]
    exact forall_congr' fun _ => not_congr (edgeRows_eq_error hlengths)
  rw [hlisted]
  constructor
  · rintro ⟨js, hjs⟩ node hnode
    exact forall_ok_of_mapM hjs node ((mem_lookupOrder hlengths).2 hnode)
  · intro h
    exact exists_mapM_eq_ok fun node hnode => h node ((mem_lookupOrder hlengths).1 hnode)

end Failures

/-! ## Look-up rows -/

theorem lookupBlock_eq_ok {flat : FlatIndex} {nodes : List NodeId} {block : Csr} :
    lookupBlock flat nodes = .ok block ↔ ∃ indices, nodes.mapM (flatIndex flat) = .ok indices
      ∧ block = .ofRows (indices.map fun i => [(UInt64.ofNat i, 1.0)]) := by
  unfold lookupBlock
  rw [except_bind_eq_ok]
  constructor
  · rintro ⟨indices, hindices, h⟩
    exact ⟨indices, hindices, (except_pure_eq_ok.1 h).symm⟩
  · rintro ⟨indices, hindices, rfl⟩
    exact ⟨indices, hindices, rfl⟩

theorem lookupBlock_eq_error {flat : FlatIndex} {nodes : List NodeId} {e : BatchError} :
    lookupBlock flat nodes = .error e ↔ nodes.mapM (flatIndex flat) = .error e := by
  unfold lookupBlock
  rw [except_bind_eq_error]
  constructor
  · rintro (h | ⟨_, -, h⟩)
    · exact h
    · cases h
  · intro h
    exact .inl h

end Block

end BipartiteBatch
