import BipartiteBatch.Block.Feature
import BipartiteBatch.Graph.Replay
import BipartiteBatch.Proofs.Rows
import BipartiteBatch.Subgraph

/-!
# Feature rows

Both kinds of feature blocks are written from an answer of rows. Where there are at least as many rows as
nodes, the block has one closed row for each node and nothing after it; further rows are left out. Where
there are fewer, the block is written all the same and the call fails.

* `Block.rowsOutcome` : whether there are enough rows;
* `Block.writeAnswer_of_ok`, `Block.writeAnswer_of_error` : what comes of an answer;
* `Block.fillNodeFeature_eq_ok`, `Block.fillNeighborFeature_eq_ok` : the fills that succeed;
* `Block.RowsOf` : a block that lines up with nodes, `Block.rowsOf_ofRows` : one made of their rows does;
* `Block.LinedUp` : an outcome with such a block, or with the error for too few rows;
* `Block.fillFeatures_linedUp` : the outcome of both fills, for the deepest level of any subgraph.
-/

namespace BipartiteBatch.Block

/-! ## Outcomes -/

section Outcomes
variable {γ : Type} {slot : String} {nodes : List NodeId} {f f' : Filling γ}

theorem rowCount_nodeBlock (nodes : List NodeId) (rows : List FeatureRow) :
    (nodeBlock nodes rows).rowCount = min nodes.length rows.length := by
  rw [nodeBlock, nodeRows, (Csr.holds_ofRows _).rowCount_eq, List.length_zipWith]

theorem rowCount_neighborBlock (nodes : List NodeId) (rows : List FeatureRow) :
    (neighborBlock nodes rows).rowCount = min nodes.length rows.length := by
  rw [neighborBlock, neighborRows, (Csr.holds_ofRows _).rowCount_eq, List.length_take]

def rowsOutcome (slot : String) (nodes : List NodeId) (rows : List FeatureRow) : Except Failure Unit :=
  if nodes.length ≤ rows.length then .ok ()
  else .error (.error (.graph (.featureRows slot rows.length nodes.length)))

theorem rowsOutcome_eq_ok {rows : List FeatureRow} :
    rowsOutcome slot nodes rows = .ok () ↔ nodes.length ≤ rows.length := by
  unfold rowsOutcome
  split
  · next hle => exact ⟨fun _ => hle, fun _ => rfl⟩
  · next hle => exact ⟨nofun, fun h => absurd h hle⟩

theorem rowsOutcome_eq_error {rows : List FeatureRow} {e : Failure} :
    rowsOutcome slot nodes rows = .error e ↔ rows.length < nodes.length
      ∧ e = .error (.graph (.featureRows slot rows.length nodes.length)) := by
  unfold rowsOutcome
  split
  · next hle => exact ⟨nofun, fun h => absurd hle (Nat.not_le.2 h.1)⟩
  · next hle =>
    rw [Except.error.injEq, and_iff_right (Nat.not_le.1 hle)]
    exact eq_comm

/-- The slot holds the rows and nothing of what it held, whether or not there are enough of them. -/
theorem writeRows_eq (slot : String) (rows : List FeatureRow) (count : Nat) (f : Filling γ) :
    writeRows slot rows count f
      = (if (Csr.ofRows rows).rowCount = count then .ok ()
          else .error (.error (.graph (.featureRows slot (Csr.ofRows rows).rowCount count))),
        { f with inst := f.inst.insert slot (.csr (.ofRows rows)) }) := by
  have hupdate : Filling.updateBlock slot (fun block => block.clear.addRows rows) f
      = (.ok (.ofRows rows), { f with inst := f.inst.insert slot (.csr (.ofRows rows)) }) := by
    rw [Filling.updateBlock_eq, Csr.addRows_clear]
  unfold writeRows
  rw [Query.bind_ok hupdate]
  split
  · rfl
  · rfl

variable {q : Query γ (List FeatureRow)} {rowsOf : List FeatureRow → List FeatureRow} {g' : γ}

theorem writeAnswer_of_ok
    (hcount : ∀ rows, (Csr.ofRows (rowsOf rows)).rowCount = min nodes.length rows.length)
    {rows : List FeatureRow} (hask : q f.graph = (.ok rows, g')) :
    (do
      let rows ← Filling.ask q
      writeRows slot (rowsOf rows) nodes.length : Query (Filling γ) Unit) f
      = (rowsOutcome slot nodes rows, ⟨f.inst.insert slot (.csr (.ofRows (rowsOf rows))), g'⟩) := by
  have hasked : Filling.ask q f = (.ok rows, { f with graph := g' }) :=
    Query.focus_eq_ok.2 ⟨g', hask, rfl⟩
  rw [Query.bind_ok hasked, writeRows_eq, hcount, rowsOutcome]
  by_cases hle : nodes.length ≤ rows.length
  · rw [if_pos hle, if_pos (Nat.min_eq_left hle)]
  · have hmin : min nodes.length rows.length = rows.length := Nat.min_eq_right (Nat.le_of_not_le hle)
    rw [if_neg hle, hmin, if_neg fun h => hle (Nat.le_of_eq h.symm)]

theorem writeAnswer_of_error {e : Failure} (hask : q f.graph = (.error e, g')) :
    (do
      let rows ← Filling.ask q
      writeRows slot (rowsOf rows) nodes.length : Query (Filling γ) Unit) f
      = (.error e, { f with graph := g' }) := by
  refine Query.bind_error ?_
  show ((q f.graph).1, { f with graph := (q f.graph).2 }) = _
  rw [hask]

/-- A block of answered rows is written if there are enough of them. -/
theorem writeAnswer_eq_ok
    (hcount : ∀ rows, (Csr.ofRows (rowsOf rows)).rowCount = min nodes.length rows.length) :
    (do
      let rows ← Filling.ask q
      writeRows slot (rowsOf rows) nodes.length : Query (Filling γ) Unit) f = (.ok (), f')
      ↔ ∃ rows g', q f.graph = (.ok rows, g') ∧ nodes.length ≤ rows.length
        ∧ f' = ⟨f.inst.insert slot (.csr (.ofRows (rowsOf rows))), g'⟩ := by
  constructor
  · intro h
    obtain ⟨answer, g', hask⟩ : ∃ answer g', q f.graph = (answer, g') := ⟨_, _, rfl⟩
    cases answer with
    | error e =>
      rw [writeAnswer_of_error hask] at h
      cases h
    | ok rows =>
      rw [writeAnswer_of_ok hcount hask, Prod.mk.injEq, rowsOutcome_eq_ok] at h
      obtain ⟨hle, rfl⟩ := h
      exact ⟨rows, g', hask, hle, rfl⟩
  · rintro ⟨rows, g', hask, hle, rfl⟩
    rw [writeAnswer_of_ok hcount hask, rowsOutcome_eq_ok.2 hle]

variable [GraphClient γ]

theorem fillNodeFeature_eq_ok :
    fillNodeFeature slot nodes f = (.ok (), f') ↔ ∃ rows g',
      GraphClient.nodeFeatures nodes f.graph = (.ok rows, g') ∧ nodes.length ≤ rows.length
        ∧ f' = ⟨f.inst.insert slot (.csr (nodeBlock nodes rows)), g'⟩ :=
  writeAnswer_eq_ok (rowCount_nodeBlock nodes)

theorem fillNeighborFeature_eq_ok :
    fillNeighborFeature slot nodes f = (.ok (), f') ↔ ∃ rows g',
      GraphClient.neighborFeatures nodes f.graph = (.ok rows, g') ∧ nodes.length ≤ rows.length
        ∧ f' = ⟨f.inst.insert slot (.csr (neighborBlock nodes rows)), g'⟩ :=
  writeAnswer_eq_ok (rowCount_neighborBlock nodes)

end Outcomes

/-! ## Rows and nodes -/

section Rows
variable {nodes : List NodeId} {rows : List FeatureRow} {rowOf : NodeId → FeatureRow → FeatureRow}

/-- The block has a closed row for each node, made of the node and of the row at its place, and it has no
entries after the last closed row. -/
structure RowsOf (rowOf : NodeId → FeatureRow → FeatureRow) (nodes : List NodeId)
    (rows : List FeatureRow) (block : Csr) : Prop where
  rowCount : block.rowCount = nodes.length
  closed : block.rowOffset.back? = some block.nnz
  row : ∀ (r : Nat) (node : NodeId) (row : FeatureRow), nodes[r]? = some node → rows[r]? = some row →
    block.row r = .ok (some (rowOf node row))

theorem rowsOf_ofRows (hle : nodes.length ≤ rows.length) {expected : List FeatureRow}
    (h : expected = List.zipWith rowOf nodes rows) : RowsOf rowOf nodes rows (.ofRows expected) where
  rowCount := by
    rw [(Csr.holds_ofRows expected).rowCount_eq, h, List.length_zipWith, Nat.min_eq_left hle]
  closed := (Csr.holds_ofRows expected).back?_rowOffset
  row r node row hnode hrow := by
    rw [(Csr.holds_ofRows expected).row_eq, h, List.getElem?_zipWith, hnode, hrow]

theorem nodeRow_eq : nodeRow = fun node row => if row = [] then [(node, 1.0)] else row := by
  funext node row
  simp only [nodeRow, List.isEmpty_iff]

theorem take_eq_zipWith : rows.take nodes.length = List.zipWith (fun _ row => row) nodes rows := by
  induction nodes generalizing rows with
  | nil => rw [List.length_nil, List.take_zero, List.zipWith_nil_left]
  | cons node nodes ih =>
    cases rows with
    | nil => rfl
    | cons row rows => rw [List.length_cons, List.take_succ_cons, List.zipWith_cons_cons, ih]

/-- What comes of writing an answer of rows for nodes to a slot: an error if there are too few of them, and
else a block that lines up with the nodes. -/
structure LinedUp {γ : Type} (rowOf : NodeId → FeatureRow → FeatureRow) (nodes : List NodeId)
    (rows : List FeatureRow) (slot : String) (r : Except Failure Unit × Filling γ) : Prop where
  error_iff : (∃ e, r.1 = .error (.error (.graph e))) ↔ rows.length < nodes.length
  error_eq : ∀ e, r.1 = .error e → e = .error (.graph (.featureRows slot rows.length nodes.length))
  block : nodes.length ≤ rows.length → r.1 = .ok ()
    ∧ ∃ block, r.2.inst.get? slot = some (.csr block) ∧ RowsOf rowOf nodes rows block

theorem linedUp_of_rowsOf {γ : Type} {slot : String} {inst : Instance} {g' : γ} {block : Csr}
    (h : nodes.length ≤ rows.length → RowsOf rowOf nodes rows block) :
    LinedUp rowOf nodes rows slot
      (rowsOutcome slot nodes rows, ⟨inst.insert slot (.csr block), g'⟩) where
  error_iff := by
    constructor
    · rintro ⟨e, he⟩
      exact (rowsOutcome_eq_error.1 he).1
    · exact fun hlt => ⟨_, rowsOutcome_eq_error.2 ⟨hlt, rfl⟩⟩
  error_eq e he := (rowsOutcome_eq_error.1 he).2
  block hle := by
    refine ⟨rowsOutcome_eq_ok.2 hle, block, ?_, h hle⟩
    rw [Instance.get?_insert, if_pos rfl]

end Rows

/-- An answer of rows for the deepest level is an error if it has fewer rows than the level has nodes, and
else is written row by row; among the features of nodes an empty row becomes the node itself. -/
theorem fillFeatures_linedUp {γ : Type} [GraphClient γ] (sub : Subgraph) (slot : String) (inst : Instance)
    (g g' : γ) (rows : List FeatureRow) :
    (GraphClient.nodeFeatures sub.deepest g = (.ok rows, g') →
      LinedUp (fun node row => if row = [] then [(node, 1.0)] else row) sub.deepest rows slot
        (fillNodeFeature slot sub.deepest ⟨inst, g⟩))
    ∧ (GraphClient.neighborFeatures sub.deepest g = (.ok rows, g') →
      LinedUp (fun _ row => row) sub.deepest rows slot
        (fillNeighborFeature slot sub.deepest ⟨inst, g⟩)) := by
  constructor
  · intro hask
    unfold fillNodeFeature
    rw [writeAnswer_of_ok (rowCount_nodeBlock sub.deepest) hask]
    apply linedUp_of_rowsOf fun hle => rowsOf_ofRows hle ?_
    rw [nodeRows, nodeRow_eq]
  · intro hask
    unfold fillNeighborFeature
    rw [writeAnswer_of_ok (rowCount_neighborBlock sub.deepest) hask]
    exact linedUp_of_rowsOf fun hle => rowsOf_ofRows hle take_eq_zipWith

/-- Two levels, the second with a node twice. -/
def repeatedNode : Subgraph where
  levels := [[7], [7, 3, 3]]

/-- Rows for four nodes, the second of them empty. -/
def fourRows : List FeatureRow := [[(1, 0.5)], [], [(2, 2.0), (1, 1.0)], [(9, 9.0)]]

def fourRowsGraph : ReplayedGraph where
  nodeFeatures := [.ok fourRows]
  neighborFeatures := [.ok fourRows]

theorem fillFeatures_linedUp_fourRows : ∃ own others : Csr,
    (fillNodeFeature "rows" repeatedNode.deepest
      ⟨Instance.empty.insert "rows" (.labels [1.0]), fourRowsGraph⟩).2.inst.get? "rows" = some (.csr own)
    ∧ own.rowCount = 3 ∧ own.row 1 = .ok (some [(3, 1.0)])
    ∧ (fillNeighborFeature "rows" repeatedNode.deepest
      ⟨Instance.empty.insert "rows" (.labels [1.0]), fourRowsGraph⟩).2.inst.get? "rows" = some (.csr others)
    ∧ others.rowCount = 3 ∧ others.row 1 = .ok (some []) := by
  have hall := fillFeatures_linedUp repeatedNode "rows" (Instance.empty.insert "rows" (.labels [1.0]))
    fourRowsGraph
  have hle : repeatedNode.deepest.length ≤ fourRows.length := by decide
  obtain ⟨-, own, hown, hownRows⟩ := ((hall _ fourRows).1 rfl).block hle
  obtain ⟨-, others, hothers, hothersRows⟩ := ((hall _ fourRows).2 rfl).block hle
  exact ⟨own, others, hown, hownRows.rowCount, hownRows.row 1 3 [] rfl rfl, hothers,
    hothersRows.rowCount, hothersRows.row 1 3 [] rfl rfl⟩

end BipartiteBatch.Block
