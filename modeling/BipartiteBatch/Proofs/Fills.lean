import BipartiteBatch.Block.Fill
import BipartiteBatch.Proofs.EdgeRows
import BipartiteBatch.Proofs.Slots

/-!
# Fills are framed

Whatever an instance holds, a fill does one thing to it: it asks the graph, and sets slots to values that
the answer and its own arguments give. So other slots and the batch size stay as they are, the values do
not depend on what the slots held, and a fill that sets no slots when it fails leaves everything as it was.

* `Fill.targets`, `Fill.ask` : the slots a fill writes, and what it asks the graph;
* `Fill.effect` : the outcome of a fill and the slots it sets, `Fill.run_eq` : this is all it does;
* `Fill.AllOrNone` : all of some slots are set or none is, `Fill.allOrNone_effect` : a fill's targets are;
* `Fill.fault?` : why blocks or edges cannot be built, `Fill.errorOf?_made` : they fail for no other reason;
* `Fill.run_framed` : frame, history and atomicity of all fills;
* `Assembly.fill_fillAdjacency`, `Assembly.fill_fillEdges` : the steps of a reader are these fills.
-/

namespace BipartiteBatch

/-! ## Setting many slots -/

namespace Instance

theorem batchSize_insertAll (inst : Instance) (entries : List (String × SlotValue)) :
    (inst.insertAll entries).batchSize = inst.batchSize := by
  induction entries generalizing inst with
  | nil => rfl
  | cons e entries ih => exact ih (inst.insert e.1 e.2)

/-- A slot that is set holds a value that does not depend on what was there. -/
theorem exists_get?_insertAll {entries : List (String × SlotValue)} {name : String}
    (h : name ∈ entries.map Prod.fst) :
    ∃ value, ∀ inst : Instance, (inst.insertAll entries).get? name = some value := by
  induction entries with
  | nil => cases h
  | cons e entries ih =>
    by_cases hlater : name ∈ entries.map Prod.fst
    · obtain ⟨value, hvalue⟩ := ih hlater
      exact ⟨value, fun inst => hvalue (inst.insert e.1 e.2)⟩
    · obtain rfl : name = e.1 := (List.mem_cons.1 h).resolve_right hlater
      refine ⟨e.2, fun inst => ?_⟩
      show ((inst.insert e.1 e.2).insertAll entries).get? e.1 = _
      rw [get?_insertAll_of_not_mem hlater, get?_insert, if_pos rfl]

end Instance

namespace Block.Fill

/-! ## What a fill does -/

def targets : Fill → List String
  | nodeFeature slot _ => [slot]
  | neighborFeature slot _ => [slot]
  | adjacency selfSlot neighborSlot _ _ _ => [selfSlot, neighborSlot]
  | edges srcSlot dstSlot labelSlot _ _ _ _ _ => [srcSlot, dstSlot, labelSlot]

def asks : Fill → Bool
  | nodeFeature _ _ => true
  | neighborFeature _ _ => true
  | adjacency _ _ _ _ _ => false
  | edges _ _ _ _ _ _ _ _ => false

def ask {γ : Type} [GraphClient γ] : Fill → Query γ (List FeatureRow)
  | nodeFeature _ sub => GraphClient.nodeFeatures sub.deepest
  | neighborFeature _ sub => GraphClient.neighborFeatures sub.deepest
  | adjacency _ _ _ _ _ => pure []
  | edges _ _ _ _ _ _ _ _ => pure []

def blockEntries (selfSlot neighborSlot : String) (pairs : List BlockPair) : List (String × SlotValue) :=
  [(selfSlot, .csrList (pairs.map BlockPair.self)),
    (neighborSlot, .csrList (pairs.map BlockPair.neighbors))]

def rowEntries (srcSlot dstSlot labelSlot : String) (rows : List EdgeRow) : List (String × SlotValue) :=
  [(srcSlot, .indices (rows.map EdgeRow.src)), (dstSlot, .indices (rows.map EdgeRow.dst)),
    (labelSlot, .labels (rows.map EdgeRow.label))]

/-- The outcome of building what is to be written, and the slots that are set. -/
def ofBuilt {α : Type} (entries : α → List (String × SlotValue)) :
    Except BatchError α → Except Failure Unit × List (String × SlotValue)
  | .ok built => (.ok (), entries built)
  | .error e => (.error (.error e), [])

/-- The outcome of a fill whose question is answered with rows, and the slots that it sets. -/
def made : Fill → List FeatureRow → Except Failure Unit × List (String × SlotValue)
  | nodeFeature slot sub, rows =>
    (rowsOutcome slot sub.deepest rows, [(slot, .csr (nodeBlock sub.deepest rows))])
  | neighborFeature slot sub, rows =>
    (rowsOutcome slot sub.deepest rows, [(slot, .csr (neighborBlock sub.deepest rows))])
  | adjacency selfSlot neighborSlot directed sub indexings, _ =>
    ofBuilt (blockEntries selfSlot neighborSlot) (Block.adjacency directed sub indexings)
  | edges srcSlot dstSlot labelSlot srcIndex dstIndex srcs dsts lists, _ =>
    ofBuilt (rowEntries srcSlot dstSlot labelSlot) (edgeRows srcIndex dstIndex srcs dsts lists)

/-- The outcome of a fill, given the answer to its question, and the slots that it sets. -/
def effect (op : Fill) : Except Failure (List FeatureRow) → Except Failure Unit × List (String × SlotValue)
  | .ok rows => op.made rows
  | .error e => (.error e, [])

section Runs
variable {γ : Type}

theorem built_bind {α : Type} {write : α → Instance → Instance} (entries : α → List (String × SlotValue))
    (hwrite : ∀ built inst, write built inst = inst.insertAll (entries built)) (r : Except BatchError α)
    (f : Filling γ) :
    (do
      let built ← Query.lift (r.mapError .error)
      Filling.modify (write built) : Query (Filling γ) Unit) f
      = ((ofBuilt entries r).1, { f with inst := f.inst.insertAll (ofBuilt entries r).2 }) := by
  cases r with
  | ok built =>
    show (Except.ok (), { f with inst := write built f.inst }) = _
    rw [hwrite]
    rfl
  | error e => rfl

variable [GraphClient γ]

/-- A fill asks the graph, and then sets the slots of its effect. -/
theorem run_eq (op : Fill) (inst : Instance) (g : γ) :
    op.run ⟨inst, g⟩ = ((op.effect (op.ask g).1).1,
      ⟨inst.insertAll (op.effect (op.ask g).1).2, (op.ask g).2⟩) := by
  -- the fills that ask nothing have an answer too, one without rows that they do not look at
  obtain ⟨answer, g', hask⟩ : ∃ answer g', op.ask g = (answer, g') := ⟨_, _, rfl⟩
  rw [hask]
  cases op with
  | nodeFeature slot sub =>
    cases answer with
    | ok rows => exact writeAnswer_of_ok (rowCount_nodeBlock sub.deepest) hask
    | error e => exact writeAnswer_of_error hask
  | neighborFeature slot sub =>
    cases answer with
    | ok rows => exact writeAnswer_of_ok (rowCount_neighborBlock sub.deepest) hask
    | error e => exact writeAnswer_of_error hask
  | adjacency selfSlot neighborSlot directed sub indexings =>
    obtain ⟨rfl, rfl⟩ := Prod.mk.inj hask
    exact built_bind (blockEntries selfSlot neighborSlot) (writeAdjacency_eq selfSlot neighborSlot) _ _
  | edges srcSlot dstSlot labelSlot srcIndex dstIndex srcs dsts lists =>
    obtain ⟨rfl, rfl⟩ := Prod.mk.inj hask
    exact built_bind (rowEntries srcSlot dstSlot labelSlot) (writeEdges_eq srcSlot dstSlot labelSlot) _ _

end Runs

/-! ## The slots of an effect -/

section Effects
variable {op : Fill} {rows : List FeatureRow} {answer : Except Failure (List FeatureRow)}

/-- Either all of some slots are set, or none is and there is an error. -/
def AllOrNone (slots : List String) (r : Except Failure Unit × List (String × SlotValue)) : Prop :=
  r.2.map Prod.fst = slots ∨ r.2 = [] ∧ ∃ e, r.1 = .error e

theorem allOrNone_ofBuilt {α : Type} (entries : α → List (String × SlotValue)) {slots : List String}
    (h : ∀ built, (entries built).map Prod.fst = slots) (r : Except BatchError α) :
    AllOrNone slots (ofBuilt entries r) := by
  cases r with
  | ok built => exact .inl (h built)
  | error e => exact .inr ⟨rfl, _, rfl⟩

/-- A fill sets all its targets or none. -/
theorem allOrNone_effect : AllOrNone op.targets (op.effect answer) := by
  cases answer with
  | error e => exact .inr ⟨rfl, e, rfl⟩
  | ok rows =>
    cases op with
    | nodeFeature slot sub => exact .inl rfl
    | neighborFeature slot sub => exact .inl rfl
    | adjacency selfSlot neighborSlot directed sub indexings =>
      exact allOrNone_ofBuilt (blockEntries selfSlot neighborSlot) (fun _ => rfl) _
    | edges srcSlot dstSlot labelSlot srcIndex dstIndex srcs dsts lists =>
      exact allOrNone_ofBuilt (rowEntries srcSlot dstSlot labelSlot) (fun _ => rfl) _

theorem AllOrNone.subset {slots : List String} {r : Except Failure Unit × List (String × SlotValue)}
    (h : AllOrNone slots r) : r.2.map Prod.fst ⊆ slots := by
  rcases h with hall | ⟨hnone, -⟩
  · rw [hall]
    exact List.Subset.refl _
  · rw [hnone]
    exact List.nil_subset _

theorem AllOrNone.of_ok {slots : List String} {r : Except Failure Unit × List (String × SlotValue)}
    (h : AllOrNone slots r) (hok : r.1 = .ok ()) : r.2.map Prod.fst = slots := by
  rcases h with hall | ⟨-, e, he⟩
  · exact hall
  · rw [he] at hok
    cases hok

/-! ## Blocks and edges that cannot be built -/

/-- Why blocks or edges cannot be built: what they are built from does not line up, or a look-up fails, of
which the first is told. -/
def fault? : Fill → Option BatchError
  | adjacency _ _ _ sub indexings =>
    if indexings.length = sub.levels.length ∧ sub.maps.length + 1 = sub.levels.length then
      (adjacencyLookups 1 sub.levels sub.maps indexings.tail).findSome? errorOf?
    else some (.graph (.depth sub.levels.length sub.maps.length indexings.length))
  | edges _ _ _ srcIndex dstIndex srcs dsts lists =>
    if srcs.length = dsts.length ∧ dsts.length = lists.length then
      (edgeLookups srcIndex dstIndex srcs dsts lists).findSome? errorOf?
    else some (.graph (.edgeLengths srcs.length dsts.length lists.length))
  | nodeFeature _ _ => none
  | neighborFeature _ _ => none

section Built
variable {α : Type} {entries : α → List (String × SlotValue)} {r : Except BatchError α}

theorem errorOf?_ofBuilt : errorOf? (ofBuilt entries r).1 = (errorOf? r).map .error := by
  cases r with
  | ok built => rfl
  | error e => rfl

theorem ofBuilt_of_error {e : Failure} (h : (ofBuilt entries r).1 = .error e) :
    (ofBuilt entries r).2 = [] := by
  cases r with
  | ok built => cases h
  | error e => rfl

end Built

theorem errorOf?_made (hasks : op.asks = false) :
    errorOf? (op.made rows).1 = op.fault?.map .error := by
  cases op with
  | nodeFeature slot sub => cases hasks
  | neighborFeature slot sub => cases hasks
  | adjacency selfSlot neighborSlot directed sub indexings =>
    rw [made, errorOf?_ofBuilt, errorOf?_adjacency, fault?]
  | edges srcSlot dstSlot labelSlot srcIndex dstIndex srcs dsts lists =>
    rw [made, errorOf?_ofBuilt, errorOf?_edgeRows, fault?]

/-- Blocks and edges that cannot be built set no slots. -/
theorem made_of_error (hasks : op.asks = false) {e : Failure} (h : (op.made rows).1 = .error e) :
    (op.made rows).2 = [] := by
  cases op with
  | nodeFeature slot sub => cases hasks
  | neighborFeature slot sub => cases hasks
  | adjacency selfSlot neighborSlot directed sub indexings => exact ofBuilt_of_error h
  | edges srcSlot dstSlot labelSlot srcIndex dstIndex srcs dsts lists => exact ofBuilt_of_error h

theorem ask_of_not_asks {γ : Type} [GraphClient γ] (hasks : op.asks = false) (g : γ) :
    op.ask g = (.ok [], g) := by
  cases op with
  | nodeFeature slot sub => cases hasks
  | neighborFeature slot sub => cases hasks
  | adjacency selfSlot neighborSlot directed sub indexings => rfl
  | edges srcSlot dstSlot labelSlot srcIndex dstIndex srcs dsts lists => rfl

end Effects

/-! ## Frame, history and atomicity -/

/-- Whatever comes of a fill, the batch size and all slots but its targets stay as they are. Where the graph
gives the same answer, the outcome is the same, and on success the targets hold the same values, whatever
they held. Blocks and edges fail if and only if they do not line up or a look-up fails, with the first such
look-up, and then everything is as it was. -/
theorem run_framed {γ δ : Type} [GraphClient γ] [GraphClient δ] (op : Fill) (inst other : Instance)
    (g : γ) (d : δ) :
    (op.run ⟨inst, g⟩).2.inst.batchSize = inst.batchSize
    ∧ (∀ name, name ∉ op.targets → (op.run ⟨inst, g⟩).2.inst.get? name = inst.get? name)
    ∧ ((op.ask g).1 = (op.ask d).1 → (op.run ⟨inst, g⟩).1 = (op.run ⟨other, d⟩).1
      ∧ ((op.run ⟨inst, g⟩).1 = .ok () → ∀ name ∈ op.targets, ∃ value,
        (op.run ⟨inst, g⟩).2.inst.get? name = some value
        ∧ (op.run ⟨other, d⟩).2.inst.get? name = some value))
    ∧ (op.asks = false → ∀ e, (op.run ⟨inst, g⟩).1 = .error e ↔ op.fault?.map .error = some e)
    ∧ (op.asks = false → ∀ e, (op.run ⟨inst, g⟩).1 = .error e → (op.run ⟨inst, g⟩).2 = ⟨inst, g⟩) := by
  refine ⟨?_, ?_, ?_, ?_, ?_⟩
  · rw [run_eq]
    exact Instance.batchSize_insertAll inst _
  · intro name hname
    rw [run_eq]
    exact Instance.get?_insertAll_of_not_mem fun hmem => hname (allOrNone_effect.subset hmem)
  · intro hanswer
    rw [run_eq, run_eq, hanswer]
    refine ⟨rfl, fun hok name hname => ?_⟩
    -- on success all targets are set, each to a value that is part of the effect
    rw [← allOrNone_effect.of_ok hok] at hname
    obtain ⟨value, hvalue⟩ := Instance.exists_get?_insertAll hname
    exact ⟨value, hvalue inst, hvalue other⟩
  · intro hasks e
    rw [run_eq, ask_of_not_asks hasks, ← errorOf?_eq_some]
    show errorOf? (op.made []).1 = some e ↔ _
    rw [errorOf?_made hasks]
  · intro hasks e he
    rw [run_eq, ask_of_not_asks hasks] at he ⊢
    show (⟨inst.insertAll (op.made []).2, g⟩ : Filling γ) = ⟨inst, g⟩
    rw [made_of_error hasks he]
    rfl

def belowNine : IndexFn := fun node =>
  if node < 9 then .ok node.toNat else .error (.graph (.refused "no index"))

/-- An edge whose second negative has no index. -/
def missingNegative : Fill := edges "src" "dst" "label" belowNine belowNine [1] [2] [[3, 9, 4]]

/-- A fill with the features of three nodes. -/
def threeNodes : Fill := nodeFeature "dst" repeatedNode

/-- A graph with the same rows for nodes, and none for neighbors. -/
def ownRowsGraph : ReplayedGraph where
  nodeFeatures := [.ok fourRows]

/-- An instance with labels in a slot that these two fill. -/
def labelled : Instance := (Instance.empty.insert "dst" (.labels [1.0])).withBatchSize 4

theorem run_framed_missingNegative :
    missingNegative.asks = false ∧ missingNegative.fault? = some (.graph (.refused "no index"))
    ∧ missingNegative.run ⟨labelled, fourRowsGraph⟩
      = (.error (.error (.graph (.refused "no index"))), ⟨labelled, fourRowsGraph⟩)
    ∧ "nodes" ∉ threeNodes.targets
    ∧ (threeNodes.run ⟨labelled, fourRowsGraph⟩).2.inst.get? "nodes" = labelled.get? "nodes"
    ∧ (threeNodes.run ⟨labelled, fourRowsGraph⟩).1 = .ok ()
    ∧ ∃ value, (threeNodes.run ⟨labelled, fourRowsGraph⟩).2.inst.get? "dst" = some value
      ∧ (threeNodes.run ⟨.empty, ownRowsGraph⟩).2.inst.get? "dst" = some value := by
  have hasks : missingNegative.asks = false := rfl
  have hfault : missingNegative.fault? = some (.graph (.refused "no index")) := by decide
  have hother : "nodes" ∉ threeNodes.targets := by decide
  have hanswer : (threeNodes.ask fourRowsGraph).1 = (threeNodes.ask ownRowsGraph).1 := rfl
  have hok : (threeNodes.run ⟨labelled, fourRowsGraph⟩).1 = .ok () := by
    rw [run_eq]
    show rowsOutcome "dst" repeatedNode.deepest fourRows = .ok ()
    exact rowsOutcome_eq_ok.2 (by decide)
  obtain ⟨-, -, -, herror, hwhole⟩ :=
    run_framed missingNegative labelled labelled fourRowsGraph fourRowsGraph
  obtain ⟨-, hframe, hhistory, -, -⟩ :=
    run_framed threeNodes labelled .empty fourRowsGraph ownRowsGraph
  have hfails := (herror hasks _).2 (congrArg (Option.map Failure.error) hfault)
  exact ⟨hasks, hfault, Prod.ext hfails (hwhole hasks _ hfails), hother, hframe _ hother, hok,
    (hhistory hanswer).2 hok _ (List.mem_singleton_self _)⟩

end Block.Fill

/-! ## The steps of a reader -/

namespace Assembly

variable {γ σ : Type}

theorem fill_built {α : Type} (r : Except BatchError α) (write : α → Instance → Instance) :
    fill (do
      let built ← Query.lift (r.mapError .error)
      Block.Filling.modify (write built))
      = (do
        let built ← result r
        modifyInstance (write built) : Assembling γ σ Unit) := by
  funext a
  cases r with
  | ok built => rfl
  | error e => rfl

theorem fill_fillAdjacency (selfSlot neighborSlot : String) (directed : Bool) (sub : Subgraph)
    (indexings : List Indexing) :
    fill (Block.fillAdjacency selfSlot neighborSlot directed sub indexings)
      = (do
        let pairs ← result (Block.adjacency directed sub indexings)
        modifyInstance (Block.writeAdjacency selfSlot neighborSlot pairs) : Assembling γ σ Unit) :=
  fill_built _ _

theorem fill_fillEdges (srcSlot dstSlot labelSlot : String) (srcIndex dstIndex : Block.IndexFn)
    (srcs dsts : List NodeId) (lists : List (List NodeId)) :
    fill (Block.fillEdges srcSlot dstSlot labelSlot srcIndex dstIndex srcs dsts lists)
      = (do
        let rows ← result (Block.edgeRows srcIndex dstIndex srcs dsts lists)
        modifyInstance (Block.writeEdges srcSlot dstSlot labelSlot rows) : Assembling γ σ Unit) :=
  fill_built _ _

end Assembly

end BipartiteBatch
