import BipartiteBatch.Reader.Batch
import BipartiteBatch.Proofs.Adjacency
import BipartiteBatch.Proofs.FeatureRows

/-!
# The parts of a call that succeeds

A call that gives a batch is a sequence of steps that all succeed. For each step it is told here when it
does, and what there is to work on afterwards; the steps of an encoder are then put together to one:
what the graph finds for its nodes, and the slots that are written from it.

* `Assembly.askGraph_eq_ok`, `Assembly.result_eq_ok` and so on : the steps of a call;
* `Assembly.fillNeighbors_eq_ok` : the neighbor features, where they are wanted;
* `Findings` : what the graph finds for an encoder, `Findings.Found` : it does find this;
* `Findings.write` : the slots of an encoder;
* `Assembly.fillEncoder_eq_ok`, `Assembly.fillEncoders_eq_ok` : one encoder, and both.
-/

namespace BipartiteBatch

/-! ## Steps -/

namespace Assembly

variable {γ σ α : Type} {a a' : Assembly γ σ}

theorem get_bind (f : Assembly γ σ → Assembling γ σ α) (a : Assembly γ σ) :
    (get >>= f) a = f a a := rfl

theorem get_eq_ok {b : Assembly γ σ} : get a = (.ok b, a') ↔ b = a ∧ a' = a := by
  show (Except.ok a, a) = (.ok b, a') ↔ _
  rw [Prod.mk.injEq, Except.ok.injEq]
  exact and_congr eq_comm eq_comm

theorem tell_eq_ok {events : List Event} :
    tell events a = (.ok (), a') ↔ a' = { a with events := a.events ++ events } := by
  show (Except.ok (), { a with events := a.events ++ events }) = (.ok (), a') ↔ _
  rw [Prod.mk.injEq, and_iff_right rfl]
  exact eq_comm

theorem modifyInstance_eq_ok {f : Instance → Instance} :
    modifyInstance f a = (.ok (), a') ↔ a' = { a with inst := f a.inst } := by
  show (Except.ok (), { a with inst := f a.inst }) = (.ok (), a') ↔ _
  rw [Prod.mk.injEq, and_iff_right rfl]
  exact eq_comm

theorem modifyStats_eq_ok {f : Stats → Stats} :
    modifyStats f a = (.ok (), a')
      ↔ a' = { a with reader := { a.reader with stats := f a.reader.stats } } := by
  show (Except.ok (), { a with reader := { a.reader with stats := f a.reader.stats } })
    = (.ok (), a') ↔ _
  rw [Prod.mk.injEq, and_iff_right rfl]
  exact eq_comm

theorem askGraph_eq_ok {q : Query γ α} {answer : α} :
    askGraph q a = (.ok answer, a')
      ↔ ∃ graph, q a.graph = (.ok answer, graph) ∧ a' = { a with graph } :=
  Query.focus_eq_ok

theorem askSampler_eq_ok {q : Query σ α} {answer : α} :
    askSampler q a = (.ok answer, a')
      ↔ ∃ sampler, q a.sampler = (.ok answer, sampler) ∧ a' = { a with sampler } :=
  Query.focus_eq_ok

theorem fill_eq_ok {q : Query (Block.Filling γ) α} {answer : α} :
    fill q a = (.ok answer, a')
      ↔ ∃ f, q ⟨a.inst, a.graph⟩ = (.ok answer, f)
        ∧ a' = { a with inst := f.inst, graph := f.graph } :=
  Query.focus_eq_ok

theorem result_eq_ok {r : Except BatchError α} {value : α} :
    result r a = (.ok value, a') ↔ r = .ok value ∧ a' = a := by
  rw [result, Query.lift_eq_ok, mapError_eq_ok]
  exact and_congr_right fun _ => eq_comm

theorem partition_eq_ok {nodes : List NodeId} {p : Partition} :
    partition nodes a = (.ok p, a')
      ↔ p = .ofList a.reader.config.tags nodes
        ∧ a' = { a with events := a.events ++ p.events a.reader.config.tags } := by
  unfold partition
  rw [Query.bind_eq_ok]
  constructor
  · rintro ⟨_, _, hget, h⟩
    obtain ⟨rfl, rfl⟩ := get_eq_ok.1 hget
    obtain ⟨_, _, htell, h⟩ := Query.bind_eq_ok.1 h
    obtain ⟨rfl, rfl⟩ := Query.pure_eq_ok.1 h
    exact ⟨rfl, tell_eq_ok.1 htell⟩
  · rintro ⟨rfl, rfl⟩
    exact ⟨a, a, rfl, rfl⟩

theorem countBatch_eq_ok {records rows invalid : Nat} :
    countBatch records rows invalid a = (.ok (), a')
      ↔ a' = { a with
          reader := { a.reader with stats := a.reader.stats.addBatch records rows invalid }
          inst := a.inst.withBatchSize records } := by
  unfold countBatch
  rw [Query.bind_eq_ok]
  constructor
  · rintro ⟨_, _, hinst, h⟩
    obtain rfl := modifyInstance_eq_ok.1 hinst
    exact modifyStats_eq_ok.1 h
  · rintro rfl
    exact ⟨(), _, rfl, rfl⟩

end Assembly

/-! ## Neighbor features -/

section NeighborFeatures

/-- The features of neighbors that a graph gives, if they are wanted. -/
def NeighborsFound {γ : Type} [GraphClient γ] (nodes : List NodeId) (g : γ)
    (found : Option (List FeatureRow)) (g' : γ) : Prop :=
  match found with
  | none => g' = g
  | some rows => GraphClient.neighborFeatures nodes g = (.ok rows, g')

def Instance.withNeighborFeatures (slot : String) (nodes : List NodeId)
    (found : Option (List FeatureRow)) (inst : Instance) : Instance :=
  match found with
  | none => inst
  | some rows => inst.insert slot (.csr (Block.neighborBlock nodes rows))

namespace Assembly

variable {γ σ : Type} [GraphClient γ] {a a' : Assembly γ σ}

def fillNeighbors (wanted : Bool) (slot : String) (nodes : List NodeId) : Assembling γ σ Unit :=
  if wanted then fill (Block.fillNeighborFeature slot nodes) else pure ()

theorem fillNeighbors_eq_ok {wanted : Bool} {slot : String} {nodes : List NodeId} :
    fillNeighbors wanted slot nodes a = (.ok (), a')
      ↔ ∃ found graph, found.isSome = wanted ∧ (∀ rows ∈ found, nodes.length ≤ rows.length)
        ∧ NeighborsFound nodes a.graph found graph
        ∧ a' = { a with graph, inst := a.inst.withNeighborFeatures slot nodes found } := by
  cases wanted with
  | false =>
    rw [fillNeighbors, if_neg Bool.false_ne_true, Query.pure_eq_ok]
    constructor
    · rintro ⟨-, rfl⟩
      exact ⟨none, a.graph, rfl, nofun, rfl, rfl⟩
    · rintro ⟨found, graph, hsome, -, hfound, rfl⟩
      cases found with
      | some rows => cases hsome
      | none =>
        obtain rfl : graph = a.graph := hfound
        exact ⟨rfl, rfl⟩
  | true =>
    rw [fillNeighbors, if_pos rfl, fill_eq_ok]
    constructor
    · rintro ⟨_, hfill, rfl⟩
      obtain ⟨rows, graph, hrows, hle, rfl⟩ := Block.fillNeighborFeature_eq_ok.1 hfill
      refine ⟨some rows, graph, rfl, ?_, hrows, rfl⟩
      rintro _ ⟨⟩
      exact hle
    · rintro ⟨found, graph, hsome, hle, hfound, rfl⟩
      cases found with
      | none => cases hsome
      | some rows =>
        exact ⟨_, Block.fillNeighborFeature_eq_ok.2 ⟨rows, graph, hfound, hle rows rfl, rfl⟩, rfl⟩

end Assembly

end NeighborFeatures

/-! ## Encoders -/

/-- What a graph finds for the nodes of an encoder: a subgraph around them, and features of its deepest
level and, where these are wanted, of the neighbors of that level. -/
structure Findings where
  sub : Subgraph
  features : List FeatureRow
  neighborFeatures : Option (List FeatureRow)

namespace Findings

def indexing (found : Findings) : Indexing := (Indexing.ofLevels found.sub.levels).headD .empty

def pairs (found : Findings) : List Block.BlockPair :=
  Block.pairsOf false found.sub.levels found.sub.maps

def write (found : Findings) (slots : EncoderSlots) (inst : Instance) : Instance :=
  Block.writeAdjacency slots.selfBlock slots.neighborBlock found.pairs
    ((inst.insert slots.nodeFeature
      (.csr (Block.nodeBlock found.sub.deepest found.features))).withNeighborFeatures
        slots.neighborFeature found.sub.deepest found.neighborFeatures)

section Found
variable {γ : Type} [GraphClient γ] {config : Config} {nodes : List NodeId} {found : Findings}
  {g g' : γ}

/-- From `g` on, the graph finds this for some nodes, and is left as `g'`. -/
structure Found (config : Config) (nodes : List NodeId) (g : γ) (found : Findings) (g' : γ) :
    Prop where
  answers : ∃ g₁ g₂, Subgraph.sample nodes (config.numNeighbors.map UInt64.toNat) g
      = (.ok found.sub, g₁)
    ∧ GraphClient.nodeFeatures found.sub.deepest g₁ = (.ok found.features, g₂)
    ∧ NeighborsFound found.sub.deepest g₂ found.neighborFeatures g'
  length_features : found.sub.deepest.length ≤ found.features.length
  isSome_neighborFeatures : found.neighborFeatures.isSome = config.useNeighFeat
  length_neighborFeatures : ∀ rows ∈ found.neighborFeatures,
    found.sub.deepest.length ≤ rows.length

theorem Found.nested (h : Found config nodes g found g') : found.sub.Nested := by
  obtain ⟨g₁, g₂, hsample, -⟩ := h.answers
  exact Subgraph.Nested.of_sample hsample

theorem Found.levels_zero (h : Found config nodes g found g') :
    found.sub.levels[0]? = some nodes.eraseDups := by
  obtain ⟨g₁, g₂, hsample, -⟩ := h.answers
  exact Subgraph.levels_zero_of_sample hsample

theorem Found.length_levels (h : Found config nodes g found g') :
    found.sub.levels.length = config.numNeighbors.length + 1 := by
  obtain ⟨g₁, g₂, hsample, -⟩ := h.answers
  obtain ⟨answers, ha, hsub⟩ := Subgraph.sample_eq_ok.1 hsample
  rw [hsub, Subgraph.length_levelsOf, ha.length_answers, List.length_map]

theorem Found.nodes_indexing (h : Found config nodes g found g') :
    found.indexing.nodes = nodes.eraseDups := by
  have hfirst := h.levels_zero
  unfold indexing Indexing.ofLevels
  cases hlevels : found.sub.levels with
  | nil =>
    rw [hlevels] at hfirst
    cases hfirst
  | cons level levels =>
    rw [hlevels] at hfirst
    obtain rfl := Option.some.inj hfirst
    exact Indexing.nodes_ofList_of_nodup (nodup_eraseDups nodes)

end Found

end Findings

namespace Assembly

variable {γ σ : Type} [GraphClient γ] {a a' : Assembly γ σ}

theorem fillEncoder_eq (group : Group) (nodes : List NodeId) (a : Assembly γ σ) :
    fillEncoder group nodes a
      = (do
        let sub ← askGraph (Subgraph.sample nodes (a.reader.config.numNeighbors.map UInt64.toNat))
        fill (Block.fillNodeFeature (a.reader.slots.encoder group).nodeFeature sub.deepest)
        fillNeighbors a.reader.config.useNeighFeat (a.reader.slots.encoder group).neighborFeature
          sub.deepest
        let pairs ← result (Block.adjacency false sub (Indexing.ofLevels sub.levels))
        modifyInstance (Block.writeAdjacency (a.reader.slots.encoder group).selfBlock
          (a.reader.slots.encoder group).neighborBlock pairs)
        return (Indexing.ofLevels sub.levels).headD .empty : Assembling γ σ Indexing) a := by
  unfold fillEncoder fillNeighbors
  rw [get_bind]
  dsimp only
  -- a step that is made or not splits what comes after it in two, so the two are unfolded apart
  cases a.reader.config.useNeighFeat with
  | false => rfl
  | true => rfl

/-- An encoder is filled with what the graph finds for its nodes. -/
theorem fillEncoder_eq_ok {group : Group} {nodes : List NodeId} {indexing : Indexing} :
    fillEncoder group nodes a = (.ok indexing, a')
      ↔ ∃ found graph, Findings.Found a.reader.config nodes a.graph found graph
        ∧ indexing = found.indexing
        ∧ a' = { a with graph, inst := found.write (a.reader.slots.encoder group) a.inst } := by
  rw [fillEncoder_eq, Query.bind_eq_ok]
  constructor
  · rintro ⟨sub, _, hask, h⟩
    obtain ⟨g₁, hsample, rfl⟩ := askGraph_eq_ok.1 hask
    obtain ⟨⟨⟩, _, hfill, h⟩ := Query.bind_eq_ok.1 h
    obtain ⟨_, hnode, rfl⟩ := fill_eq_ok.1 hfill
    obtain ⟨features, g₂, hfeatures, hlength, rfl⟩ := Block.fillNodeFeature_eq_ok.1 hnode
    obtain ⟨⟨⟩, _, hneighbors, h⟩ := Query.bind_eq_ok.1 h
    obtain ⟨rows, g₃, hwanted, hcount, hrows, rfl⟩ := fillNeighbors_eq_ok.1 hneighbors
    obtain ⟨pairs, _, hpairs, h⟩ := Query.bind_eq_ok.1 h
    obtain ⟨hadjacency, rfl⟩ := result_eq_ok.1 hpairs
    rw [Block.adjacency_eq (Subgraph.Nested.of_sample hsample)] at hadjacency
    obtain rfl := Except.ok.inj hadjacency
    obtain ⟨⟨⟩, _, hwrite, h⟩ := Query.bind_eq_ok.1 h
    obtain rfl := modifyInstance_eq_ok.1 hwrite
    obtain ⟨rfl, rfl⟩ := Query.pure_eq_ok.1 h
    exact ⟨⟨sub, features, rows⟩, g₃,
      ⟨⟨g₁, g₂, hsample, hfeatures, hrows⟩, hlength, hwanted, hcount⟩, rfl, rfl⟩
  · rintro ⟨⟨sub, features, rows⟩, graph, hfound, rfl, rfl⟩
    obtain ⟨g₁, g₂, hsample, hfeatures, hrows⟩ := hfound.answers
    refine ⟨sub, _, askGraph_eq_ok.2 ⟨g₁, hsample, rfl⟩, ?_⟩
    refine Query.bind_eq_ok.2 ⟨(), _, fill_eq_ok.2 ⟨_, Block.fillNodeFeature_eq_ok.2
      ⟨features, g₂, hfeatures, hfound.length_features, rfl⟩, rfl⟩, ?_⟩
    refine Query.bind_eq_ok.2 ⟨(), _, fillNeighbors_eq_ok.2 ⟨rows, graph,
      hfound.isSome_neighborFeatures, hfound.length_neighborFeatures, hrows, rfl⟩, ?_⟩
    refine Query.bind_eq_ok.2 ⟨_, _, result_eq_ok.2 ⟨Block.adjacency_eq hfound.nested, rfl⟩, ?_⟩
    exact Query.bind_eq_ok.2 ⟨(), _, modifyInstance_eq_ok.2 rfl, rfl⟩

theorem fillEncoders_eq_ok {p : Partition} {flat : FlatIndex} :
    fillEncoders p a = (.ok flat, a')
      ↔ ∃ users items between graph,
        Findings.Found a.reader.config p.users a.graph users between
        ∧ Findings.Found a.reader.config p.items between items graph
        ∧ flat = ⟨a.reader.config.tags, users.indexing, items.indexing⟩
        ∧ a' = { a with
          graph
          inst := items.write a.reader.slots.item (users.write a.reader.slots.user a.inst) } := by
  unfold fillEncoders
  rw [Query.bind_eq_ok]
  constructor
  · rintro ⟨_, _, hfirst, h⟩
    obtain ⟨users, between, husers, rfl, rfl⟩ := fillEncoder_eq_ok.1 hfirst
    obtain ⟨_, _, hsecond, h⟩ := Query.bind_eq_ok.1 h
    obtain ⟨items, graph, hitems, rfl, rfl⟩ := fillEncoder_eq_ok.1 hsecond
    obtain ⟨_, _, hget, h⟩ := Query.bind_eq_ok.1 h
    obtain ⟨rfl, rfl⟩ := get_eq_ok.1 hget
    obtain ⟨rfl, rfl⟩ := Query.pure_eq_ok.1 h
    exact ⟨users, items, between, graph, husers, hitems, rfl, rfl⟩
  · rintro ⟨users, items, between, graph, husers, hitems, rfl, rfl⟩
    refine ⟨_, _, fillEncoder_eq_ok.2 ⟨users, between, husers, rfl, rfl⟩, ?_⟩
    refine Query.bind_eq_ok.2 ⟨_, _, fillEncoder_eq_ok.2 ⟨items, graph, hitems, rfl, rfl⟩, ?_⟩
    exact Query.bind_eq_ok.2 ⟨_, _, rfl, rfl⟩

end Assembly

end BipartiteBatch
