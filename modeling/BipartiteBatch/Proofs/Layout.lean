import BipartiteBatch.Proofs.Alignment
import BipartiteBatch.Proofs.Answers

/-!
# What a batch leaves in an instance

A call clears the instance before it writes, so nothing of an earlier batch can show in a later one. Each
stage writes to slots of its own, whatever the encoders are called: then an instance with a batch has the
slots of that kind of batch and no others.

* `SlotShape` : the kind of a slot, and for a list of blocks how many there are;
* `EncoderSlots.layout`, `SlotNames.layout` : the slots of an encoder and of a batch, by shape;
* `Instance.HoldsExactly` : these slots and no others;
* `SlotNames.distinct_ofEncoders` : encoders of two names share no slot with each other or with the batch;
* `Reader.fill_holds_exactly` : a call does not depend on the instance, and a batch has its layout.
-/

namespace BipartiteBatch

/-! ## Shapes -/

/-- What a slot holds, the contents left out. -/
inductive SlotShape where
  | csr
  | csrList (count : Nat)
  | indices
  | nodes
  | labels
deriving DecidableEq, Repr

def SlotValue.shape : SlotValue → SlotShape
  | csr _ => .csr
  | csrList blocks => .csrList blocks.length
  | indices _ => .indices
  | nodes _ => .nodes
  | labels _ => .labels

/-- The slots of an encoder: a block of node features, a block of neighbor features if these are wanted,
and two blocks for each hop. -/
def EncoderSlots.layout (slots : EncoderSlots) (config : Config) : List (String × SlotShape) :=
  (slots.nodeFeature, .csr)
    :: (if config.useNeighFeat then [(slots.neighborFeature, .csr)] else [])
    ++ [(slots.selfBlock, .csrList config.numNeighbors.length),
      (slots.neighborBlock, .csrList config.numNeighbors.length)]

namespace SlotNames

def recordLayout (slots : SlotNames) : Mode → List (String × SlotShape)
  | .train => [(slots.srcId, .indices), (slots.dstId, .indices), (slots.label, .labels)]
  | .predict => [(slots.srcId, .csr), (slots.predictNode, .nodes)]

def layout (slots : SlotNames) (config : Config) : List (String × SlotShape) :=
  slots.user.layout config ++ slots.item.layout config ++ slots.recordLayout config.mode

end SlotNames

/-- The instance has these slots, with values of these shapes, and no others. -/
def Instance.HoldsExactly (inst : Instance) (layout : List (String × SlotShape)) : Prop :=
  ∀ name shape, (inst.get? name).map SlotValue.shape = some shape ↔ (name, shape) ∈ layout

/-- Slots with distinct names, set in an instance without slots, are all that it has. -/
theorem Instance.get?_insertAll_eq_some {entries : List (String × SlotValue)}
    (hnodup : (entries.map Prod.fst).Nodup) {name : String} {value : SlotValue} :
    (empty.insertAll entries).get? name = some value ↔ (name, value) ∈ entries := by
  refine ⟨fun h => ?_, get?_insertAll_of_mem hnodup⟩
  by_cases hname : name ∈ entries.map Prod.fst
  · obtain ⟨⟨name, held⟩, hmem, rfl⟩ := List.mem_map.1 hname
    obtain rfl := Option.some.inj ((get?_insertAll_of_mem hnodup hmem).symm.trans h)
    exact hmem
  · rw [get?_insertAll_of_not_mem hname] at h
    cases h

theorem Instance.holdsExactly_insertAll {entries : List (String × SlotValue)}
    {layout : List (String × SlotShape)} (hnodup : (entries.map Prod.fst).Nodup)
    (hlayout : entries.map (fun e => (e.1, e.2.shape)) = layout) (size : Nat) :
    ((empty.insertAll entries).withBatchSize size).HoldsExactly layout := by
  intro name shape
  rw [get?_withBatchSize, Option.map_eq_some_iff, ← hlayout, List.mem_map]
  constructor
  · rintro ⟨value, hvalue, rfl⟩
    exact ⟨_, (get?_insertAll_eq_some hnodup).1 hvalue, rfl⟩
  · rintro ⟨⟨name, value⟩, hmem, heq⟩
    obtain ⟨rfl, rfl⟩ := Prod.mk.inj heq
    exact ⟨value, (get?_insertAll_eq_some hnodup).2 hmem, rfl⟩

/-! ## Names -/

namespace SlotNames

/-- What the names of the slots of an encoder begin with. -/
def encoderPrefixes : List String := ["node_feature", "neigh_feature", "self_block", "neigh_block"]

def batchNames : List String := ["src_id", "dst_id", "Y", "predict_node"]

/-- The first seven characters of a name tell what it names. -/
def start (name : String) : List Char := name.toList.take 7

theorem start_append {first : String} (hfirst : first ∈ encoderPrefixes) (encoder : String) :
    start (first ++ encoder) = start first := by
  have hlength : ∀ first ∈ encoderPrefixes, 7 ≤ first.toList.length := by decide
  unfold start
  rw [String.toList_append, List.take_append_of_le_length (hlength first hfirst)]

/-- The slot of an encoder gives away what it holds and for which encoder. -/
theorem append_inj {first other user item : String} (hfirst : first ∈ encoderPrefixes)
    (hother : other ∈ encoderPrefixes) (h : first ++ user = other ++ item) :
    first = other ∧ user = item := by
  have hstarts : ∀ first ∈ encoderPrefixes, ∀ other ∈ encoderPrefixes,
      start first = start other → first = other := by decide
  have hstart := congrArg start h
  rw [start_append hfirst, start_append hother] at hstart
  obtain rfl := hstarts first hfirst other hother hstart
  exact ⟨rfl, (String.append_right_inj first).1 h⟩

theorem append_not_mem_batchNames {first : String} (hfirst : first ∈ encoderPrefixes)
    (encoder : String) : first ++ encoder ∉ batchNames := by
  have hstarts : ∀ first ∈ encoderPrefixes, start first ∉ batchNames.map start := by decide
  intro h
  apply hstarts first hfirst
  rw [← start_append hfirst encoder]
  exact List.mem_map_of_mem h

theorem nodup_encoder (encoder : String) : (encoderPrefixes.map (· ++ encoder)).Nodup := by
  refine List.Nodup.map_on (fun first hfirst other hother h => ?_) (by decide)
  exact (append_inj hfirst hother h).1

/-- Encoders of different names write to different slots, and these are none of the slots of the batch as
a whole. -/
theorem distinct_ofEncoders {user item : String} (hne : user ≠ item) :
    (ofEncoders user item).Distinct := by
  show (encoderPrefixes.map (· ++ user) ++ encoderPrefixes.map (· ++ item) ++ batchNames).Nodup
  refine List.nodup_append.2 ⟨List.nodup_append.2 ⟨nodup_encoder user, nodup_encoder item, ?_⟩,
    by decide, ?_⟩
  · intro x hx y hy hxy
    obtain ⟨first, hfirst, rfl⟩ := List.mem_map.1 hx
    obtain ⟨other, hother, rfl⟩ := List.mem_map.1 hy
    exact hne (append_inj hfirst hother hxy).2
  · intro x hx y hy hxy
    have hencoder : ∃ first ∈ encoderPrefixes, ∃ encoder, first ++ encoder = x := by
      rcases List.mem_append.1 hx with hx | hx
      · obtain ⟨first, hfirst, rfl⟩ := List.mem_map.1 hx
        exact ⟨first, hfirst, user, rfl⟩
      · obtain ⟨first, hfirst, rfl⟩ := List.mem_map.1 hx
        exact ⟨first, hfirst, item, rfl⟩
    obtain ⟨first, hfirst, encoder, rfl⟩ := hencoder
    exact append_not_mem_batchNames hfirst encoder (hxy ▸ hy)

end SlotNames

/-! ## Batches -/

section Findings
variable {γ : Type} [GraphClient γ] {config : Config} {nodes : List NodeId} {found : Findings}
  {g g' : γ}

theorem Findings.Found.shapes (h : Findings.Found config nodes g found g') (slots : EncoderSlots) :
    (found.entries slots).map (fun e => (e.1, e.2.shape)) = slots.layout config := by
  have hpairs : found.pairs.length = config.numNeighbors.length :=
    (Block.length_pairsOf h.nested.length_levels).trans h.length_maps
  have hwanted := h.isSome_neighborFeatures
  unfold Findings.entries EncoderSlots.layout
  cases hfeatures : found.neighborFeatures with
  | none =>
    rw [hfeatures] at hwanted
    simp [SlotValue.shape, ← hwanted, hpairs]
  | some rows =>
    rw [hfeatures] at hwanted
    simp [SlotValue.shape, ← hwanted, hpairs]

end Findings

namespace Assembly

variable {γ σ : Type} [GraphClient γ] {a a' : Assembly γ σ} {users items : Findings}

/-- A training batch has its layout. -/
theorem Trained.holdsExactly [NegativeSampler σ] {records : List EdgeRecord}
    {lists : List (List NodeId)} {rows : List Block.EdgeRow}
    (h : Trained records a lists users items rows a') (hslots : a.reader.slots.Distinct)
    (hinst : a.inst = .empty) (hmode : a.reader.config.isTrain = true) :
    a'.inst.HoldsExactly (a.reader.slots.layout a.reader.config) := by
  obtain ⟨between, husers, hitems⟩ := h.found
  rw [h.inst, hinst]
  apply Instance.holdsExactly_insertAll ((sublist_trainingNames _ _ _ _).nodup hslots)
  rw [trainingEntries, List.map_append, List.map_append, husers.shapes, hitems.shapes,
    SlotNames.layout, Config.mode, if_pos hmode]
  rfl

theorem Predicted.holdsExactly {records : List NodeRecord} {block : Csr}
    (h : Predicted records a users items block a') (hslots : a.reader.slots.Distinct)
    (hinst : a.inst = .empty) (hmode : a.reader.config.isTrain = false) :
    a'.inst.HoldsExactly (a.reader.slots.layout a.reader.config) := by
  obtain ⟨between, husers, hitems⟩ := h.found
  rw [h.inst, hinst]
  apply Instance.holdsExactly_insertAll ((sublist_predictionNames _ _ _ _ _).nodup hslots)
  rw [predictionEntries, List.map_append, List.map_append, husers.shapes, hitems.shapes,
    SlotNames.layout, Config.mode, hmode]
  rfl

end Assembly

namespace Reader

variable {γ σ : Type} [GraphClient γ] [NegativeSampler σ]

/-- The outcome of a call, and all that it leaves, are the same whatever the instance held. With the slots
of two encoders of different names, a batch has the slots of its layout and no others. -/
theorem fill_holds_exactly (reader : Reader) (graph : γ) (sampler : σ) (events : List Event)
    (inst other : Instance) :
    Reader.fill ⟨reader, graph, sampler, inst, events⟩
      = Reader.fill ⟨reader, graph, sampler, other, events⟩
    ∧ ∀ user item : String, user ≠ item → reader.slots = .ofEncoders user item →
      (SlotNames.ofEncoders user item).Distinct
      ∧ ∀ a', Reader.fill ⟨reader, graph, sampler, inst, events⟩ = (.ok true, a') →
        a'.inst.HoldsExactly ((SlotNames.ofEncoders user item).layout reader.config) := by
  refine ⟨rfl, fun user item hne hslots => ?_⟩
  have hdistinct := SlotNames.distinct_ofEncoders hne
  rw [← hslots] at hdistinct ⊢
  refine ⟨hdistinct, fun a' hfill => ?_⟩
  cases hmode : reader.config.isTrain with
  | true =>
    obtain ⟨records, input, read, lists, users, items, rows, -, h⟩ := (fill_train hmode).1 hfill
    exact h.holdsExactly hdistinct rfl hmode
  | false =>
    obtain ⟨records, input, read, users, items, block, -, h⟩ := (fill_predict hmode).1 hfill
    exact h.holdsExactly hdistinct rfl hmode

/-- A reader before an edge, with encoders that have the names of nothing and of a slot, and an instance
that is not empty. -/
def oddNames : Assembly Graph UniformSampler where
  reader :=
    { config := { numNeighbors := [2, 1], useNeighFeat := true }
      slots := .ofEncoders "" "src_id"
      input := .ofLines [.ok "1 281474976710657"] }
  graph := {}
  sampler := {}
  inst := Instance.empty.insert "src_id" (.labels [1.0])

theorem fill_holds_exactly_oddNames : ∃ a' : Assembly Graph UniformSampler,
    Reader.fill oddNames = (.ok true, a') ∧ Reader.fill { oddNames with inst := .empty } = (.ok true, a')
      ∧ a'.inst.HoldsExactly
        [("node_feature", .csr), ("neigh_feature", .csr), ("self_block", .csrList 2),
          ("neigh_block", .csrList 2), ("node_featuresrc_id", .csr), ("neigh_featuresrc_id", .csr),
          ("self_blocksrc_id", .csrList 2), ("neigh_blocksrc_id", .csrList 2),
          ("src_id", .indices), ("dst_id", .indices), ("Y", .labels)] := by
  let edges : List EdgeRecord := [⟨1, 281474976710657⟩]
  have hnext : oddNames.reader.input.next EdgeRecord oddNames.reader.config.batch.toNat
      = (.ok (some edges), ⟨none, 1, 0⟩, [.inputClosed 1 0]) := rfl
  obtain ⟨a', hfill⟩ := exists_fill_train (a := oddNames) rfl (by decide) hnext (by decide)
  obtain ⟨hsame, hexactly⟩ := fill_holds_exactly oddNames.reader oddNames.graph oddNames.sampler
    oddNames.events oddNames.inst .empty
  have hlayout := (hexactly "" "src_id" (by decide) rfl).2 a' hfill
  refine ⟨a', hfill, hsame ▸ hfill, ?_⟩
  convert hlayout using 1
  decide

end Reader

end BipartiteBatch
