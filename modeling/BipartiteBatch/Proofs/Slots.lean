import BipartiteBatch.Proofs.Encoders

/-!
# The slots of a batch

A batch is a list of slots that are set one after the other. Where the slots of a reader have distinct
names, each of them is still found after all are set.

* `Instance.insertAll` : an instance with more slots, `Instance.get?_insertAll_of_mem` : what these hold;
* `SlotNames.names` : the names a reader writes to, `SlotNames.Distinct` : they are pairwise distinct;
* `Findings.entries` : the slots of an encoder, `edgeEntries`, `lookupEntries` : those of a batch;
* `insertAll_trainingEntries`, `insertAll_predictionEntries` : how a batch sets them;
* `sublist_trainingNames`, `sublist_predictionNames` : these are slots of the reader;
* `not_mem_predictionNames` : the slots that a prediction batch does not have.
-/

namespace BipartiteBatch

/-! ## Setting many slots -/

namespace Instance

def insertAll (inst : Instance) (entries : List (String × SlotValue)) : Instance :=
  entries.foldl (fun inst e => inst.insert e.1 e.2) inst

theorem insertAll_append (inst : Instance) (xs ys : List (String × SlotValue)) :
    inst.insertAll (xs ++ ys) = (inst.insertAll xs).insertAll ys := by
  unfold insertAll
  exact List.foldl_append

theorem get?_insertAll_of_not_mem {inst : Instance} {entries : List (String × SlotValue)}
    {name : String} (h : name ∉ entries.map Prod.fst) :
    (inst.insertAll entries).get? name = inst.get? name := by
  induction entries generalizing inst with
  | nil => rfl
  | cons e entries ih =>
    rw [List.map_cons, List.mem_cons, not_or] at h
    show ((inst.insert e.1 e.2).insertAll entries).get? name = _
    rw [ih h.2, get?_insert, if_neg (Ne.symm h.1)]

/-- Among slots with distinct names, each holds its value in the end. -/
theorem get?_insertAll_of_mem {inst : Instance} {entries : List (String × SlotValue)}
    (hnodup : (entries.map Prod.fst).Nodup) {name : String} {value : SlotValue}
    (h : (name, value) ∈ entries) : (inst.insertAll entries).get? name = some value := by
  induction entries generalizing inst with
  | nil => cases h
  | cons e entries ih =>
    rw [List.map_cons, List.nodup_cons] at hnodup
    show ((inst.insert e.1 e.2).insertAll entries).get? name = _
    rcases List.mem_cons.1 h with rfl | h
    · rw [get?_insertAll_of_not_mem hnodup.1, get?_insert, if_pos rfl]
    · exact ih hnodup.2 h

section Kinds
variable {inst : Instance} {name : String}

theorem csr?_of_get? {block : Csr} (h : inst.get? name = some (.csr block)) :
    inst.csr? name = some block := by
  rw [csr?, h]
  rfl

theorem csrList?_of_get? {blocks : List Csr} (h : inst.get? name = some (.csrList blocks)) :
    inst.csrList? name = some blocks := by
  rw [csrList?, h]
  rfl

theorem indices?_of_get? {items : List Nat} (h : inst.get? name = some (.indices items)) :
    inst.indices? name = some items := by
  rw [indices?, h]
  rfl

theorem nodes?_of_get? {items : List NodeId} (h : inst.get? name = some (.nodes items)) :
    inst.nodes? name = some items := by
  rw [nodes?, h]
  rfl

theorem labels?_of_get? {items : List Float32} (h : inst.get? name = some (.labels items)) :
    inst.labels? name = some items := by
  rw [labels?, h]
  rfl

end Kinds

end Instance

/-! ## Slot names -/

def EncoderSlots.names (slots : EncoderSlots) : List String :=
  [slots.nodeFeature, slots.neighborFeature, slots.selfBlock, slots.neighborBlock]

namespace SlotNames

def names (slots : SlotNames) : List String :=
  slots.user.names ++ slots.item.names ++ [slots.srcId, slots.dstId, slots.label, slots.predictNode]

def Distinct (slots : SlotNames) : Prop := slots.names.Nodup

instance (slots : SlotNames) : Decidable slots.Distinct :=
  inferInstanceAs (Decidable slots.names.Nodup)

/-- The default names are distinct. -/
example : ({} : SlotNames).Distinct := by decide

end SlotNames

/-! ## Entries -/

def Findings.entries (found : Findings) (slots : EncoderSlots) : List (String × SlotValue) :=
  (slots.nodeFeature, .csr (Block.nodeBlock found.sub.deepest found.features))
    :: found.neighborFeatures.toList.map (fun rows =>
      (slots.neighborFeature, .csr (Block.neighborBlock found.sub.deepest rows)))
    ++ [(slots.selfBlock, .csrList (found.pairs.map Block.BlockPair.self)),
      (slots.neighborBlock, .csrList (found.pairs.map Block.BlockPair.neighbors))]

def edgeEntries (slots : SlotNames) (rows : List Block.EdgeRow) : List (String × SlotValue) :=
  [(slots.srcId, .indices (rows.map Block.EdgeRow.src)),
    (slots.dstId, .indices (rows.map Block.EdgeRow.dst)),
    (slots.label, .labels (rows.map Block.EdgeRow.label))]

def lookupEntries (slots : SlotNames) (block : Csr) (nodes : List NodeId) :
    List (String × SlotValue) :=
  [(slots.srcId, .csr block), (slots.predictNode, .nodes nodes)]

def trainingEntries (slots : SlotNames) (users items : Findings) (rows : List Block.EdgeRow) :
    List (String × SlotValue) :=
  users.entries slots.user ++ items.entries slots.item ++ edgeEntries slots rows

def predictionEntries (slots : SlotNames) (users items : Findings) (block : Csr)
    (nodes : List NodeId) : List (String × SlotValue) :=
  users.entries slots.user ++ items.entries slots.item ++ lookupEntries slots block nodes

theorem Findings.write_eq_insertAll (found : Findings) (slots : EncoderSlots) (inst : Instance) :
    found.write slots inst = inst.insertAll (found.entries slots) := by
  obtain ⟨sub, features, neighborFeatures⟩ := found
  cases neighborFeatures with
  | none => exact Block.writeAdjacency_eq _ _ _ _
  | some rows => exact Block.writeAdjacency_eq _ _ _ _

theorem insertAll_trainingEntries (slots : SlotNames) (users items : Findings)
    (rows : List Block.EdgeRow) (inst : Instance) :
    inst.insertAll (trainingEntries slots users items rows)
      = Block.writeEdges slots.srcId slots.dstId slots.label rows
        (items.write slots.item (users.write slots.user inst)) := by
  rw [trainingEntries, Instance.insertAll_append, Instance.insertAll_append,
    ← Findings.write_eq_insertAll, ← Findings.write_eq_insertAll, Block.writeEdges_eq]
  rfl

theorem insertAll_predictionEntries (slots : SlotNames) (users items : Findings) (block : Csr)
    (nodes : List NodeId) (inst : Instance) :
    inst.insertAll (predictionEntries slots users items block nodes)
      = Block.writeLookup slots.srcId slots.predictNode block nodes
        (items.write slots.item (users.write slots.user inst)) := by
  rw [predictionEntries, Instance.insertAll_append, Instance.insertAll_append,
    ← Findings.write_eq_insertAll, ← Findings.write_eq_insertAll, Block.writeLookup_eq]
  rfl

theorem Findings.sublist_names (found : Findings) (slots : EncoderSlots) :
    ((found.entries slots).map Prod.fst).Sublist slots.names := by
  obtain ⟨sub, features, neighborFeatures⟩ := found
  cases neighborFeatures with
  | none => exact .cons_cons _ (.cons _ (List.Sublist.refl _))
  | some rows => exact List.Sublist.refl _

section Batch
variable (slots : SlotNames) (users items : Findings)

theorem sublist_trainingNames (rows : List Block.EdgeRow) :
    ((trainingEntries slots users items rows).map Prod.fst).Sublist slots.names := by
  rw [trainingEntries, List.map_append, List.map_append]
  apply ((users.sublist_names slots.user).append (items.sublist_names slots.item)).append
  exact .cons_cons _ (.cons_cons _ (.cons_cons _ (.cons _ .slnil)))

theorem sublist_predictionNames (block : Csr) (nodes : List NodeId) :
    ((predictionEntries slots users items block nodes).map Prod.fst).Sublist slots.names := by
  rw [predictionEntries, List.map_append, List.map_append]
  apply ((users.sublist_names slots.user).append (items.sublist_names slots.item)).append
  exact .cons_cons _ (.cons _ (.cons _ (.cons_cons _ .slnil)))

theorem not_mem_predictionNames (block : Csr) (nodes : List NodeId) (hslots : slots.Distinct)
    {name : String} (hname : name ∈ [slots.dstId, slots.label]) :
    name ∉ (predictionEntries slots users items block nodes).map Prod.fst := by
  have hperm : slots.names.Perm ([slots.dstId, slots.label] ++ (slots.user.names ++ slots.item.names
      ++ [slots.srcId] ++ [slots.predictNode])) := by
    have hnames : slots.names = slots.user.names ++ slots.item.names ++ [slots.srcId]
        ++ ([slots.dstId, slots.label] ++ [slots.predictNode]) := by
      rw [List.append_assoc]
      rfl
    rw [hnames]
    exact List.perm_append_comm_assoc _ _ _
  have hne := (List.nodup_append.1 (hperm.nodup_iff.1 hslots)).2.2 name hname
  have hsub : ((predictionEntries slots users items block nodes).map Prod.fst).Sublist
      (slots.user.names ++ slots.item.names ++ [slots.srcId] ++ [slots.predictNode]) := by
    rw [predictionEntries, List.map_append, List.map_append, List.append_assoc _ [slots.srcId]]
    exact ((users.sublist_names slots.user).append (items.sublist_names slots.item)).append (.refl _)
  exact fun hmem => hne name (hsub.subset hmem) rfl

end Batch

end BipartiteBatch
