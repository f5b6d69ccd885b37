import BipartiteBatch.Proofs.Training

/-!
# The indices of a batch agree

A batch numbers nodes in four ways: by flat indices, by the rows of the blocks of each hop, by their
columns, and by the rows of the feature blocks. Since each level of a subgraph begins with the one
before it, a node has one and the same number in all of them, items being moved behind the users in the
flat index.

* `Findings.Fits` : the blocks of an encoder have the sizes of its levels;
* `Findings.OwnRows` : a row of each block of an encoder is that of a node;
* `Findings.Found.fits`, `Findings.Found.ownRows` : what the graph finds fits, and every node has its rows;
* `Assembly.FlatSlots` : the slots of a batch that hold flat indices;
* `Reader.fill_aligned` : the indices of a batch.
-/

namespace BipartiteBatch

namespace Findings

/-! ## Blocks and levels -/

/-- The slots of an encoder hold blocks for each hop, as many rows as nodes in the level of the hop and
columns below the size of the next level, and feature blocks with as many rows as nodes in the deepest
level. A node has the same index in all levels that contain it. -/
structure Fits (config : Config) (slots : EncoderSlots) (found : Findings) (inst : Instance) :
    Prop where
  length_levels : found.sub.levels.length = config.numNeighbors.length + 1
  hops : ∃ selves neighbors, inst.csrList? slots.selfBlock = some selves
    ∧ inst.csrList? slots.neighborBlock = some neighbors
    ∧ selves.length = config.numNeighbors.length ∧ neighbors.length = config.numNeighbors.length
    ∧ ∀ (h : Nat) (level next : List NodeId), found.sub.levels[h]? = some level →
      found.sub.levels[h + 1]? = some next → ∃ self neighbor, selves[h]? = some self
        ∧ neighbors[h]? = some neighbor ∧ self.rowCount = level.length
        ∧ neighbor.rowCount = level.length ∧ (∀ col ∈ self.col, col.toNat < next.length)
        ∧ ∀ col ∈ neighbor.col, col.toNat < next.length
  features : ∃ deepest block, found.sub.levels[config.numNeighbors.length]? = some deepest
    ∧ inst.csr? slots.nodeFeature = some block ∧ block.rowCount = deepest.length
    ∧ (config.useNeighFeat = true → ∃ block, inst.csr? slots.neighborFeature = some block
      ∧ block.rowCount = deepest.length)
  index_eq : ∀ (h k i : Nat) (level other : List NodeId) (node : NodeId),
    found.sub.levels[h]? = some level → found.sub.levels[k]? = some other →
      level[i]? = some node → node ∈ other → other[i]? = some node

/-- Row `i` of every block of an encoder is that of a node: the features the graph gave for it, itself
in the next level, and in the next level the neighbors sampled for it. -/
structure OwnRows (slots : EncoderSlots) (found : Findings) (inst : Instance) (node : NodeId)
    (i : Nat) : Prop where
  features : ∃ block row, inst.csr? slots.nodeFeature = some block
    ∧ found.sub.deepest[i]? = some node ∧ found.features[i]? = some row
    ∧ block.row i = .ok (some (Block.nodeRow node row))
  hops : ∃ selves neighbors, inst.csrList? slots.selfBlock = some selves
    ∧ inst.csrList? slots.neighborBlock = some neighbors
    ∧ ∀ (h : Nat) (map : NeighborMap), found.sub.maps[h]? = some map →
      ∃ level next self neighbor col row, found.sub.levels[h]? = some level
        ∧ found.sub.levels[h + 1]? = some next
        ∧ selves[h]? = some self ∧ neighbors[h]? = some neighbor ∧ level[i]? = some node
        ∧ self.row i = .ok (some [(col, 1.0)]) ∧ next[col.toNat]? = some node
        ∧ neighbor.row i = .ok (some row)
        ∧ row.map (fun e => next[e.1.toNat]?) = (map.neighbors node).map fun n => some n.node

section Found
variable {γ : Type} [GraphClient γ] {config : Config} {nodes : List NodeId} {found : Findings}
  {g g' : γ} {slots : EncoderSlots} {inst : Instance}

theorem Found.getElem?_deepest (h : Found config nodes g found g') :
    found.sub.levels[config.numNeighbors.length]? = some found.sub.deepest := by
  have hlength := h.length_levels
  have hlt : config.numNeighbors.length < found.sub.levels.length := by omega
  have hlast : found.sub.levels.getLast? = some found.sub.levels[config.numNeighbors.length] := by
    rw [List.getLast?_eq_getElem?, hlength, Nat.add_sub_cancel, List.getElem?_eq_getElem hlt]
  rw [List.getElem?_eq_getElem hlt, Subgraph.deepest, List.getLastD_eq_getLast?, hlast,
    Option.getD_some]

theorem Found.length_maps (h : Found config nodes g found g') :
    found.sub.maps.length = config.numNeighbors.length := by
  have hlevels := h.length_levels
  have hmaps := h.nested.length_levels
  omega

def Holds (slots : EncoderSlots) (found : Findings) (inst : Instance) : Prop :=
  ∀ e ∈ found.entries slots, inst.get? e.1 = some e.2

theorem Holds.csr?_nodeFeature (h : Holds slots found inst) :
    inst.csr? slots.nodeFeature
      = some (Block.nodeBlock found.sub.deepest found.features) :=
  Instance.csr?_of_get? (h (_, _) (by simp [entries]))

theorem Holds.csr?_neighborFeature (h : Holds slots found inst) {rows : List FeatureRow}
    (hrows : found.neighborFeatures = some rows) :
    inst.csr? slots.neighborFeature = some (Block.neighborBlock found.sub.deepest rows) :=
  Instance.csr?_of_get? (h (_, _) (by simp [entries, hrows]))

theorem Holds.csrList?_selfBlock (h : Holds slots found inst) :
    inst.csrList? slots.selfBlock = some (found.pairs.map Block.BlockPair.self) :=
  Instance.csrList?_of_get? (h (_, _) (by simp [entries]))

theorem Holds.csrList?_neighborBlock (h : Holds slots found inst) :
    inst.csrList? slots.neighborBlock = some (found.pairs.map Block.BlockPair.neighbors) :=
  Instance.csrList?_of_get? (h (_, _) (by simp [entries]))

theorem Found.getElem?_pairs (h : Found config nodes g found g') {hop : Nat}
    {level next : List NodeId} (hlevel : found.sub.levels[hop]? = some level)
    (hnext : found.sub.levels[hop + 1]? = some next) : ∃ map, found.sub.maps[hop]? = some map
      ∧ found.pairs[hop]? = some (Block.pairOf false level next map) := by
  have hlt := (List.getElem?_eq_some_iff.1 hnext).1
  have hlength := h.nested.length_levels
  obtain ⟨map, hmap⟩ : ∃ map, found.sub.maps[hop]? = some map :=
    ⟨_, List.getElem?_eq_getElem (by omega)⟩
  exact ⟨map, hmap, Block.getElem?_pairsOf hlevel hnext hmap⟩

theorem Found.fits (h : Found config nodes g found g') (hslots : Holds slots found inst) :
    Fits config slots found inst where
  length_levels := h.length_levels
  hops := by
    have hpairs : found.pairs.length = config.numNeighbors.length :=
      (Block.length_pairsOf h.nested.length_levels).trans h.length_maps
    refine ⟨_, _, hslots.csrList?_selfBlock, hslots.csrList?_neighborBlock, ?_, ?_, ?_⟩
    · rw [List.length_map, hpairs]
    · rw [List.length_map, hpairs]
    · intro hop level next hlevel hnext
      obtain ⟨map, hmap, hpair⟩ := h.getElem?_pairs hlevel hnext
      have hcovers := Block.covers_of_nested h.nested hlevel hnext hmap
      refine ⟨(Block.pairOf false level next map).self,
        (Block.pairOf false level next map).neighbors, ?_, ?_, Block.rowCount_pairOf.1,
        Block.rowCount_pairOf.2, fun col => Block.lt_of_mem_col_self hcovers,
        fun col => Block.lt_of_mem_col_neighbors hcovers⟩
      · rw [List.getElem?_map, hpair, Option.map_some]
      · rw [List.getElem?_map, hpair, Option.map_some]
  features := by
    refine ⟨_, _, h.getElem?_deepest, hslots.csr?_nodeFeature, ?_, ?_⟩
    · rw [Block.rowCount_nodeBlock, Nat.min_eq_left h.length_features]
    · intro hwanted
      obtain ⟨rows, hrows⟩ := Option.isSome_iff_exists.1 (h.isSome_neighborFeatures.trans hwanted)
      refine ⟨_, hslots.csr?_neighborFeature hrows, ?_⟩
      rw [Block.rowCount_neighborBlock, Nat.min_eq_left (h.length_neighborFeatures rows hrows)]
  index_eq := by
    intro h' k i level other node hlevel hother hi hmem
    exact h.nested.getElem?_eq hlevel hother hi hmem

/-- A node of the first level has its own rows at its position there. -/
theorem Found.ownRows (h : Found config nodes g found g') (hslots : Holds slots found inst)
    {node : NodeId} {i : Nat} (hi : nodes.eraseDups[i]? = some node) :
    OwnRows slots found inst node i where
  features := by
    have hdeepest : found.sub.deepest[i]? = some node :=
      getElem?_of_isPrefix
        (h.nested.isPrefix_of_le (Nat.zero_le _) h.levels_zero h.getElem?_deepest) hi
    have hlt := (List.getElem?_eq_some_iff.1 hdeepest).1
    have hrow := List.getElem?_eq_getElem (Nat.lt_of_lt_of_le hlt h.length_features)
    refine ⟨_, _, hslots.csr?_nodeFeature, hdeepest, hrow, ?_⟩
    rw [Block.nodeBlock, Block.nodeRows, (Csr.holds_ofRows _).row_eq,
      List.getElem?_zipWith_eq_some.2 ⟨node, _, hdeepest, hrow, rfl⟩]
  hops := by
    refine ⟨_, _, hslots.csrList?_selfBlock, hslots.csrList?_neighborBlock, ?_⟩
    intro hop map hmap
    have hlength := h.nested.length_levels
    have hlt := (List.getElem?_eq_some_iff.1 hmap).1
    obtain ⟨level, hlevel⟩ : ∃ level, found.sub.levels[hop]? = some level :=
      ⟨_, List.getElem?_eq_getElem (by omega)⟩
    obtain ⟨next, hnext⟩ : ∃ next, found.sub.levels[hop + 1]? = some next :=
      ⟨_, List.getElem?_eq_getElem (by omega)⟩
    have hcovers := Block.covers_of_nested h.nested hlevel hnext hmap
    have hpair : found.pairs[hop]? = some (Block.pairOf false level next map) :=
      Block.getElem?_pairsOf hlevel hnext hmap
    -- the first level stands at the front of every level, and so does the node
    have hnode := getElem?_of_isPrefix
      (h.nested.isPrefix_of_le (Nat.zero_le _) h.levels_zero hlevel) hi
    have hmem := List.mem_of_getElem? hnode
    refine ⟨level, next, (Block.pairOf false level next map).self,
      (Block.pairOf false level next map).neighbors, _, _, hlevel, hnext, ?_, ?_, hnode, (Block.row_pairOf hnode).1,
      Block.getElem?_columnOf hcovers.nodup (hcovers.self node hmem), (Block.row_pairOf hnode).2,
      Block.decode_neighborRow hcovers.nodup (hcovers.neighbors node hmem)⟩
    · rw [List.getElem?_map, hpair, Option.map_some]
    · rw [List.getElem?_map, hpair, Option.map_some]

end Found

end Findings

/-! ## Flat indices -/

namespace Assembly

variable {γ σ : Type} [GraphClient γ] [NegativeSampler σ] {a a' : Assembly γ σ}

/-- The slots of a batch that hold flat indices, and the nodes of the batch: in training those of its
rows, in prediction those of its records. -/
inductive FlatSlots (a a' : Assembly γ σ) (flat : FlatIndex) : List NodeId → Prop
  | train {records : List EdgeRecord} {lists : List (List NodeId)} {rows : List Block.EdgeRow}
      {events : List Event} (mode : a.reader.config.isTrain = true)
      (taken : a.reader.input.next EdgeRecord a.reader.config.batch.toNat
        = (.ok (some records), a'.reader.input, events))
      (drawn : NegativeSampler.negatives a.reader.config.numNeg.toNat (records.map EdgeRecord.dst)
        (records.map EdgeRecord.dst) a.sampler = (.ok lists, a'.sampler))
      (indexed : Block.edgeRows (Block.flatIndex flat) (Block.flatIndex flat)
        (records.map EdgeRecord.src) (records.map EdgeRecord.dst) lists = .ok rows)
      (src : a'.inst.indices? a.reader.slots.srcId = some (rows.map Block.EdgeRow.src))
      (dst : a'.inst.indices? a.reader.slots.dstId = some (rows.map Block.EdgeRow.dst)) :
      FlatSlots a a' flat (trainingNodes records lists)
  | predict {records : List NodeRecord} {block : Csr} {events : List Event}
      (mode : a.reader.config.isTrain = false)
      (taken : a.reader.input.next NodeRecord a.reader.config.batch.toNat
        = (.ok (some records), a'.reader.input, events))
      (indexed : Block.lookupBlock flat (records.map NodeRecord.node) = .ok block)
      (src : a'.inst.csr? a.reader.slots.srcId = some block)
      (nodes : a'.inst.nodes? a.reader.slots.predictNode = some (records.map NodeRecord.node)) :
      FlatSlots a a' flat (records.map NodeRecord.node)

/-- A call that gives a batch, whatever the mode: what the graph finds for the users and the items of
its nodes is in the slots. -/
theorem exists_encoders (hslots : a.reader.slots.Distinct) (hfill : Reader.fill a = (.ok true, a')) :
    ∃ nodes users items between,
      users.Found a.reader.config (Partition.ofList a.reader.config.tags nodes).users a.graph between
      ∧ items.Found a.reader.config (Partition.ofList a.reader.config.tags nodes).items between
        a'.graph
      ∧ FlatSlots a a' (flatOf a.reader.config.tags users items) nodes
      ∧ users.Holds a.reader.slots.user a'.inst ∧ items.Holds a.reader.slots.item a'.inst := by
  cases hmode : a.reader.config.isTrain with
  | true =>
    obtain ⟨records, input, events, lists, users, items, rows, hnext, h⟩ :=
      (Reader.fill_train hmode).1 hfill
    obtain ⟨between, husers, hitems⟩ := h.found
    have hslot : ∀ e ∈ trainingEntries a.reader.slots users items rows, a'.inst.get? e.1 = some e.2 :=
      fun e he => h.get?_of_mem hslots he
    obtain rfl : a'.reader.input = input := by rw [h.reader]; rfl
    refine ⟨_, users, items, between, husers, hitems,
      .train hmode hnext h.negatives h.edgeRows ?_ ?_, ?_, ?_⟩
    · exact Instance.indices?_of_get? (hslot (_, _) (by simp [trainingEntries, edgeEntries]))
    · exact Instance.indices?_of_get? (hslot (_, _) (by simp [trainingEntries, edgeEntries]))
    · exact fun e he => hslot e (List.mem_append_left _ (List.mem_append_left _ he))
    · exact fun e he => hslot e (List.mem_append_left _ (List.mem_append_right _ he))
  | false =>
    obtain ⟨records, input, events, users, items, block, hnext, h⟩ :=
      (Reader.fill_predict hmode).1 hfill
    obtain ⟨between, husers, hitems⟩ := h.found
    have hslot : ∀ e ∈ predictionEntries a.reader.slots users items block
        (records.map NodeRecord.node), a'.inst.get? e.1 = some e.2 :=
      fun e he => h.get?_of_mem hslots he
    obtain rfl : a'.reader.input = input := by rw [h.reader]; rfl
    refine ⟨_, users, items, between, husers, hitems,
      .predict hmode hnext h.lookupBlock ?_ ?_, ?_, ?_⟩
    · exact Instance.csr?_of_get? (hslot (_, _) (by simp [predictionEntries, lookupEntries]))
    · exact Instance.nodes?_of_get? (hslot (_, _) (by simp [predictionEntries, lookupEntries]))
    · exact fun e he => hslot e (List.mem_append_left _ (List.mem_append_left _ he))
    · exact fun e he => hslot e (List.mem_append_left _ (List.mem_append_right _ he))

section Flat
variable {config : Config} {nodes : List NodeId} {users items : Findings} {g between g' : γ}

/-- The flat index of a user is its position among the distinct users. -/
theorem getElem?_of_index_user
    (husers : users.Found config (Partition.ofList config.tags nodes).users g between)
    {node : NodeId} {j : Nat} (hindex : (flatOf config.tags users items).index node = .ok j)
    (hgroup : config.tags.groupOf? node = some .user) :
    (Partition.ofList config.tags nodes).users.eraseDups[j]? = some node := by
  obtain ⟨group, i, hgroup', hget, rfl⟩ := FlatIndex.index_eq_ok.1 hindex
  obtain rfl : .user = group := Option.some.inj (hgroup.symm.trans hgroup')
  have hi : users.indexing.nodes[i]? = some node := Indexing.get?_eq_some_iff.1 hget
  rw [husers.nodes_indexing] at hi
  rw [FlatIndex.range, Nat.zero_add, hi]

/-- The flat index of an item is its position among the distinct items, after all users. -/
theorem getElem?_of_index_item
    (husers : users.Found config (Partition.ofList config.tags nodes).users g between)
    (hitems : items.Found config (Partition.ofList config.tags nodes).items between g')
    {node : NodeId} {j : Nat} (hindex : (flatOf config.tags users items).index node = .ok j)
    (hgroup : config.tags.groupOf? node = some .item) :
    (Partition.ofList config.tags nodes).users.eraseDups.length ≤ j
      ∧ (Partition.ofList config.tags nodes).items.eraseDups[
        j - (Partition.ofList config.tags nodes).users.eraseDups.length]? = some node := by
  obtain ⟨group, i, hgroup', hget, rfl⟩ := FlatIndex.index_eq_ok.1 hindex
  obtain rfl : .item = group := Option.some.inj (hgroup.symm.trans hgroup')
  have hi : items.indexing.nodes[i]? = some node := Indexing.get?_eq_some_iff.1 hget
  rw [hitems.nodes_indexing] at hi
  have hsize : (flatOf config.tags users items).users.size
      = (Partition.ofList config.tags nodes).users.eraseDups.length := by
    rw [← husers.nodes_indexing, Indexing.length_nodes]
    rfl
  rw [FlatIndex.range, hsize]
  exact ⟨Nat.le_add_right _ _, by rw [Nat.add_sub_cancel_left, hi]⟩

end Flat

end Assembly

/-! ## All indices of a batch -/

open Assembly

namespace Reader

variable {γ σ : Type} [GraphClient γ] [NegativeSampler σ] {a a' : Assembly γ σ}

/-- In a batch the blocks of each encoder fit the levels that were sampled for it; and each user and each
item of the batch has a flat index that is the number of its own rows in the blocks of its encoder, for
items after the number of users is taken off. -/
theorem fill_aligned (hslots : a.reader.slots.Distinct) (hfill : Reader.fill a = (.ok true, a')) :
    ∃ (nodes : List NodeId) (users items : Findings) (between : γ),
      users.Found a.reader.config (Partition.ofList a.reader.config.tags nodes).users a.graph between
      ∧ items.Found a.reader.config (Partition.ofList a.reader.config.tags nodes).items between
        a'.graph
      ∧ FlatSlots a a' (flatOf a.reader.config.tags users items) nodes
      ∧ users.Fits a.reader.config a.reader.slots.user a'.inst
      ∧ items.Fits a.reader.config a.reader.slots.item a'.inst
      ∧ (∀ (group : Group), ∀ node ∈ (Partition.ofList a.reader.config.tags nodes).nodes group,
        ∃ j, (flatOf a.reader.config.tags users items).index node = .ok j)
      ∧ (∀ (node : NodeId) (j : Nat),
        (flatOf a.reader.config.tags users items).index node = .ok j →
          a.reader.config.tags.groupOf? node = some .user →
            users.OwnRows a.reader.slots.user a'.inst node j)
      ∧ ∀ (node : NodeId) (j : Nat),
        (flatOf a.reader.config.tags users items).index node = .ok j →
          a.reader.config.tags.groupOf? node = some .item → ∃ level,
            users.sub.levels[0]? = some level ∧ level.length ≤ j
              ∧ items.OwnRows a.reader.slots.item a'.inst node (j - level.length) := by
  obtain ⟨nodes, users, items, between, husers, hitems, hflat, hholdsUsers, hholdsItems⟩ :=
    exists_encoders hslots hfill
  refine ⟨nodes, users, items, between, husers, hitems, hflat, husers.fits hholdsUsers,
    hitems.fits hholdsItems, ?_, ?_, ?_⟩
  · intro group node hnode
    exact exists_index_of_mem_nodes husers hitems hnode
  · intro node j hindex hgroup
    exact husers.ownRows hholdsUsers (getElem?_of_index_user husers hindex hgroup)
  · intro node j hindex hgroup
    obtain ⟨hle, hj⟩ := getElem?_of_index_item husers hitems hindex hgroup
    exact ⟨_, husers.levels_zero, hle, hitems.ownRows hholdsItems hj⟩

/-- A reader that samples two hops, before an edge from a user with a neighbor. -/
def twoHops : Assembly Graph UniformSampler where
  reader :=
    { config := { numNeighbors := [2, 1] }
      slots := {}
      input := .ofLines [.ok "1 281474976710657"] }
  graph := Graph.empty.addUndirectedEdge 1 281474976710658 1.0
  sampler := {}
  inst := {}

theorem fill_aligned_twoHops : ∃ (a' : Assembly Graph UniformSampler) (users : Findings)
    (selves neighbors : List Csr),
    Reader.fill twoHops = (.ok true, a') ∧ users.sub.levels.length = 3
      ∧ a'.inst.csrList? "self_blockUSER_ENCODER_NAME" = some selves ∧ selves.length = 2
      ∧ a'.inst.csrList? "neigh_blockUSER_ENCODER_NAME" = some neighbors ∧ neighbors.length = 2 := by
  let edges : List EdgeRecord := [⟨1, 281474976710657⟩]
  have hnext : twoHops.reader.input.next EdgeRecord twoHops.reader.config.batch.toNat
      = (.ok (some edges), ⟨none, 1, 0⟩, [.inputClosed 1 0]) := rfl
  obtain ⟨a', hfill⟩ := exists_fill_train (a := twoHops) rfl (by decide) hnext (by decide)
  obtain ⟨nodes, users, items, between, -, -, -, husers, -⟩ :=
    fill_aligned (a := twoHops) (by decide) hfill
  obtain ⟨selves, neighbors, hself, hneighbors, hselves, hcount, -⟩ := husers.hops
  exact ⟨a', users, selves, neighbors, hfill, husers.length_levels, hself, hselves, hneighbors, hcount⟩

end Reader

end BipartiteBatch
