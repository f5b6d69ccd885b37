import BipartiteBatch.Block.Adjacency
import BipartiteBatch.Graph.Replay
import BipartiteBatch.Proofs.Levels
import BipartiteBatch.Proofs.Results
import BipartiteBatch.Proofs.Rows

/-!
# The blocks of a sampled subgraph

In a nested subgraph every node of a level and every neighbor sampled for it stand in the next level, so
no look-up fails. The blocks are then given row by row: the self row of a node is its own column, and
its neighbor row has the columns of its neighbors in the order of the answer.

* `columnOf` : the column of a node in the next level, `getElem?_columnOf` : the node at a column;
* `selfRow`, `neighborRow`, `pairOf`, `pairsOf` : the rows of a node, and the blocks of one and of all hops;
* `adjacency_eq` : the blocks of a nested subgraph are these;
* `adjacencyLookups` : the look-ups of all hops, `errorOf?_adjacency` : the first one that fails is told;
* `RowDecodes` : the rows of a node read back, `adjacency_decodes` : those of a sampled subgraph.
-/

namespace BipartiteBatch.Block

/-! ## Columns -/

def columnOf (next : List NodeId) (node : NodeId) : UInt64 := UInt64.ofNat (next.idxOf node)

variable {next : List NodeId} {node : NodeId}

theorem toNat_columnOf (hnext : next.Nodup) (h : node ∈ next) :
    (columnOf next node).toNat = next.idxOf node :=
  toNat_ofNat_of_nodup hnext (List.idxOf_lt_length_of_mem h)

theorem columnOf_lt (hnext : next.Nodup) (h : node ∈ next) :
    (columnOf next node).toNat < next.length := by
  rw [toNat_columnOf hnext h]
  exact List.idxOf_lt_length_of_mem h

theorem getElem?_columnOf (hnext : next.Nodup) (h : node ∈ next) :
    next[(columnOf next node).toNat]? = some node := by
  rw [toNat_columnOf hnext h, List.getElem?_idxOf h]

theorem indexAt_eq (number : Nat) (hnext : next.Nodup) (h : node ∈ next) :
    indexAt number (.ofList next) node = .ok (columnOf next node) := by
  have hget : (Indexing.ofList next).get? node = some (next.idxOf node) :=
    (Indexing.get?_ofList_of_nodup hnext).2 (List.getElem?_idxOf h)
  rw [indexAt, hget, columnOf]

/-! ## Rows -/

def selfRow (next : List NodeId) (node : NodeId) : List Entry := [(columnOf next node, 1.0)]

def neighborRow (directed : Bool) (next : List NodeId) (map : NeighborMap) (node : NodeId) :
    List Entry :=
  ((map.neighbors node).map fun n => columnOf next n.node).zip
    (weights directed (map.neighbors node))

variable {map : NeighborMap} {directed : Bool}

@[simp] theorem length_weights (directed : Bool) (neighbors : List Neighbor) :
    (weights directed neighbors).length = neighbors.length := by
  simp [weights]

/-- A neighbor row has one entry for each neighbor. -/
theorem map_fst_neighborRow :
    (neighborRow directed next map node).map Prod.fst
      = (map.neighbors node).map fun n => columnOf next n.node := by
  rw [neighborRow, List.map_fst_zip]
  simp

/-- The columns of a neighbor row are those of the neighbors, in the order of the answer. -/
theorem decode_neighborRow (hnext : next.Nodup)
    (hclosed : ∀ n ∈ map.neighbors node, n.node ∈ next) :
    (neighborRow directed next map node).map (fun e => next[e.1.toNat]?)
      = (map.neighbors node).map fun n => some n.node := by
  have hcolumns : (neighborRow directed next map node).map (fun e => next[e.1.toNat]?)
      = ((neighborRow directed next map node).map Prod.fst).map fun col => next[col.toNat]? := by
    rw [List.map_map]
    rfl
  rw [hcolumns, map_fst_neighborRow, List.map_map]
  apply List.map_congr_left
  intro n hn
  show next[(columnOf next n.node).toNat]? = some n.node
  exact getElem?_columnOf hnext (hclosed n hn)

theorem rowPair_eq (number : Nat) (hnext : next.Nodup) (hself : node ∈ next)
    (hclosed : ∀ n ∈ map.neighbors node, n.node ∈ next) :
    rowPair directed number (.ofList next) map node
      = .ok ⟨selfRow next node, neighborRow directed next map node⟩ := by
  have hcolumns : (map.neighbors node).mapM (fun n => indexAt number (.ofList next) n.node)
      = .ok ((map.neighbors node).map fun n => columnOf next n.node) :=
    mapM_eq_map fun n hn => indexAt_eq number hnext (hclosed n hn)
  unfold rowPair
  rw [indexAt_eq number hnext hself]
  refine except_bind_eq_ok.2 ⟨_, rfl, except_bind_eq_ok.2 ⟨_, hcolumns, rfl⟩⟩

/-! ## Blocks -/

def pairOf (directed : Bool) (level next : List NodeId) (map : NeighborMap) : BlockPair where
  self := .ofRows (level.map (selfRow next))
  neighbors := .ofRows (level.map (neighborRow directed next map))

def pairsOf (directed : Bool) : List (List NodeId) → List NeighborMap → List BlockPair
  | level :: next :: levels, map :: maps =>
    pairOf directed level next map :: pairsOf directed (next :: levels) maps
  | _, _ => []

/-- The next level has no duplicates and holds the level and the neighbors sampled for it. -/
structure Covers (level next : List NodeId) (map : NeighborMap) : Prop where
  nodup : next.Nodup
  self : ∀ node ∈ level, node ∈ next
  neighbors : ∀ node ∈ level, ∀ n ∈ map.neighbors node, n.node ∈ next

theorem blockPair_eq (number : Nat) {level : List NodeId} (h : Covers level next map) :
    blockPair directed number (.ofList next) map level = .ok (pairOf directed level next map) := by
  have hrows : level.mapM (rowPair directed number (.ofList next) map)
      = .ok (level.map fun node => ⟨selfRow next node, neighborRow directed next map node⟩) :=
    mapM_eq_map fun node hnode =>
      rowPair_eq number h.nodup (h.self node hnode) (h.neighbors node hnode)
  unfold blockPair
  refine except_bind_eq_ok.2 ⟨_, hrows, except_pure_eq_ok.2 ?_⟩
  rw [List.map_map, List.map_map]
  rfl

theorem blockPairs_eq (number : Nat) (levels : List (List NodeId)) (maps : List NeighborMap)
    (hlength : levels.length = maps.length + 1)
    (h : ∀ (hop : Nat) (level next : List NodeId) (map : NeighborMap), levels[hop]? = some level →
      levels[hop + 1]? = some next → maps[hop]? = some map → Covers level next map) :
    blockPairs directed number levels maps (Indexing.ofLevels levels).tail
      = .ok (pairsOf directed levels maps) := by
  induction maps generalizing number levels with
  | nil =>
    match levels with
    | [level] => rfl
  | cons map maps ih =>
    match levels with
    | level :: next :: levels =>
      have hfirst : blockPair directed number (.ofList next) map level
          = .ok (pairOf directed level next map) :=
        blockPair_eq number (h 0 level next map rfl rfl rfl)
      have hrest := ih (number + 1) (next :: levels) (by simpa using hlength)
        fun hop level next map hlevel hnext hmap => h (hop + 1) level next map hlevel hnext hmap
      show blockPairs directed number (level :: next :: levels) (map :: maps)
        (Indexing.ofList next :: (Indexing.ofLevels (next :: levels)).tail) = _
      exact except_bind_eq_ok.2 ⟨_, hfirst, except_bind_eq_ok.2 ⟨_, hrest, rfl⟩⟩

section Pair
variable {level : List NodeId}

theorem rowCount_pairOf :
    (pairOf directed level next map).self.rowCount = level.length
      ∧ (pairOf directed level next map).neighbors.rowCount = level.length := by
  constructor
  · rw [pairOf, (Csr.holds_ofRows _).rowCount_eq, List.length_map]
  · rw [pairOf, (Csr.holds_ofRows _).rowCount_eq, List.length_map]

theorem lt_of_mem_col_self (h : Covers level next map) {col : UInt64}
    (hcol : col ∈ (pairOf directed level next map).self.col) : col.toNat < next.length := by
  obtain ⟨row, hrow, hcol⟩ := Csr.exists_row_of_mem_col hcol
  obtain ⟨node, hnode, rfl⟩ := List.mem_map.1 hrow
  obtain rfl : col = columnOf next node := List.mem_singleton.1 hcol
  exact columnOf_lt h.nodup (h.self node hnode)

theorem lt_of_mem_col_neighbors (h : Covers level next map) {col : UInt64}
    (hcol : col ∈ (pairOf directed level next map).neighbors.col) : col.toNat < next.length := by
  obtain ⟨row, hrow, hcol⟩ := Csr.exists_row_of_mem_col hcol
  obtain ⟨node, hnode, rfl⟩ := List.mem_map.1 hrow
  rw [map_fst_neighborRow] at hcol
  obtain ⟨n, hn, rfl⟩ := List.mem_map.1 hcol
  exact columnOf_lt h.nodup (h.neighbors node hnode n hn)

/-- The rows of the node at a position of the level stand at that position. -/
theorem row_pairOf {i : Nat} (hi : level[i]? = some node) :
    (pairOf directed level next map).self.row i = .ok (some (selfRow next node))
      ∧ (pairOf directed level next map).neighbors.row i
        = .ok (some (neighborRow directed next map node)) := by
  constructor
  · rw [pairOf, (Csr.holds_ofRows _).row_eq, List.getElem?_map, hi, Option.map_some]
  · rw [pairOf, (Csr.holds_ofRows _).row_eq, List.getElem?_map, hi, Option.map_some]

end Pair

theorem covers_of_nested {sub : Subgraph} (hsub : sub.Nested) {hop : Nat}
    {level next : List NodeId} (hlevel : sub.levels[hop]? = some level)
    (hnext : sub.levels[hop + 1]? = some next) (hmap : sub.maps[hop]? = some map) :
    Covers level next map where
  nodup := hsub.nodup next (List.mem_of_getElem? hnext)
  self := fun _ hnode => (hsub.isPrefix hlevel hnext).subset hnode
  neighbors := hsub.closed hlevel hnext hmap

/-- The blocks of a nested subgraph can be built, and their rows are the rows of the nodes. -/
theorem adjacency_eq {sub : Subgraph} (hsub : sub.Nested) :
    adjacency directed sub (Indexing.ofLevels sub.levels)
      = .ok (pairsOf directed sub.levels sub.maps) := by
  have hlength : (Indexing.ofLevels sub.levels).length = sub.levels.length := List.length_map _
  rw [adjacency, if_pos ⟨hlength, hsub.length_levels.symm⟩]
  exact blockPairs_eq 1 sub.levels sub.maps hsub.length_levels
    fun _ _ _ _ => covers_of_nested hsub

theorem getElem?_pairsOf {levels : List (List NodeId)} {maps : List NeighborMap} {hop : Nat}
    {level next : List NodeId} (hlevel : levels[hop]? = some level)
    (hnext : levels[hop + 1]? = some next) (hmap : maps[hop]? = some map) :
    (pairsOf directed levels maps)[hop]? = some (pairOf directed level next map) := by
  induction maps generalizing levels hop with
  | nil => cases hmap
  | cons first maps ih =>
    match levels with
    | [_] => cases hop <;> cases hnext
    | first' :: second :: levels =>
      cases hop with
      | zero =>
        obtain rfl := Option.some.inj hlevel
        obtain rfl := Option.some.inj hnext
        obtain rfl := Option.some.inj hmap
        rfl
      | succ hop =>
        show (pairsOf directed (second :: levels) maps)[hop]? = _
        exact ih hlevel hnext hmap

theorem length_pairsOf {levels : List (List NodeId)} {maps : List NeighborMap}
    (h : levels.length = maps.length + 1) : (pairsOf directed levels maps).length = maps.length := by
  induction maps generalizing levels with
  | nil =>
    match levels with
    | [_] => rfl
  | cons map maps ih =>
    match levels with
    | level :: next :: levels =>
      rw [pairsOf, List.length_cons, ih (by simpa using h), List.length_cons]

/-! ## Blocks that cannot be built -/

/-- The look-ups of a hop in their order: a node, and after it its neighbors. -/
def hopLookups (number : Nat) (next : Indexing) (map : NeighborMap) (level : List NodeId) :
    List (Except BatchError UInt64) :=
  level.flatMap fun node =>
    (node :: (map.neighbors node).map Neighbor.node).map (indexAt number next)

/-- The look-ups of the hops to the levels with the numbers `number`, `number + 1`, and so on. -/
def adjacencyLookups (number : Nat) :
    List (List NodeId) → List NeighborMap → List Indexing → List (Except BatchError UInt64)
  | level :: levels, map :: maps, next :: nexts =>
    hopLookups number next map level ++ adjacencyLookups (number + 1) levels maps nexts
  | _, _, _ => []

section Failures
variable {number : Nat} {next : Indexing} {level : List NodeId}

theorem errorOf?_rowPair :
    errorOf? (rowPair directed number next map node)
      = ((node :: (map.neighbors node).map Neighbor.node).map (indexAt number next)).findSome?
        errorOf? := by
  unfold rowPair
  rw [errorOf?_both, errorOf?_mapM, List.map_cons, List.findSome?_cons, List.map_map, List.findSome?_map]
  cases errorOf? (indexAt number next node) with
  | none => rfl
  | some e => rfl

theorem errorOf?_blockPair :
    errorOf? (blockPair directed number next map level)
      = (hopLookups number next map level).findSome? errorOf? := by
  unfold blockPair
  rw [errorOf?_bind_pure, errorOf?_mapM, hopLookups]
  induction level with
  | nil => rfl
  | cons node level ih =>
    rw [List.flatMap_cons, List.findSome?_append, ← ih, List.findSome?_cons, ← errorOf?_rowPair]
    cases errorOf? (rowPair directed number next map node) with
    | none => rfl
    | some e => rfl

/-- The blocks cannot be built if a node or a neighbor is not in the next level, and the first one is told. -/
theorem errorOf?_blockPairs {levels : List (List NodeId)} {maps : List NeighborMap}
    {nexts : List Indexing} :
    errorOf? (blockPairs directed number levels maps nexts)
      = (adjacencyLookups number levels maps nexts).findSome? errorOf? := by
  induction levels generalizing number maps nexts with
  | nil => rfl
  | cons level levels ih =>
    match maps, nexts with
    | [], _ => rfl
    | _ :: _, [] => rfl
    | map :: maps, next :: nexts =>
      rw [blockPairs, adjacencyLookups, List.findSome?_append, errorOf?_both, errorOf?_blockPair, ih]

theorem errorOf?_adjacency (directed : Bool) (sub : Subgraph) (indexings : List Indexing) :
    errorOf? (adjacency directed sub indexings)
      = if indexings.length = sub.levels.length ∧ sub.maps.length + 1 = sub.levels.length then
          (adjacencyLookups 1 sub.levels sub.maps indexings.tail).findSome? errorOf?
        else some (.graph (.depth sub.levels.length sub.maps.length indexings.length)) := by
  unfold adjacency
  split
  · exact errorOf?_blockPairs
  · rfl

end Failures

/-! ## Blocks read back -/

/-- In the next level a node of a level has its own row as its column. -/
theorem toNat_columnOf_of_isPrefix {level : List NodeId} (hnext : next.Nodup)
    (hbegins : level <+: next) {i : Nat} (hi : level[i]? = some node) :
    (columnOf next node).toNat = i := by
  obtain ⟨hlt, rfl⟩ := List.getElem?_eq_some_iff.1 (getElem?_of_isPrefix hbegins hi)
  rw [toNat_columnOf hnext (List.getElem_mem hlt), hnext.idxOf_getElem]

/-- Row `i` of the two blocks of a hop, read back as node `i` of the level: the self row is the entry of
column `i`, and the neighbor row has one entry for each neighbor that was sampled for the node, in their
order, at whose column in the next level stands that neighbor. -/
structure RowDecodes (next : List NodeId) (map : NeighborMap) (pair : BlockPair) (i : Nat)
    (node : NodeId) : Prop where
  self : ∃ col, pair.self.row i = .ok (some [(col, 1.0)]) ∧ col.toNat = i
  neighbors : ∃ sampled row, map[node]? = some sampled ∧ pair.neighbors.row i = .ok (some row)
    ∧ row.length = sampled.length
    ∧ row.map (fun e => next[e.1.toNat]?) = sampled.map fun n => some n.node

theorem length_neighborRow :
    (neighborRow directed next map node).length = (map.neighbors node).length := by
  rw [← List.length_map Prod.fst, map_fst_neighborRow, List.length_map]

theorem rowDecodes_pairOf {level : List NodeId} (h : Covers level next map)
    (hbegins : level <+: next) {i : Nat} (hi : level[i]? = some node) (hmap : node ∈ map) :
    RowDecodes next map (pairOf directed level next map) i node where
  self := ⟨_, (row_pairOf hi).1, toNat_columnOf_of_isPrefix h.nodup hbegins hi⟩
  neighbors := by
    have hsampled : map[node]? = some (map.neighbors node) := by
      rw [NeighborMap.neighbors, Std.HashMap.getElem?_eq_some_getElem hmap, Option.getD_some]
    exact ⟨_, _, hsampled, (row_pairOf hi).2, length_neighborRow,
      decode_neighborRow h.nodup (h.neighbors node (List.mem_of_getElem? hi))⟩

/-- Whatever a client answers, the blocks of a sampled subgraph can be built for either kind of weights,
and each of their rows reads back as its node with the neighbors that were sampled for it. They are
found in the two slots that they are written to. -/
theorem adjacency_decodes {γ : Type} [GraphClient γ] {seeds : List NodeId} {fanout : List Nat}
    {g g' : γ} {sub : Subgraph} (hsub : Subgraph.sample seeds fanout g = (.ok sub, g'))
    (directed : Bool) :
    ∃ pairs, adjacency directed sub (Indexing.ofLevels sub.levels) = .ok pairs
      ∧ pairs.length = fanout.length
      ∧ (∀ hop < fanout.length, ∃ level next map pair, sub.levels[hop]? = some level
        ∧ sub.levels[hop + 1]? = some next ∧ sub.maps[hop]? = some map ∧ pairs[hop]? = some pair
        ∧ pair.self.rowCount = level.length ∧ pair.neighbors.rowCount = level.length
        ∧ ∀ (i : Nat) (node : NodeId), level[i]? = some node → RowDecodes next map pair i node)
      ∧ ∀ (selfSlot neighborSlot : String) (inst : Instance), selfSlot ≠ neighborSlot →
        (writeAdjacency selfSlot neighborSlot pairs inst).csrList? selfSlot
          = some (pairs.map BlockPair.self)
        ∧ (writeAdjacency selfSlot neighborSlot pairs inst).csrList? neighborSlot
          = some (pairs.map BlockPair.neighbors) := by
  have hnested := Subgraph.Nested.of_sample hsub
  have hmaps : sub.maps.length = fanout.length := by
    obtain ⟨answers, ha, rfl⟩ := Subgraph.sample_eq_ok.1 hsub
    rw [Subgraph.length_mapsOf, ha.length_answers]
  refine ⟨_, adjacency_eq hnested, ?_, ?_, ?_⟩
  · rw [length_pairsOf hnested.length_levels, hmaps]
  · intro hop hhop
    have hlength := hnested.length_levels
    have hlevel : sub.levels[hop]? = some sub.levels[hop] := List.getElem?_eq_getElem (by omega)
    have hnext : sub.levels[hop + 1]? = some sub.levels[hop + 1] :=
      List.getElem?_eq_getElem (by omega)
    have hmap : sub.maps[hop]? = some sub.maps[hop] := List.getElem?_eq_getElem (by omega)
    -- levels that nest cover each other: the next one has every node that a row refers to
    have hcovers := covers_of_nested hnested hlevel hnext hmap
    refine ⟨_, _, _, _, hlevel, hnext, hmap, getElem?_pairsOf hlevel hnext hmap, rowCount_pairOf.1,
      rowCount_pairOf.2, ?_⟩
    intro i node hi
    exact rowDecodes_pairOf hcovers (hnested.isPrefix hlevel hnext) hi
      ((Subgraph.mem_map_of_sample hsub hlevel hmap).2 (List.mem_of_getElem? hi))
  · intro selfSlot neighborSlot inst hslots
    rw [writeAdjacency_eq]
    unfold Instance.csrList?
    simp only [Instance.get?_insert, if_neg hslots.symm, if_true]
    exact ⟨rfl, rfl⟩

/-- A client whose one answer has a neighbor twice, a seed as a neighbor, and a node without any. -/
def repeatedNeighbors : ReplayedGraph where
  neighbors := [.ok [[⟨10, 1.0⟩, ⟨2, 2.0⟩, ⟨10, 3.0⟩], []]]

theorem adjacency_decodes_repeatedNeighbors : ∃ (sub : Subgraph) (g' : ReplayedGraph)
    (pairs : List BlockPair) (pair : BlockPair) (next : List NodeId) (row last : List Entry),
    Subgraph.sample [1, 2, 1] [3] repeatedNeighbors = (.ok sub, g')
      ∧ adjacency true sub (Indexing.ofLevels sub.levels) = .ok pairs ∧ pairs.length = 1
      ∧ pairs[0]? = some pair ∧ next = [1, 2, 10] ∧ pair.neighbors.row 0 = .ok (some row)
      ∧ row.map (fun e => next[e.1.toNat]?) = [some 10, some 2, some 10]
      ∧ pair.neighbors.row 1 = .ok (some last) ∧ last = [] := by
  let lists : List (List Neighbor) := [[⟨10, 1.0⟩, ⟨2, 2.0⟩, ⟨10, 3.0⟩], []]
  have hsample : Subgraph.sample [1, 2, 1] [3] repeatedNeighbors
      = (.ok ⟨Subgraph.levelsOf [1, 2] [lists], Subgraph.mapsOf [1, 2] [lists]⟩, {}) :=
    Subgraph.sample_eq_ok.2 ⟨[lists], .hop rfl rfl (.done _ _), rfl⟩
  obtain ⟨pairs, hpairs, hlength, hhops, -⟩ := adjacency_decodes hsample true
  obtain ⟨level, next, map, pair, hlevel, hnext, hmap, hpair, -, -, hrows⟩ := hhops 0 (by decide)
  obtain rfl : [1, 2] = level := Option.some.inj hlevel
  obtain rfl : [1, 2, 10] = next := Option.some.inj hnext
  obtain rfl : NeighborMap.ofLists [1, 2] lists = map := Option.some.inj hmap
  have hsampled : ∀ (i : Nat) (node : NodeId), [1, 2][i]? = some node →
      (NeighborMap.ofLists [1, 2] lists)[node]? = lists[i]? :=
    fun i node => NeighborMap.getElem?_ofLists (by decide) rfl
  obtain ⟨sampled, row, hlist, hrow, -, hdecode⟩ := (hrows 0 1 rfl).neighbors
  obtain ⟨sampled', row', hlist', hrow', hlength', -⟩ := (hrows 1 2 rfl).neighbors
  obtain rfl := Option.some.inj ((hsampled 0 1 rfl).symm.trans hlist)
  obtain rfl := Option.some.inj ((hsampled 1 2 rfl).symm.trans hlist')
  exact ⟨_, _, pairs, pair, _, row, row', hsample, hpairs, hlength, hpair, rfl, hrow, hdecode, hrow',
    List.eq_nil_of_length_eq_zero hlength'⟩

end BipartiteBatch.Block
