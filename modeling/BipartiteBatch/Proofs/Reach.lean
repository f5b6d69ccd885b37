import BipartiteBatch.Proofs.Answers
import BipartiteBatch.Proofs.NeighborSamples

/-!
# Subgraphs of a stored graph

A walk goes along stored edges, one after the other. The nodes that walks of at most so many edges lead to
are a ball around the seeds, and each ball holds the one before it and the far ends of its edges. A level
of a sampled subgraph lies in the ball of its number; if no node has more edges than were asked for, the
level is the ball.

* `Graph.HasEdge`, `Graph.Walk`, `Graph.ball` : edges, walks and balls, `Graph.mem_ball_succ` : the next ball;
* `SampledFrom.subset` : a sample has stored neighbors only;
* `Subgraph.Answered.sampled` : what a graph answers at each hop, `Subgraph.Answered.eq_of_wide` : without
  a draw;
* `Subgraph.mem_nextLevel_of_sampled`, `Subgraph.mem_nextLevel_of_all` : one hop;
* `Subgraph.mem_ball_of_level`, `Subgraph.mem_level_iff_ball` : all hops;
* `Subgraph.sample_balls` : the subgraph around any seeds in any graph.
-/

namespace BipartiteBatch

/-! ## Balls -/

namespace Graph

def HasEdge (g : Graph) (a b : NodeId) : Prop := ∃ n ∈ g.neighbors a, n.node = b

/-- A walk of so many stored edges from one node to another. -/
inductive Walk (g : Graph) : Nat → NodeId → NodeId → Prop
  | start (a : NodeId) : Walk g 0 a a
  | step {count : Nat} {a b c : NodeId} (walk : Walk g count a b) (edge : g.HasEdge b c) :
      Walk g (count + 1) a c

/-- The nodes that a walk of at most `radius` stored edges from a seed leads to. -/
def ball (g : Graph) (seeds : List NodeId) (radius : Nat) : Set NodeId :=
  {node | ∃ seed ∈ seeds, ∃ count ≤ radius, g.Walk count seed node}

variable {g : Graph} {seeds : List NodeId} {node : NodeId}

theorem mem_ball_zero : node ∈ g.ball seeds 0 ↔ node ∈ seeds := by
  constructor
  · rintro ⟨seed, hseed, count, hcount, walk⟩
    obtain rfl := Nat.le_zero.1 hcount
    cases walk
    exact hseed
  · intro h
    exact ⟨node, h, 0, Nat.le_refl 0, .start node⟩

theorem mem_ball_succ {radius : Nat} :
    node ∈ g.ball seeds (radius + 1)
      ↔ node ∈ g.ball seeds radius ∨ ∃ a ∈ g.ball seeds radius, g.HasEdge a node := by
  constructor
  · rintro ⟨seed, hseed, count, hcount, walk⟩
    cases walk with
    | start => exact .inl ⟨node, hseed, 0, Nat.zero_le _, .start node⟩
    | step walk edge => exact .inr ⟨_, ⟨seed, hseed, _, Nat.le_of_succ_le_succ hcount, walk⟩, edge⟩
  · rintro (⟨seed, hseed, count, hcount, walk⟩ | ⟨a, ⟨seed, hseed, count, hcount, walk⟩, edge⟩)
    · exact ⟨seed, hseed, count, Nat.le_succ_of_le hcount, walk⟩
    · exact ⟨seed, hseed, count + 1, Nat.succ_le_succ hcount, walk.step edge⟩

/-! ## Answers -/

theorem sampleNeighbors_of_le {nodes : List NodeId} {count : Nat}
    (h : ∀ node ∈ nodes, (g.neighbors node).length ≤ count) :
    GraphClient.sampleNeighbors nodes count g = (.ok (nodes.map g.neighbors), g) := by
  have hstill : Draw.mapDraws (g.sample count) nodes g.stream = (nodes.map g.neighbors, g.stream) :=
    Draw.mapDraws_of_still fun node hnode => sample_of_le (h node hnode) g.stream
  rw [sampleNeighbors_eq, hstill]

theorem forall₂_sampledFrom (nodes : List NodeId) (count : Nat) (s : Draw.Keystream) :
    List.Forall₂ (fun node list => SampledFrom (g.neighbors node) count list) nodes
      (Draw.mapDraws (g.sample count) nodes s).1 := by
  refine Draw.forall₂_mapDraws (fun node _ s => ?_) s
  exact sampledFrom_sample s

end Graph

theorem SampledFrom.subset {stored list : List Neighbor} {count : Nat}
    (h : SampledFrom stored count list) : list ⊆ stored := by
  intro n hn
  rcases Nat.lt_or_ge count stored.length with hlt | hle
  · obtain ⟨positions, -, hlist⟩ := h.drawn hlt
    have hsome : some n ∈ list.map some := List.mem_map_of_mem hn
    rw [hlist] at hsome
    obtain ⟨p, -, hp⟩ := List.mem_map.1 hsome
    exact List.mem_of_getElem? hp
  · rwa [h.all hle] at hn

/-- Samples of at least as many neighbors as there are hold them all. -/
theorem eq_map_of_sampled {g : Graph} {count : Nat} {nodes : List NodeId} {lists : List (List Neighbor)}
    (h : List.Forall₂ (fun node list => SampledFrom (g.neighbors node) count list) nodes lists)
    (hwide : ∀ node, (g.neighbors node).length ≤ count) : lists = nodes.map g.neighbors := by
  induction h with
  | nil => rfl
  | cons hlist _ ih => rw [List.map_cons, ih, hlist.all (hwide _)]

namespace Subgraph

variable {g g' : Graph} {level next seeds : List NodeId} {fanout : List Nat} {count h : Nat}
  {answers : List (List (List Neighbor))} {lists : List (List Neighbor)} {node : NodeId}

theorem Answered.sampled (ha : Answered g level fanout answers g') {l : List NodeId}
    (hlists : answers[h]? = some lists) (hl : (levelsOf level answers)[h]? = some l) :
    ∃ count ∈ fanout,
      List.Forall₂ (fun node list => SampledFrom (g.neighbors node) count list) l lists := by
  induction ha generalizing h with
  | done => cases hlists
  | @hop g g₁ _ level count fanout first answers asked complete rest ih =>
    rw [Graph.sampleNeighbors_eq] at asked
    obtain ⟨hfirst, rfl⟩ := Prod.mk.inj asked
    obtain rfl := Except.ok.inj hfirst
    cases h with
    | zero =>
      obtain rfl := Option.some.inj hl
      obtain rfl := Option.some.inj hlists
      exact ⟨count, List.mem_cons_self, Graph.forall₂_sampledFrom level count g.stream⟩
    | succ h =>
      -- the graph after a question has the same edges
      obtain ⟨later, hlater, hsampled⟩ := ih hlists hl
      exact ⟨later, List.mem_cons_of_mem _ hlater, hsampled⟩

/-- A graph that is asked for at least as many neighbors as any node has is left as it is. -/
theorem Answered.eq_of_wide (ha : Answered g level fanout answers g')
    (hwide : ∀ count ∈ fanout, ∀ node, (g.neighbors node).length ≤ count) : g' = g := by
  induction ha with
  | done => rfl
  | @hop g g₁ _ level count fanout lists answers asked complete rest ih =>
    have hnodes := hwide count List.mem_cons_self
    rw [Graph.sampleNeighbors_of_le fun node _ => hnodes node] at asked
    obtain ⟨-, rfl⟩ := Prod.mk.inj asked
    exact ih fun later hlater => hwide later (List.mem_cons_of_mem _ hlater)

/-! ## One hop -/

theorem mem_nextLevel_of_sampled
    (hsampled : List.Forall₂ (fun node list => SampledFrom (g.neighbors node) count list) level lists)
    (hnode : node ∈ nextLevel level lists) : node ∈ level ∨ ∃ a ∈ level, g.HasEdge a node := by
  refine (mem_nextLevel_iff.1 hnode).imp_right ?_
  rintro ⟨list, hlist, n, hn, rfl⟩
  obtain ⟨a, ha, hstored⟩ := exists_mem_of_forall₂ hsampled hlist
  exact ⟨a, ha, n, hstored.subset hn, rfl⟩

/-- The next level has all of these if each node has given all of its neighbors. -/
theorem mem_nextLevel_of_all :
    node ∈ nextLevel level (level.map g.neighbors) ↔ node ∈ level ∨ ∃ a ∈ level, g.HasEdge a node := by
  rw [mem_nextLevel_iff]
  simp only [List.mem_map, exists_exists_and_eq_and, Graph.HasEdge]

theorem Answered.exists_hop (ha : Answered g level fanout answers g')
    (hnext : (levelsOf level answers)[h + 1]? = some next) :
    ∃ l lists count, (levelsOf level answers)[h]? = some l ∧ answers[h]? = some lists
      ∧ next = nextLevel l lists ∧ count ∈ fanout
      ∧ List.Forall₂ (fun node list => SampledFrom (g.neighbors node) count list) l lists := by
  obtain ⟨lists, hlists⟩ := exists_answer_of_level hnext
  have hlt := Nat.lt_of_succ_lt (List.getElem?_eq_some_iff.1 hnext).1
  have hl := List.getElem?_eq_getElem hlt
  obtain ⟨count, hcount, hsampled⟩ := ha.sampled hlists hl
  have hstep := Option.some.inj (hnext.symm.trans (levelsOf_step hl hlists).1)
  exact ⟨_, lists, count, hl, hlists, hstep, hcount, hsampled⟩

/-! ## All hops -/

/-- A level lies in the ball of its number. -/
theorem mem_ball_of_level (ha : Answered g seeds.eraseDups fanout answers g')
    (hlevel : (levelsOf seeds.eraseDups answers)[h]? = some level) (hnode : node ∈ level) :
    node ∈ g.ball seeds h := by
  induction h generalizing level node with
  | zero =>
    obtain rfl := Option.some.inj ((levelsOf_head? _ _).symm.trans hlevel)
    exact Graph.mem_ball_zero.2 (List.mem_eraseDups.1 hnode)
  | succ h ih =>
    obtain ⟨l, lists, count, hl, -, rfl, -, hsampled⟩ := ha.exists_hop hlevel
    rw [Graph.mem_ball_succ]
    rcases mem_nextLevel_of_sampled hsampled hnode with hnode | ⟨a, ha, edge⟩
    · exact .inl (ih hl hnode)
    · exact .inr ⟨a, ih hl ha, edge⟩

/-- If all neighbors were asked for, a level is the ball of its number. -/
theorem mem_level_iff_ball (ha : Answered g seeds.eraseDups fanout answers g')
    (hwide : ∀ count ∈ fanout, ∀ node, (g.neighbors node).length ≤ count)
    (hlevel : (levelsOf seeds.eraseDups answers)[h]? = some level) :
    node ∈ level ↔ node ∈ g.ball seeds h := by
  induction h generalizing level node with
  | zero =>
    obtain rfl := Option.some.inj ((levelsOf_head? _ _).symm.trans hlevel)
    rw [Graph.mem_ball_zero, List.mem_eraseDups]
  | succ h ih =>
    obtain ⟨l, lists, count, hl, -, rfl, hcount, hsampled⟩ := ha.exists_hop hlevel
    obtain rfl := eq_map_of_sampled hsampled (hwide count hcount)
    simp only [mem_nextLevel_of_all, Graph.mem_ball_succ, ih hl]

/-- Around any seeds and for any numbers of neighbors a graph gives a subgraph, whatever its random stream.
Each level lies in the ball of its number around the seeds, and each node that is new in a level is the far
end of a stored edge of a node of the level before it. If no node has more edges than neighbors are asked
for at each hop, each level is its ball, each map has all stored neighbors of the nodes of its level, and
the graph with its random stream is left as it is. -/
theorem sample_balls (g : Graph) (seeds : List NodeId) (fanout : List Nat) :
    ∃ sub g', sample seeds fanout g = (.ok sub, g')
      ∧ sub.levels.length = fanout.length + 1 ∧ sub.maps.length = fanout.length
      ∧ (∀ (h : Nat) (level : List NodeId), sub.levels[h]? = some level →
        ∀ node ∈ level, node ∈ g.ball seeds h)
      ∧ (∀ (h : Nat) (level next : List NodeId), sub.levels[h]? = some level →
        sub.levels[h + 1]? = some next → ∀ node ∈ next, node ∉ level → ∃ a ∈ level, g.HasEdge a node)
      ∧ ((∀ count ∈ fanout, ∀ node, (g.neighbors node).length ≤ count) →
        (∀ (h : Nat) (level : List NodeId), sub.levels[h]? = some level →
          ∀ node, node ∈ level ↔ node ∈ g.ball seeds h)
        ∧ (∀ (h : Nat) (level : List NodeId) (map : NeighborMap), sub.levels[h]? = some level →
          sub.maps[h]? = some map → ∀ node ∈ level, map[node]? = some (g.neighbors node))
        ∧ g' = g) := by
  obtain ⟨answers, g', ha⟩ := exists_answered seeds.eraseDups fanout g
  have hsample := sample_eq_ok.2 ⟨answers, ha, rfl⟩
  have hnested := Nested.of_sample hsample
  have hlength := ha.length_answers
  refine ⟨_, g', hsample, ?_, ?_, ?_, ?_, fun hwide => ⟨?_, ?_, ?_⟩⟩
  · rw [length_levelsOf, hlength]
  · rw [length_mapsOf, hlength]
  · exact fun h level hlevel node => mem_ball_of_level ha hlevel
  · intro h level next hlevel hnext node hnode hnew
    obtain ⟨l, lists, count, hl, -, rfl, -, hsampled⟩ := ha.exists_hop hnext
    obtain rfl := Option.some.inj (hlevel.symm.trans hl)
    exact (mem_nextLevel_of_sampled hsampled hnode).resolve_left hnew
  · exact fun h level hlevel node => mem_level_iff_ball ha hwide hlevel
  · intro h level map hlevel hmap node hnode
    -- the answer for the level lists all stored neighbors of each of its nodes
    have hlt : h < answers.length := by
      rw [← length_mapsOf seeds.eraseDups]
      exact (List.getElem?_eq_some_iff.1 hmap).1
    have hlists := List.getElem?_eq_getElem hlt
    obtain ⟨count, hcount, hsampled⟩ := ha.sampled hlists hlevel
    obtain rfl := Option.some.inj (hmap.symm.trans (levelsOf_step hlevel hlists).2)
    rw [eq_map_of_sampled hsampled (hwide count hcount)]
    obtain ⟨i, hi⟩ := List.mem_iff_getElem?.1 hnode
    have hnodup := hnested.nodup level (List.mem_of_getElem? hlevel)
    rw [NeighborMap.getElem?_ofLists hnodup (List.length_map _) hi, List.getElem?_map, hi, Option.map_some]
  · exact ha.eq_of_wide hwide

/-- Two parallel edges, a loop, and an edge that leads back. -/
def loopAndBack : Graph := .ofAdditions
  [.oneWay 1 2 1.0, .oneWay 1 2 2.0, .oneWay 2 2 1.0, .bothWays 2 3 1.0, .oneWay 3 4 1.0]

theorem sample_balls_loopAndBack : (∀ node, (loopAndBack.neighbors node).length ≤ 2)
    ∧ ∃ sub level map, sample [1, 1] [2, 2] loopAndBack = (.ok sub, loopAndBack)
      ∧ sub.levels[2]? = some level ∧ 3 ∈ level ∧ 4 ∉ level
      ∧ sub.maps[1]? = some map ∧ map[(2 : NodeId)]? = some [⟨2, 1.0⟩, ⟨3, 1.0⟩] := by
  have hneighbors : ∀ node, loopAndBack.neighbors node
      = if node = 1 then [⟨2, 1.0⟩, ⟨2, 2.0⟩] else if node = 2 then [⟨2, 1.0⟩, ⟨3, 1.0⟩]
        else if node = 3 then [⟨2, 1.0⟩, ⟨4, 1.0⟩] else [] := by
    intro node
    rw [loopAndBack, Graph.neighbors_ofAdditions]
    split_ifs with h1 h2 h3
    · subst h1; rfl
    · subst h2; rfl
    · subst h3; rfl
    · simp [Graph.storedBy, EdgeAddition.edges, Ne.symm h1, Ne.symm h2, Ne.symm h3]
  have hwide : ∀ node, (loopAndBack.neighbors node).length ≤ 2 := by
    intro node
    rw [hneighbors]
    split_ifs <;> decide
  have hedge : ∀ a b, loopAndBack.HasEdge a b
      ↔ (a = 1 ∧ b = 2) ∨ (a = 2 ∧ (b = 2 ∨ b = 3)) ∨ (a = 3 ∧ (b = 2 ∨ b = 4)) := by
    intro a b
    rw [Graph.HasEdge, hneighbors]
    split_ifs with h1 h2 h3 <;> simp [*, eq_comm]
  have hball : ∀ node, node ∈ loopAndBack.ball [1, 1] 2 ↔ node = 1 ∨ node = 2 ∨ node = 3 := by
    intro node
    simp only [Graph.mem_ball_succ, Graph.mem_ball_zero, hedge, List.mem_cons, List.not_mem_nil, or_self,
      or_false]
    aesop
  obtain ⟨sub, g', hsample, hlevels, hmaps, -, -, hall⟩ := sample_balls loopAndBack [1, 1] [2, 2]
  obtain ⟨hballs, hstored, rfl⟩ := hall fun count hcount node => by
    obtain rfl : count = 2 := by simpa using hcount
    exact hwide node
  have hexists : ∀ h ≤ 2, ∃ level, sub.levels[h]? = some level :=
    fun h hle => ⟨_, List.getElem?_eq_getElem (hlevels ▸ Nat.lt_succ_of_le hle)⟩
  obtain ⟨before, hbefore⟩ := hexists 1 (by decide)
  obtain ⟨level, hlevel⟩ := hexists 2 (by decide)
  have hmap := List.getElem?_eq_getElem (hmaps ▸ (by decide : 1 < [2, 2].length))
  have hnode : 2 ∈ before := by
    rw [hballs 1 before hbefore, Graph.mem_ball_succ]
    exact .inr ⟨1, Graph.mem_ball_zero.2 (by decide), (hedge 1 2).2 (by decide)⟩
  refine ⟨hwide, sub, level, _, hsample, hlevel, ?_, ?_, hmap, ?_⟩
  · exact (hballs 2 level hlevel 3).2 ((hball 3).2 (by decide))
  · exact fun h => absurd ((hball 4).1 ((hballs 2 level hlevel 4).1 h)) (by decide)
  · rw [hstored 1 before _ hbefore hmap 2 hnode, hneighbors]
    rfl

end Subgraph

end BipartiteBatch
