import BipartiteBatch.Proofs.FirstSeen

/-!
# The levels of a sampled subgraph

Sampling asks for the neighbors of a level, goes on to the level that the answer leads to, and so on, once
for each number of the fan-out. If every answer has one list per node, the answers alone decide the
subgraph; if one has not, there is no subgraph.

* `Answered` : a client answers each question in turn with one list per node;
* `nextLevel`, `levelsOf`, `mapsOf` : what the answers lead to, on lists;
* `sample_eq_ok` : sampling gives that subgraph, and only if the client answers so;
* `Nested` : how the levels of a subgraph lie in each other, `Nested.of_sample` : those of a sampled one;
* `mem_map_of_sample` : the nodes that a neighbor map knows;
* `sample_levels_nested` : all of this for any client, seeds and fan-out.
-/

namespace BipartiteBatch

/-! ## Neighbor maps -/

namespace NeighborMap

theorem getElem?_foldl_insert_of_not_mem {entries : List (NodeId × List Neighbor)} {node : NodeId}
    (map : NeighborMap) (h : node ∉ entries.map Prod.fst) :
    (entries.foldl (fun map e => map.insert e.1 e.2) map)[node]? = map[node]? := by
  induction entries generalizing map with
  | nil => rfl
  | cons e entries ih =>
    rw [List.map_cons, List.mem_cons, not_or] at h
    rw [List.foldl_cons, ih _ h.2, Std.HashMap.getElem?_insert,
      if_neg fun he => h.1 (beq_iff_eq.1 he).symm]

theorem getElem?_foldl_insert_of_mem {entries : List (NodeId × List Neighbor)} {node : NodeId}
    {list : List Neighbor} (map : NeighborMap) (hnodup : (entries.map Prod.fst).Nodup)
    (h : (node, list) ∈ entries) :
    (entries.foldl (fun map e => map.insert e.1 e.2) map)[node]? = some list := by
  induction entries generalizing map with
  | nil => cases h
  | cons e entries ih =>
    rw [List.map_cons, List.nodup_cons] at hnodup
    rw [List.foldl_cons]
    rcases List.mem_cons.1 h with rfl | h
    · rw [getElem?_foldl_insert_of_not_mem _ hnodup.1, Std.HashMap.getElem?_insert_self]
    · exact ih _ hnodup.2 h

variable {nodes : List NodeId} {lists : List (List Neighbor)}

theorem getElem?_ofLists (hnodup : nodes.Nodup) (hlength : lists.length = nodes.length) {i : Nat}
    {node : NodeId} (hi : nodes[i]? = some node) : (ofLists nodes lists)[node]? = lists[i]? := by
  obtain ⟨hlt, hnode⟩ := List.getElem?_eq_some_iff.1 hi
  have hlt' : i < lists.length := hlength ▸ hlt
  have hentry : (nodes.zip lists)[i]? = some (node, lists[i]) := by
    rw [List.getElem?_zip_eq_some]
    exact ⟨hi, List.getElem?_eq_getElem hlt'⟩
  have hfst : (nodes.zip lists).map Prod.fst = nodes := List.map_fst_zip (le_of_eq hlength.symm)
  rw [ofLists, getElem?_foldl_insert_of_mem {} (hfst.symm ▸ hnodup) (List.mem_of_getElem? hentry),
    List.getElem?_eq_getElem hlt']

theorem mem_ofLists (hnodup : nodes.Nodup) (hlength : lists.length = nodes.length) {node : NodeId} :
    node ∈ ofLists nodes lists ↔ node ∈ nodes := by
  rw [Std.HashMap.mem_iff_isSome_getElem?]
  constructor
  · intro h
    by_contra hmem
    have hfst : (nodes.zip lists).map Prod.fst = nodes := List.map_fst_zip (le_of_eq hlength.symm)
    rw [ofLists, getElem?_foldl_insert_of_not_mem {} (hfst.symm ▸ hmem)] at h
    simp at h
  · intro h
    obtain ⟨i, hi⟩ := List.mem_iff_getElem?.1 h
    have hlt : i < lists.length := hlength ▸ (List.getElem?_eq_some_iff.1 hi).1
    rw [getElem?_ofLists hnodup hlength hi, List.getElem?_eq_getElem hlt]
    rfl

theorem neighbors_ofLists (hnodup : nodes.Nodup) (hlength : lists.length = nodes.length) {i : Nat}
    {node : NodeId} {list : List Neighbor} (hi : nodes[i]? = some node)
    (hlist : lists[i]? = some list) : (ofLists nodes lists).neighbors node = list := by
  rw [neighbors, getElem?_ofLists hnodup hlength hi, hlist, Option.getD_some]

end NeighborMap

namespace Subgraph

/-! ## What answers lead to -/

/-- The level after `level`: its nodes, and then the neighbors that are not among them. -/
def nextLevel (level : List NodeId) (lists : List (List Neighbor)) : List NodeId :=
  level ++ ((lists.flatten.map Neighbor.node).filter fun node => node ∉ level).eraseDups

/-- The levels from `level` on, by the answers for each of them. -/
def levelsOf (level : List NodeId) : List (List (List Neighbor)) → List (List NodeId)
  | [] => [level]
  | lists :: answers => level :: levelsOf (nextLevel level lists) answers

def mapsOf (level : List NodeId) : List (List (List Neighbor)) → List NeighborMap
  | [] => []
  | lists :: answers => NeighborMap.ofLists level lists :: mapsOf (nextLevel level lists) answers

theorem nextLevel_eq {level : List NodeId} (h : level.Nodup) (lists : List (List Neighbor)) :
    nextLevel level lists = (level ++ lists.flatten.map Neighbor.node).eraseDups := by
  rw [List.eraseDups_append, eraseDups_of_nodup h]
  simp [nextLevel, List.removeAll]

theorem nodup_nextLevel {level : List NodeId} (h : level.Nodup) (lists : List (List Neighbor)) :
    (nextLevel level lists).Nodup := by
  rw [nextLevel_eq h]
  exact nodup_eraseDups _

theorem isPrefix_nextLevel (level : List NodeId) (lists : List (List Neighbor)) :
    level <+: nextLevel level lists := List.prefix_append _ _

/-- The next level holds the level and every neighbor in the answer. -/
theorem mem_nextLevel_iff {level : List NodeId} {lists : List (List Neighbor)} {node : NodeId} :
    node ∈ nextLevel level lists ↔ node ∈ level ∨ ∃ list ∈ lists, ∃ n ∈ list, n.node = node := by
  rw [nextLevel, List.mem_append, List.mem_eraseDups, List.mem_filter, decide_eq_true_iff]
  simp only [List.mem_map, List.mem_flatten]
  by_cases h : node ∈ level <;> grind

theorem mem_nextLevel {level : List NodeId} {lists : List (List Neighbor)} {list : List Neighbor}
    {n : Neighbor} (hlist : list ∈ lists) (hn : n ∈ list) : n.node ∈ nextLevel level lists :=
  mem_nextLevel_iff.2 (.inr ⟨list, hlist, n, hn, rfl⟩)

theorem length_levelsOf (level : List NodeId) (answers : List (List (List Neighbor))) :
    (levelsOf level answers).length = answers.length + 1 := by
  induction answers generalizing level with
  | nil => rfl
  | cons lists answers ih => simp [levelsOf, ih]

theorem length_mapsOf (level : List NodeId) (answers : List (List (List Neighbor))) :
    (mapsOf level answers).length = answers.length := by
  induction answers generalizing level with
  | nil => rfl
  | cons lists answers ih => simp [mapsOf, ih]

theorem levelsOf_head? (level : List NodeId) (answers : List (List (List Neighbor))) :
    (levelsOf level answers)[0]? = some level := by
  cases answers <;> rfl

theorem nodup_of_mem_levelsOf {level : List NodeId} (h : level.Nodup)
    {answers : List (List (List Neighbor))} {l : List NodeId} (hl : l ∈ levelsOf level answers) :
    l.Nodup := by
  induction answers generalizing level with
  | nil =>
    obtain rfl := List.mem_singleton.1 hl
    exact h
  | cons lists answers ih =>
    rcases List.mem_cons.1 hl with rfl | hl
    · exact h
    · exact ih (nodup_nextLevel h lists) hl

theorem levelsOf_step {level l : List NodeId} {answers : List (List (List Neighbor))}
    {lists : List (List Neighbor)} {h : Nat} (hl : (levelsOf level answers)[h]? = some l)
    (hlists : answers[h]? = some lists) :
    (levelsOf level answers)[h + 1]? = some (nextLevel l lists)
      ∧ (mapsOf level answers)[h]? = some (NeighborMap.ofLists l lists) := by
  induction answers generalizing level h with
  | nil => cases hlists
  | cons first answers ih =>
    cases h with
    | zero =>
      obtain rfl : level = l := Option.some.inj hl
      obtain rfl : first = lists := Option.some.inj hlists
      exact ⟨levelsOf_head? _ _, rfl⟩
    | succ h => exact ih hl hlists

theorem levelsOf_append (level : List NodeId) (answers more : List (List (List Neighbor))) :
    levelsOf level answers <+: levelsOf level (answers ++ more) := by
  induction answers generalizing level with
  | nil => cases more <;> exact List.prefix_append [level] _
  | cons lists answers ih => exact List.cons_prefix_cons.2 ⟨rfl, ih _⟩

theorem mapsOf_append (level : List NodeId) (answers more : List (List (List Neighbor))) :
    mapsOf level answers <+: mapsOf level (answers ++ more) := by
  induction answers generalizing level with
  | nil => exact List.nil_prefix
  | cons lists answers ih => exact List.cons_prefix_cons.2 ⟨rfl, ih _⟩

/-! ## Questions and answers -/

variable {γ : Type} [GraphClient γ]

/-- A client in a state is asked for the neighbors of a level and then, hop by hop, of the level that the
answer leads to. It answers each time, with one list per node, and is left in the last state. -/
inductive Answered : γ → List NodeId → List Nat → List (List (List Neighbor)) → γ → Prop
  | done (g : γ) (level : List NodeId) : Answered g level [] [] g
  | hop {g g₁ g₂ : γ} {level : List NodeId} {count : Nat} {fanout : List Nat}
      {lists : List (List Neighbor)} {answers : List (List (List Neighbor))}
      (asked : GraphClient.sampleNeighbors level count g = (.ok lists, g₁))
      (complete : lists.length = level.length)
      (rest : Answered g₁ (nextLevel level lists) fanout answers g₂) :
      Answered g level (count :: fanout) (lists :: answers) g₂

variable {g g' : γ} {level : List NodeId} {fanout : List Nat}
  {answers : List (List (List Neighbor))}

theorem Answered.length_answers (h : Answered g level fanout answers g') :
    answers.length = fanout.length := by
  induction h with
  | done => rfl
  | hop _ _ _ ih => simp [ih]

theorem Answered.step (ha : Answered g level fanout answers g') {h : Nat}
    {lists : List (List Neighbor)} {l : List NodeId} (hlists : answers[h]? = some lists)
    (hl : (levelsOf level answers)[h]? = some l) :
    lists.length = l.length ∧ ∃ (count : Nat) (g₁ g₂ : γ), fanout[h]? = some count
      ∧ GraphClient.sampleNeighbors l count g₁ = (.ok lists, g₂) := by
  induction ha generalizing h with
  | done => cases hlists
  | hop asked complete rest ih =>
    cases h with
    | zero =>
      obtain rfl := Option.some.inj hl
      obtain rfl := Option.some.inj hlists
      exact ⟨complete, _, _, _, rfl, asked⟩
    | succ h => exact ih hlists hl

/-- The answers to the first hops do not depend on the hops after them. -/
theorem Answered.of_append {more : List Nat} (h : Answered g level (fanout ++ more) answers g') :
    ∃ first rest g₁, answers = first ++ rest ∧ Answered g level fanout first g₁ := by
  induction fanout generalizing g level answers with
  | nil => exact ⟨[], answers, g, rfl, .done g level⟩
  | cons count fanout ih =>
    cases h with
    | hop asked complete later =>
      obtain ⟨first, rest, g₁, rfl, hfirst⟩ := ih later
      exact ⟨_ :: first, rest, g₁, rfl, .hop asked complete hfirst⟩

/-! ## Sampling -/

theorem hop_eq_ok {f f' : Frontier} {count : Nat} {map : NeighborMap} :
    (hop f count : Query γ (NeighborMap × Frontier)) g = (.ok (map, f'), g') ↔ ∃ lists,
      GraphClient.sampleNeighbors f.nodes count g = (.ok lists, g')
        ∧ lists.length = f.nodes.length ∧ map = NeighborMap.ofLists f.nodes lists
        ∧ f' = f.seeAll (lists.flatten.map Neighbor.node) := by
  unfold hop
  rw [Query.bind_eq_ok]
  constructor
  · rintro ⟨lists, t, hasked, h⟩
    split at h
    · next hlength =>
      obtain ⟨hpair, rfl⟩ := Query.pure_eq_ok.1 h
      obtain ⟨hmap, hf⟩ := Prod.mk.inj hpair
      exact ⟨lists, hasked, hlength, hmap.symm, hf.symm⟩
    · exact absurd h Query.fail_ne_ok
  · rintro ⟨lists, hasked, hlength, rfl, rfl⟩
    exact ⟨lists, g', hasked, by rw [if_pos hlength]; rfl⟩

theorem nodes_seeAll_eq_nextLevel (f : Frontier) (lists : List (List Neighbor)) :
    (f.seeAll (lists.flatten.map Neighbor.node)).nodes = nextLevel f.nodes lists := by
  rw [Frontier.nodes_seeAll, nextLevel_eq f.nodup_nodes]

/-- The hops from a frontier follow the answers of the client. -/
theorem hops_eq_ok {f : Frontier} {hs : List Hop} :
    hops f fanout g = (.ok hs, g') ↔ ∃ answers, Answered g f.nodes fanout answers g'
      ∧ f.nodes :: hs.map Hop.level = levelsOf f.nodes answers
      ∧ hs.map Hop.map = mapsOf f.nodes answers := by
  induction fanout generalizing f hs g with
  | nil =>
    constructor
    · intro h
      obtain ⟨rfl, rfl⟩ := Query.pure_eq_ok.1 h
      exact ⟨[], .done g f.nodes, rfl, rfl⟩
    · rintro ⟨answers, ha, -, hmaps⟩
      cases ha
      obtain rfl := List.map_eq_nil_iff.1 hmaps
      rfl
  | cons count fanout ih =>
    unfold hops
    rw [Query.bind_eq_ok]
    constructor
    · rintro ⟨⟨map, f'⟩, g₁, hhop, h⟩
      -- a hop sees the next level, and the hops after it begin there
      obtain ⟨lists, hasked, hlength, rfl, rfl⟩ := hop_eq_ok.1 hhop
      obtain ⟨rest, g₂, hrest, h⟩ := Query.bind_eq_ok.1 h
      obtain ⟨rfl, rfl⟩ := Query.pure_eq_ok.1 h
      obtain ⟨answers, ha, hlevels, hmaps⟩ := ih.1 hrest
      rw [nodes_seeAll_eq_nextLevel] at ha hlevels hmaps
      refine ⟨lists :: answers, .hop hasked hlength ha, ?_, ?_⟩
      · rw [levelsOf, ← hlevels, ← nodes_seeAll_eq_nextLevel]
        rfl
      · rw [mapsOf, ← hmaps]
        rfl
    · rintro ⟨answers, ha, hlevels, hmaps⟩
      cases ha with
      | @hop _ g₁ _ _ _ _ lists answers asked complete rest =>
        cases hs with
        | nil => cases hmaps
        | cons first hs =>
          -- the first hop is known by its map and its level, the others by induction
          obtain ⟨hmap, hmaps⟩ := List.cons.inj hmaps
          have hlevels' := (List.cons.inj hlevels).2
          have hfirst : first.level = nextLevel f.nodes lists := by
            have := congrArg (·[0]?) hlevels'
            simpa [levelsOf_head?] using this
          refine ⟨(_, _), g₁, hop_eq_ok.2 ⟨lists, asked, complete, rfl, rfl⟩, ?_⟩
          refine Query.bind_eq_ok.2 ⟨hs, g', ih.2 ⟨answers, ?_, ?_, ?_⟩, ?_⟩
          · rw [nodes_seeAll_eq_nextLevel]; exact rest
          · rw [nodes_seeAll_eq_nextLevel, ← hlevels', ← hfirst]; rfl
          · rw [nodes_seeAll_eq_nextLevel]; exact hmaps
          · rw [Query.pure_eq_ok, nodes_seeAll_eq_nextLevel, ← hfirst, ← hmap]
            exact ⟨rfl, rfl⟩

theorem exists_hops (level : List NodeId) (answers : List (List (List Neighbor))) :
    ∃ hs : List Hop, level :: hs.map Hop.level = levelsOf level answers
      ∧ hs.map Hop.map = mapsOf level answers := by
  induction answers generalizing level with
  | nil => exact ⟨[], rfl, rfl⟩
  | cons lists answers ih =>
    obtain ⟨hs, hlevels, hmaps⟩ := ih (nextLevel level lists)
    refine ⟨⟨NeighborMap.ofLists level lists, nextLevel level lists⟩ :: hs, ?_, ?_⟩
    · rw [levelsOf, ← hlevels]; rfl
    · rw [mapsOf, ← hmaps]; rfl

/-- Sampling gives the subgraph that the answers lead to, if each question is answered. -/
theorem sample_eq_ok {seeds : List NodeId} {sub : Subgraph} :
    sample seeds fanout g = (.ok sub, g') ↔ ∃ answers, Answered g seeds.eraseDups fanout answers g'
      ∧ sub = ⟨levelsOf seeds.eraseDups answers, mapsOf seeds.eraseDups answers⟩ := by
  unfold sample
  rw [Query.bind_eq_ok]
  constructor
  · rintro ⟨hs, t, hhops, h⟩
    obtain ⟨rfl, rfl⟩ := Query.pure_eq_ok.1 h
    obtain ⟨answers, ha, hlevels, hmaps⟩ := hops_eq_ok.1 hhops
    rw [Frontier.nodes_ofSeeds] at ha hlevels hmaps
    exact ⟨answers, ha, by rw [← hlevels, ← hmaps, Frontier.nodes_ofSeeds]⟩
  · rintro ⟨answers, ha, rfl⟩
    obtain ⟨hs, hlevels, hmaps⟩ := exists_hops seeds.eraseDups answers
    refine ⟨hs, g', hops_eq_ok.2 ⟨answers, ?_⟩, ?_⟩
    · rw [Frontier.nodes_ofSeeds]
      exact ⟨ha, hlevels, hmaps⟩
    · rw [Query.pure_eq_ok, Frontier.nodes_ofSeeds, hlevels, hmaps]
      exact ⟨rfl, rfl⟩

theorem exists_answered_nil (hnil : ∀ (count : Nat) (g : γ), ∃ g',
      GraphClient.sampleNeighbors [] count g = (.ok [], g')) (fanout : List Nat) (g : γ) :
    ∃ g', Answered g [] fanout (List.replicate fanout.length []) g' := by
  induction fanout generalizing g with
  | nil => exact ⟨g, .done g []⟩
  | cons count fanout ih =>
    obtain ⟨g₁, hasked⟩ := hnil count g
    obtain ⟨g₂, hrest⟩ := ih g₁
    exact ⟨g₂, .hop hasked rfl hrest⟩

theorem levelsOf_replicate_nil (n : Nat) :
    levelsOf [] (List.replicate n []) = List.replicate (n + 1) [] := by
  induction n with
  | zero => rfl
  | succ n ih => exact congrArg ([] :: ·) ih

theorem isEmpty_of_mem_mapsOf_nil {n : Nat} {map : NeighborMap}
    (h : map ∈ mapsOf [] (List.replicate n [])) : map.isEmpty := by
  induction n with
  | zero => cases h
  | succ n ih =>
    rcases List.mem_cons.1 h with rfl | h
    · rfl
    · exact ih h

/-! ## Nested levels -/

/-- The levels have no duplicates, each begins with the one before it, and each holds the neighbors that
were sampled for the one before it. -/
structure Nested (sub : Subgraph) : Prop where
  length_levels : sub.levels.length = sub.maps.length + 1
  nodup : ∀ level ∈ sub.levels, level.Nodup
  isPrefix : ∀ {h : Nat} {level next : List NodeId}, sub.levels[h]? = some level →
    sub.levels[h + 1]? = some next → level <+: next
  closed : ∀ {h : Nat} {level next : List NodeId} {map : NeighborMap}, sub.levels[h]? = some level →
    sub.levels[h + 1]? = some next → sub.maps[h]? = some map →
      ∀ node ∈ level, ∀ n ∈ map.neighbors node, n.node ∈ next

theorem exists_answer_of_level {level next : List NodeId} {h : Nat}
    (hnext : (levelsOf level answers)[h + 1]? = some next) : ∃ lists, answers[h]? = some lists := by
  have hlt := (List.getElem?_eq_some_iff.1 hnext).1
  rw [length_levelsOf] at hlt
  exact ⟨answers[h], List.getElem?_eq_getElem (Nat.lt_of_succ_lt_succ hlt)⟩

theorem levels_zero_of_sample {seeds : List NodeId} {sub : Subgraph}
    (h : sample seeds fanout g = (.ok sub, g')) : sub.levels[0]? = some seeds.eraseDups := by
  obtain ⟨answers, -, rfl⟩ := sample_eq_ok.1 h
  exact levelsOf_head? _ _

/-- What is sampled around seeds is nested. -/
theorem Nested.of_sample {seeds : List NodeId} {sub : Subgraph}
    (h : sample seeds fanout g = (.ok sub, g')) : sub.Nested := by
  obtain ⟨answers, ha, rfl⟩ := sample_eq_ok.1 h
  have hnodup : ∀ level ∈ levelsOf seeds.eraseDups answers, level.Nodup :=
    fun level => nodup_of_mem_levelsOf (nodup_eraseDups seeds)
  refine ⟨?_, hnodup, ?_, ?_⟩
  · rw [length_levelsOf, length_mapsOf]
  · intro h level next hlevel hnext
    obtain ⟨lists, hlists⟩ := exists_answer_of_level hnext
    obtain rfl := Option.some.inj (hnext.symm.trans (levelsOf_step hlevel hlists).1)
    exact isPrefix_nextLevel level lists
  · intro h level next map hlevel hnext hmap node hnode n hn
    obtain ⟨lists, hlists⟩ := exists_answer_of_level hnext
    have hstep := levelsOf_step hlevel hlists
    obtain rfl := Option.some.inj (hnext.symm.trans hstep.1)
    obtain rfl := Option.some.inj (hmap.symm.trans hstep.2)
    have hlength := (ha.step hlists hlevel).1
    obtain ⟨i, hi⟩ := List.mem_iff_getElem?.1 hnode
    have hlt : i < lists.length := hlength ▸ (List.getElem?_eq_some_iff.1 hi).1
    have hlist := List.getElem?_eq_getElem hlt
    rw [NeighborMap.neighbors_ofLists (hnodup level (List.mem_of_getElem? hlevel)) hlength hi hlist]
      at hn
    exact mem_nextLevel (List.getElem_mem hlt) hn

theorem mem_map_of_sample {seeds : List NodeId} {sub : Subgraph}
    (hsub : sample seeds fanout g = (.ok sub, g')) {h : Nat} {map : NeighborMap}
    (hlevel : sub.levels[h]? = some level) (hmap : sub.maps[h]? = some map) {node : NodeId} :
    node ∈ map ↔ node ∈ level := by
  have hnodup := (Nested.of_sample hsub).nodup level (List.mem_of_getElem? hlevel)
  obtain ⟨answers, ha, rfl⟩ := sample_eq_ok.1 hsub
  have hlt : h < answers.length := by
    rw [← length_mapsOf seeds.eraseDups]
    exact (List.getElem?_eq_some_iff.1 hmap).1
  have hlists := List.getElem?_eq_getElem hlt
  obtain rfl := Option.some.inj (hmap.symm.trans (levelsOf_step hlevel hlists).2)
  exact NeighborMap.mem_ofLists hnodup (ha.step hlists hlevel).1

/-- A level begins with every level before it. -/
theorem Nested.isPrefix_of_le {sub : Subgraph} (hsub : sub.Nested) {h k : Nat} (hle : h ≤ k)
    {level later : List NodeId} (hlevel : sub.levels[h]? = some level)
    (hlater : sub.levels[k]? = some later) : level <+: later := by
  induction k, hle using Nat.le_induction generalizing later with
  | base =>
    obtain rfl := Option.some.inj (hlevel.symm.trans hlater)
    exact List.prefix_rfl
  | succ k _ ih =>
    have hlt : k < sub.levels.length :=
      Nat.lt_of_succ_lt (List.getElem?_eq_some_iff.1 hlater).1
    have hk := List.getElem?_eq_getElem hlt
    exact (ih hk).trans (hsub.isPrefix hk hlater)

/-- A node has the same position in all levels that hold it. -/
theorem Nested.getElem?_eq {sub : Subgraph} (hsub : sub.Nested) {h k i : Nat}
    {level other : List NodeId} (hlevel : sub.levels[h]? = some level)
    (hother : sub.levels[k]? = some other) {node : NodeId} (hi : level[i]? = some node)
    (hmem : node ∈ other) : other[i]? = some node := by
  rcases Nat.le_total h k with hle | hle
  · exact getElem?_of_isPrefix (hsub.isPrefix_of_le hle hlevel hother) hi
  · have hprefix := hsub.isPrefix_of_le hle hother hlevel
    obtain ⟨j, hj⟩ := List.mem_iff_getElem?.1 hmem
    have hj' := getElem?_of_isPrefix hprefix hj
    have hlt := (List.getElem?_eq_some_iff.1 hi).1
    have hij : i = j :=
      (List.getElem?_inj hlt (hsub.nodup level (List.mem_of_getElem? hlevel))).1 (hi.trans hj'.symm)
    rwa [hij]

/-! ## Sampling as a whole -/

/-- Sampling succeeds if and only if each question in turn is answered with one list per node. The first
level then holds the distinct seeds; each further one holds the level before it and after that, in the
order of the answer, the neighbors that are new; and each map holds the answer itself. More hops change
nothing in the levels and maps before them, and around no seeds there is nothing. -/
theorem sample_levels_nested (seeds : List NodeId) (fanout : List Nat) (g : γ) :
    ((∃ sub g', sample seeds fanout g = (.ok sub, g'))
      ↔ ∃ answers g', Answered g seeds.eraseDups fanout answers g')
    ∧ (∀ sub g', sample seeds fanout g = (.ok sub, g') →
      sub.levels.length = fanout.length + 1 ∧ sub.maps.length = fanout.length
      ∧ sub.levels[0]? = some seeds.eraseDups ∧ (∀ level ∈ sub.levels, level.Nodup)
      ∧ ∃ answers, Answered g seeds.eraseDups fanout answers g'
        ∧ ∀ h < fanout.length, ∃ level next map lists,
          sub.levels[h]? = some level ∧ sub.levels[h + 1]? = some next
          ∧ sub.maps[h]? = some map ∧ answers[h]? = some lists
          ∧ (∃ (count : Nat) (g₁ g₂ : γ), fanout[h]? = some count
            ∧ GraphClient.sampleNeighbors level count g₁ = (.ok lists, g₂))
          ∧ lists.length = level.length ∧ level <+: next
          ∧ next = level
            ++ ((lists.flatten.map Neighbor.node).filter fun node => node ∉ level).eraseDups
          ∧ (∀ node, node ∈ map ↔ node ∈ level)
          ∧ ∀ (i : Nat) (node : NodeId), level[i]? = some node → map[node]? = lists[i]?)
    ∧ (∀ more sub g', sample seeds (fanout ++ more) g = (.ok sub, g') →
      ∃ first g₁, sample seeds fanout g = (.ok first, g₁)
        ∧ first.levels <+: sub.levels ∧ first.maps <+: sub.maps)
    ∧ ((∀ (count : Nat) (g : γ), ∃ g', GraphClient.sampleNeighbors [] count g = (.ok [], g')) →
      ∃ sub g', sample [] fanout g = (.ok sub, g')
        ∧ sub.levels = List.replicate (fanout.length + 1) [] ∧ sub.maps.length = fanout.length
        ∧ ∀ map ∈ sub.maps, map.isEmpty) := by
  refine ⟨⟨?_, ?_⟩, ?_, ?_, ?_⟩
  · rintro ⟨sub, g', h⟩
    obtain ⟨answers, ha, -⟩ := sample_eq_ok.1 h
    exact ⟨answers, g', ha⟩
  · rintro ⟨answers, g', ha⟩
    exact ⟨_, g', sample_eq_ok.2 ⟨answers, ha, rfl⟩⟩
  · intro sub g' h
    have hnested := Nested.of_sample h
    obtain ⟨answers, ha, rfl⟩ := sample_eq_ok.1 h
    have hlength := ha.length_answers
    refine ⟨by rw [length_levelsOf, hlength], by rw [length_mapsOf, hlength], levelsOf_head? _ _,
      hnested.nodup, answers, ha, ?_⟩
    intro h hh
    -- at each hop the level, the question about it and the answer are had together
    have hlt : h < (levelsOf seeds.eraseDups answers).length := by
      rw [length_levelsOf]
      omega
    have hlevel := List.getElem?_eq_getElem hlt
    have hlists : answers[h]? = some answers[h] := List.getElem?_eq_getElem (hlength ▸ hh)
    obtain ⟨hnext, hmap⟩ := levelsOf_step hlevel hlists
    obtain ⟨hcomplete, hasked⟩ := ha.step hlists hlevel
    have hnodup := hnested.nodup _ (List.mem_of_getElem? hlevel)
    exact ⟨_, _, _, _, hlevel, hnext, hmap, hlists, hasked, hcomplete, isPrefix_nextLevel _ _, rfl,
      fun node => NeighborMap.mem_ofLists hnodup hcomplete,
      fun i node => NeighborMap.getElem?_ofLists hnodup hcomplete⟩
  · intro more sub g' h
    obtain ⟨answers, ha, rfl⟩ := sample_eq_ok.1 h
    obtain ⟨first, rest, g₁, rfl, hfirst⟩ := ha.of_append
    exact ⟨_, g₁, sample_eq_ok.2 ⟨first, hfirst, rfl⟩, levelsOf_append _ _ _, mapsOf_append _ _ _⟩
  · intro hnil
    obtain ⟨g', ha⟩ := exists_answered_nil hnil fanout g
    refine ⟨_, g', sample_eq_ok.2 ⟨_, ha, rfl⟩, levelsOf_replicate_nil _, ?_, ?_⟩
    · rw [length_mapsOf, List.length_replicate]
    · intro map hmap
      exact isEmpty_of_mem_mapsOf_nil hmap

/-- A neighbor that is a seed, one that is new and one that comes twice. -/
example : levelsOf [1, 2] [[[⟨10, 1.0⟩, ⟨1, 1.0⟩], [⟨10, 1.0⟩, ⟨11, 1.0⟩]]]
    = [[1, 2], [1, 2, 10, 11]] := by decide

end Subgraph

end BipartiteBatch
