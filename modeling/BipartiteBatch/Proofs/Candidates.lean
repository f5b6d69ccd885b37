import BipartiteBatch.Negative.Sampler
import BipartiteBatch.Proofs.Draws
import BipartiteBatch.Proofs.FirstSeen

/-!
# What is drawn for a query

The candidates of a request are the distinct nodes of its population. A query that is to be left out is
left out if it is a candidate and not the only one. All samplers answer a request the same way but for the
draws themselves: with an error if something is to be drawn from no one, and otherwise with a list for each
query.

* `Admissible` : a node that may be drawn for a query;
* `Serves` : what the list of a query owes it;
* `LeftOut` : what the position that is left out says of the population, `LeftOut.admissible_getElem` : the
  candidates at the others;
* `answer_of_empty`, `exists_answer` : the two outcomes of a request, `forall₂_of_answer` : its lists.
-/

namespace BipartiteBatch

open Draw

variable {population queries : List NodeId} {exclusion : SelfExclusion} {count : Nat}
  {query node : NodeId} {list : List NodeId}

/-- A node that may be drawn for a query: one of the population, and the query itself only if it need not
be left out or there is no other. -/
def Admissible (population : List NodeId) (exclusion : SelfExclusion) (query node : NodeId) : Prop :=
  node ∈ population
    ∧ (exclusion = .excludeQuery → node = query → ∀ other ∈ population, other = query)

/-- The list of a query has as many nodes as were asked for, all from the population. If the query is to
be left out, it is not among them, unless there is no other node. -/
structure Serves (population : List NodeId) (exclusion : SelfExclusion) (count : Nat) (query : NodeId)
    (list : List NodeId) : Prop where
  length_eq : list.length = count
  mem : ∀ node ∈ list, node ∈ population
  ne : exclusion = .excludeQuery → (∃ other ∈ population, other ≠ query) → ∀ node ∈ list, node ≠ query
  eq : exclusion = .excludeQuery → (∀ other ∈ population, other = query) → ∀ node ∈ list, node = query

theorem Serves.of_admissible (hlength : list.length = count)
    (h : ∀ node ∈ list, Admissible population exclusion query node) :
    Serves population exclusion count query list where
  length_eq := hlength
  mem node hnode := (h node hnode).1
  ne hexclude := by
    rintro ⟨other, hother, hne⟩ node hnode heq
    exact hne ((h node hnode).2 hexclude heq other hother)
  eq _ hall node hnode := hall node (h node hnode).1

theorem serves_nil : Serves population exclusion 0 query [] := .of_admissible rfl nofun

/-! ## The position that is left out -/

/-- Either no position is left out, and every node of the population is admissible, or it is the position
of the query, which is not the only candidate. -/
inductive LeftOut (population : List NodeId) (exclusion : SelfExclusion) (query : NodeId) :
    Option Nat → Prop
  | nothing (admissible : ∀ node ∈ population, Admissible population exclusion query node) :
    LeftOut population exclusion query none
  | position {p : Nat} (excluded : exclusion = .excludeQuery)
    (stands : population.eraseDups[p]? = some query) (other : ∃ other ∈ population, other ≠ query) :
    LeftOut population exclusion query (some p)

/-- A list of distinct nodes that has more than one has another than a given one. -/
theorem exists_ne_of_nodup {nodes : List NodeId} (hnodup : nodes.Nodup) (hquery : query ∈ nodes)
    (hlength : nodes.length ≠ 1) : ∃ other ∈ nodes, other ≠ query := by
  by_contra hnot
  have hall : ∀ other ∈ nodes, other = query := by
    intro other hother
    by_contra hne
    exact hnot ⟨other, hother, hne⟩
  have hreplicate : nodes = List.replicate nodes.length query := List.eq_replicate_length.2 hall
  have hle : nodes.length ≤ 1 := by
    rw [hreplicate] at hnodup
    exact List.nodup_replicate.1 hnodup
  have hpos := List.length_pos_of_mem hquery
  omega

theorem leftOut_excludedPosition? (population : List NodeId) (exclusion : SelfExclusion)
    (query : NodeId) :
    LeftOut population exclusion query
      (excludedPosition? population.eraseDups.toArray query exclusion) := by
  cases exclusion with
  | allow => exact .nothing fun node hnode => ⟨hnode, nofun⟩
  | excludeQuery =>
    unfold excludedPosition?
    by_cases hsize : population.eraseDups.toArray.size = 1
    · rw [if_pos hsize]
      obtain ⟨only, honly⟩ := List.length_eq_one_iff.1 hsize
      have hone : ∀ node ∈ population, node = only := by
        intro node hnode
        have hmem := List.mem_eraseDups.2 hnode
        rwa [show population.eraseDups = [only] from honly, List.mem_singleton] at hmem
      refine .nothing fun node hnode => ⟨hnode, fun _ heq other hother => ?_⟩
      rw [hone other hother, ← heq, hone node hnode]
    · rw [if_neg hsize, List.findIdx?_toArray]
      cases hfind : population.eraseDups.findIdx? (· == query) with
      | none =>
        refine .nothing fun node hnode => ⟨hnode, fun _ heq => absurd ?_ Bool.false_ne_true⟩
        -- a query that is no candidate is no member of the population
        have hne := List.findIdx?_eq_none_iff.1 hfind query (List.mem_eraseDups.2 (heq ▸ hnode))
        rw [← hne, beq_self_eq_true]
      | some p =>
        obtain ⟨hlt, hstands, -⟩ := List.findIdx?_eq_some_iff_getElem.1 hfind
        have hquery : population.eraseDups[p] = query := beq_iff_eq.1 hstands
        obtain ⟨other, hother, hne⟩ := exists_ne_of_nodup (nodup_eraseDups population)
          (hquery ▸ List.getElem_mem hlt) hsize
        refine .position rfl ?_ ⟨other, List.mem_eraseDups.1 hother, hne⟩
        rw [List.getElem?_eq_getElem hlt, hquery]

/-- With the query left out, the other nodes are the admissible ones. -/
theorem admissible_iff_ne (hexclude : exclusion = .excludeQuery)
    (hother : ∃ other ∈ population, other ≠ query) :
    Admissible population exclusion query node ↔ node ∈ population ∧ node ≠ query := by
  obtain ⟨other, hother, hne⟩ := hother
  refine and_congr_right fun _ => ?_
  constructor
  · exact fun h heq => hne (h hexclude heq other hother)
  · exact fun hnode _ heq => absurd heq hnode

theorem getD_toArray {nodes : List NodeId} {i : Nat} (hi : i < nodes.length) :
    nodes.toArray.getD i 0 = nodes[i] := by
  rw [Array.getD_eq_getD_getElem?, List.getElem?_toArray, List.getElem?_eq_getElem hi, Option.getD_some]

theorem LeftOut.admissible_getElem {skip : Option Nat} (h : LeftOut population exclusion query skip) {i : Nat}
    (hi : i < population.eraseDups.length) (hskip : skip ≠ some i) :
    Admissible population exclusion query population.eraseDups[i] := by
  have hmem : population.eraseDups[i] ∈ population := List.mem_eraseDups.1 (List.getElem_mem hi)
  cases h with
  | nothing admissible => exact admissible _ hmem
  | @position p excluded stands other =>
    obtain ⟨hp, hquery⟩ := List.getElem?_eq_some_iff.1 stands
    refine (admissible_iff_ne excluded other).2 ⟨hmem, fun heq => hskip ?_⟩
    rw [(nodup_eraseDups population).getElem_inj_iff.1 (heq.trans hquery.symm)]

theorem LeftOut.ne_of_admissible {skip : Option Nat} (h : LeftOut population exclusion query skip) {i : Nat}
    (hi : i < population.eraseDups.length)
    (hadmissible : Admissible population exclusion query population.eraseDups[i]) : skip ≠ some i := by
  rintro rfl
  cases h with
  | position excluded stands other =>
    exact ((admissible_iff_ne excluded other).1 hadmissible).2 (List.getElem?_eq_some_iff.1 stands).2

theorem LeftOut.one_lt {p : Nat} (h : LeftOut population exclusion query (some p)) :
    p < population.eraseDups.length ∧ 1 < population.eraseDups.length := by
  cases h with
  | position excluded stands other =>
    obtain ⟨hp, hquery⟩ := List.getElem?_eq_some_iff.1 stands
    obtain ⟨other, hother, hne⟩ := other
    have hsub : [query, other] ⊆ population.eraseDups := by
      rintro node hnode
      rcases List.mem_pair.1 hnode with rfl | rfl
      · exact hquery ▸ List.getElem_mem hp
      · exact List.mem_eraseDups.2 hother
    have hpair : [query, other].Nodup := by simpa using hne.symm
    exact ⟨hp, hpair.length_le_of_subset hsub⟩

theorem length_eraseDups_pos (hpopulation : population ≠ []) : 0 < population.eraseDups.length :=
  List.length_pos_of_mem (List.mem_eraseDups.2 (List.head_mem hpopulation))

/-! ## Requests -/

/-- From no one nothing can be drawn. -/
theorem answer_of_empty {draw : Except Abort (NodeId → Keystream → List NodeId × Keystream)}
    (h : 0 < count ∧ queries ≠ [] ∧ population = []) (s : Keystream) :
    answer count population queries draw s
      = (.error (.error (.sampling (.emptyPopulation count queries.length))), s) := by
  obtain ⟨hcount, hqueries, hpopulation⟩ := h
  have hwanted : ¬ (count = 0 ∨ queries = []) := not_or.2 ⟨Nat.ne_of_gt hcount, hqueries⟩
  unfold answer
  rw [if_neg hwanted, if_pos hpopulation]

theorem forall₂_map_nil {P : NodeId → List NodeId → Prop} (hnone : count = 0 → ∀ query, P query [])
    (hwanted : count = 0 ∨ queries = []) : List.Forall₂ P queries (queries.map fun _ => []) := by
  rw [List.forall₂_map_right_iff, List.forall₂_same]
  intro query hquery
  exact hnone (hwanted.resolve_right (List.ne_nil_of_mem hquery)) query

/-- What holds of an empty list, if none is asked for, and of every list that is drawn, holds of the lists
of a request. -/
theorem forall₂_of_answer {draw : NodeId → Keystream → List NodeId × Keystream}
    {P : NodeId → List NodeId → Prop} (hnone : count = 0 → ∀ query, P query [])
    (hdraw : population ≠ [] → ∀ query s, P query (draw query s).1) {s s' : Keystream}
    {lists : List (List NodeId)} (h : answer count population queries (.ok draw) s = (.ok lists, s')) :
    List.Forall₂ P queries lists := by
  unfold answer at h
  by_cases hwanted : count = 0 ∨ queries = []
  · rw [if_pos hwanted] at h
    obtain ⟨rfl, -⟩ := Prod.mk.inj h |>.imp_left Except.ok.inj
    exact forall₂_map_nil hnone hwanted
  · by_cases hpopulation : population = []
    · rw [if_neg hwanted, if_pos hpopulation] at h
      cases h
    · rw [if_neg hwanted, if_neg hpopulation] at h
      dsimp only at h
      split at h
      · obtain ⟨rfl, -⟩ := Prod.mk.inj h |>.imp_left Except.ok.inj
        exact forall₂_mapDraws (fun query _ s => hdraw hpopulation query s) s
      · cases h

/-- Where no draw can be made, the lists of a request that is answered are empty, and none is asked for. -/
theorem forall₂_of_answer_error {P : NodeId → List NodeId → Prop} {e : Abort}
    (hnone : count = 0 → ∀ query, P query []) {s s' : Keystream} {lists : List (List NodeId)}
    (h : answer count population queries (.error e) s = (.ok lists, s')) :
    List.Forall₂ P queries lists := by
  unfold answer at h
  split at h
  · next hwanted =>
    obtain ⟨rfl, -⟩ := Prod.mk.inj h |>.imp_left Except.ok.inj
    exact forall₂_map_nil hnone hwanted
  · split at h
    · cases h
    · cases h

/-- Any other request that has room is answered with a list for each query. -/
theorem exists_answer {draw : NodeId → Keystream → List NodeId × Keystream}
    {P : NodeId → List NodeId → Prop} (hfits : fits count 8 = true)
    (hsome : ¬ (0 < count ∧ queries ≠ [] ∧ population = []))
    (hnone : count = 0 → ∀ query, P query [])
    (hdraw : population ≠ [] → ∀ query s, P query (draw query s).1) (s : Keystream) :
    ∃ lists s', answer count population queries (.ok draw) s = (.ok lists, s')
      ∧ List.Forall₂ P queries lists := by
  have hok : ∃ lists s', answer count population queries (.ok draw) s = (.ok lists, s') := by
    unfold answer
    by_cases hwanted : count = 0 ∨ queries = []
    · exact ⟨_, s, if_pos hwanted⟩
    · obtain ⟨hcount, hqueries⟩ := not_or.1 hwanted
      have hpopulation : population ≠ [] :=
        fun h => hsome ⟨Nat.pos_of_ne_zero hcount, hqueries, h⟩
      rw [if_neg hwanted, if_neg hpopulation]
      exact ⟨_, _, if_pos hfits⟩
  obtain ⟨lists, s', hanswer⟩ := hok
  exact ⟨lists, s', hanswer, forall₂_of_answer hnone hdraw hanswer⟩

/-- A request that is refused for one reason alone is an error if and only if there is that reason. -/
theorem exists_error_iff {σ α : Type} {q : Query σ α} {state : σ} {reason : Prop} {P : α → Prop}
    (hserved : ¬ reason → ∃ a state', q state = (.ok a, state') ∧ P a)
    (hrefused : reason → ∃ e state', q state = (.error (.error e), state')) :
    (∃ e state', q state = (.error (.error e), state')) ↔ reason := by
  refine ⟨?_, hrefused⟩
  rintro ⟨e, state', herror⟩
  by_contra hnot
  obtain ⟨a, state'', hok, -⟩ := hserved hnot
  rw [herror] at hok
  cases hok

end BipartiteBatch
