import BipartiteBatch.Negative.Uniform
import BipartiteBatch.Proofs.Candidates
import Mathlib.Data.Set.Function

/-!
# Uniform negatives are fair

A negative of the uniform sampler is the candidate that a bounded draw stands for. The values that the draw
can have stand for the admissible nodes, each for one: the positions from that of a query on that is left
out are one further than the values, so that no value stands for the query and none is missing.

* `UniformSampler.position` : the position that a value stands for;
* `UniformSampler.bijOn_admitted` : the values and the admissible nodes correspond one to one;
* `UniformSampler.ReadOff`, `UniformSampler.draw_eq` : the list of a query is read off bounded draws;
* `UniformSampler.forall₂_serves`, `UniformSampler.exists_negatives` : the lists of a request;
* `UniformSampler.negatives_fair` : all of this of a request.
-/

namespace BipartiteBatch.UniformSampler

open Draw

variable {population queries : List NodeId} {exclusion : SelfExclusion} {count : Nat} {query : NodeId}

/-! ## Values and candidates -/

/-- The position that a value stands for. From a position that is left out on it is one further. -/
def position (skip : Option Nat) (i : Nat) : Nat :=
  match skip with
  | some p => if p ≤ i then i + 1 else i
  | none => i

theorem admitted_eq (candidates : Array NodeId) (skip : Option Nat) (i : Nat) :
    admitted candidates skip i = candidates.getD (position skip i) 0 := by
  cases skip <;> rfl

variable {candidates : Array NodeId} {skip : Option Nat}

theorem position_ne (skip : Option Nat) (i : Nat) : skip ≠ some (position skip i) := by
  cases skip with
  | none => nofun
  | some p =>
    rw [position, ne_eq, Option.some_inj]
    split <;> omega

theorem position_lt {i : Nat} (hi : i < choices candidates skip) : position skip i < candidates.size := by
  cases skip with
  | none => exact hi
  | some p =>
    replace hi : i < candidates.size - 1 := hi
    rw [position]
    split <;> omega

theorem position_inj {i j : Nat} (h : position skip i = position skip j) : i = j := by
  cases skip with
  | none => exact h
  | some p =>
    unfold position at h
    dsimp only at h
    split at h <;> split at h <;> omega

theorem exists_position {j : Nat} (hj : j < candidates.size) (hne : skip ≠ some j)
    (hskip : ∀ p, skip = some p → p < candidates.size) :
    ∃ i < choices candidates skip, position skip i = j := by
  cases skip with
  | none => exact ⟨j, hj, rfl⟩
  | some p =>
    have hp := hskip p rfl
    rw [ne_eq, Option.some_inj] at hne
    rcases Nat.lt_or_ge p j with hlt | hle
    · refine ⟨j - 1, Nat.sub_lt_sub_right (by omega) hj, ?_⟩
      rw [position, if_pos (by omega), Nat.sub_add_cancel (by omega)]
    · exact ⟨j, Nat.lt_sub_of_add_lt (by omega), if_neg (by omega)⟩

/-- Each value that a draw can have stands for an admissible node, and each admissible node has one value
that stands for it. -/
theorem bijOn_admitted (population : List NodeId) (exclusion : SelfExclusion) (query : NodeId) :
    let candidates := population.eraseDups.toArray
    let skip := excludedPosition? candidates query exclusion
    Set.BijOn (admitted candidates skip) (Set.Iio (choices candidates skip))
      {node | Admissible population exclusion query node} := by
  intro candidates skip
  have hnodup : population.eraseDups.Nodup := nodup_eraseDups population
  have hleft : LeftOut population exclusion query skip :=
    leftOut_excludedPosition? population exclusion query
  have hlt : ∀ i ∈ Set.Iio (choices candidates skip), position skip i < population.eraseDups.length :=
    fun i hi => position_lt hi
  have hget : ∀ i (hi : position skip i < population.eraseDups.length),
      admitted candidates skip i = population.eraseDups[position skip i] :=
    fun i hi => (admitted_eq candidates skip i).trans (getD_toArray hi)
  -- a value stands for its position, which no other value has, and the positions for the candidates
  refine ⟨fun i hi => ?_, fun i hi j hj heq => ?_, fun node hnode => ?_⟩
  · rw [hget i (hlt i hi)]
    exact hleft.admissible_getElem (hlt i hi) (position_ne skip i)
  · rw [hget i (hlt i hi), hget j (hlt j hj)] at heq
    exact position_inj (hnodup.getElem_inj_iff.1 heq)
  · obtain ⟨j, hj, rfl⟩ := List.mem_iff_getElem.1 (List.mem_eraseDups.2 hnode.1)
    have hlt' : j < candidates.size := hj
    obtain ⟨i, hi, hposition⟩ := exists_position hlt' (hleft.ne_of_admissible hj hnode)
      fun p hp => (hp ▸ hleft).one_lt.1
    refine ⟨i, hi, ?_⟩
    rw [hget i (hlt i hi)]
    simp only [hposition]

/-! ## The list of a query -/

def drawValues (count bound : Nat) : Keystream → List Nat × Keystream :=
  mapDraws (fun _ s => below .long bound s) (List.replicate count ())

theorem length_drawValues (count bound : Nat) (s : Keystream) :
    (drawValues count bound s).1.length = count := by
  rw [drawValues, length_mapDraws, List.length_replicate]

theorem drawValues_lt {bound : Nat} (h : 0 < bound) (s : Keystream) :
    ∀ i ∈ (drawValues count bound s).1, i < bound :=
  forall_mem_mapDraws (fun _ _ s => below_lt .long h s) s

/-- A list of the candidates that draws from some state of the random stream stand for. -/
def ReadOff (candidates : Array NodeId) (skip : Option Nat) (count : Nat) (list : List NodeId) : Prop :=
  ∃ s, list = (drawValues count (choices candidates skip) s).1.map (admitted candidates skip)

theorem draw_eq (count : Nat) (candidates : Array NodeId) (exclusion : SelfExclusion) (query : NodeId)
    (s : Keystream) :
    draw count candidates exclusion query s
      = let skip := excludedPosition? candidates query exclusion
        let values := drawValues count (choices candidates skip) s
        (values.1.map (admitted candidates skip), values.2) :=
  mapDraws_map _ _ s

theorem choices_pos (hpopulation : population ≠ []) :
    0 < choices population.eraseDups.toArray
      (excludedPosition? population.eraseDups.toArray query exclusion) := by
  have hleft := leftOut_excludedPosition? population exclusion query
  generalize excludedPosition? _ _ _ = skip at hleft
  cases skip with
  | none => exact length_eraseDups_pos hpopulation
  | some p => exact Nat.sub_pos_of_lt hleft.one_lt.2

theorem admissible_of_mem_draw (hpopulation : population ≠ []) (s : Keystream) :
    ∀ node ∈ (draw count population.eraseDups.toArray exclusion query s).1,
      Admissible population exclusion query node := by
  rw [draw_eq]
  intro node hnode
  obtain ⟨i, hi, rfl⟩ := List.mem_map.1 hnode
  exact (bijOn_admitted population exclusion query).mapsTo (drawValues_lt (choices_pos hpopulation) s i hi)

theorem length_draw (candidates : Array NodeId) (s : Keystream) :
    (draw count candidates exclusion query s).1.length = count := by
  rw [draw_eq, List.length_map, length_drawValues]

/-! ## Requests -/

theorem negatives_eq (u : UniformSampler) (count : Nat) (population queries : List NodeId) :
    NegativeSampler.negatives count population queries u
      = let r := answer count population queries
          (.ok (draw count population.eraseDups.toArray u.exclusion)) u.stream
        (r.1, { u with stream := r.2 }) := by
  rw [← distinctCounts_nodes]
  rfl

theorem serves_draw {u : UniformSampler} (hpopulation : population ≠ []) (s : Keystream) :
    Serves population u.exclusion count query
      (draw count population.eraseDups.toArray u.exclusion query s).1 :=
  .of_admissible (length_draw _ s) (admissible_of_mem_draw hpopulation s)

theorem serves_of_count_eq_zero {u : UniformSampler} (hcount : count = 0) (query : NodeId) :
    Serves population u.exclusion count query [] := hcount ▸ serves_nil

theorem forall₂_serves {u u' : UniformSampler} {lists : List (List NodeId)}
    (h : NegativeSampler.negatives count population queries u = (.ok lists, u')) :
    List.Forall₂ (Serves population u.exclusion count) queries lists := by
  rw [negatives_eq] at h
  have hanswer := congrArg Prod.fst h
  exact forall₂_of_answer serves_of_count_eq_zero (fun hpopulation query s => serves_draw hpopulation s)
    (Prod.ext hanswer rfl)

theorem exists_negatives {u : UniformSampler} {P : NodeId → List NodeId → Prop}
    (hfits : fits count 8 = true) (hsome : ¬ (0 < count ∧ queries ≠ [] ∧ population = []))
    (hnone : count = 0 → ∀ query, P query [])
    (hdraw : population ≠ [] → ∀ query s,
      P query (draw count population.eraseDups.toArray u.exclusion query s).1) :
    ∃ lists u', NegativeSampler.negatives count population queries u = (.ok lists, u')
      ∧ List.Forall₂ P queries lists := by
  obtain ⟨lists, s, hanswer, hlists⟩ := exists_answer hfits hsome hnone hdraw u.stream
  refine ⟨lists, { u with stream := s }, ?_, hlists⟩
  rw [negatives_eq, hanswer]

/-- Whatever the state of the random stream, a request that has room is an error if something is to be drawn
from no one, and otherwise gives each query its list: the candidates that so many bounded draws stand for.
The values of such a draw correspond one to one to the admissible nodes. Of the population only the distinct
nodes in first-seen order matter. -/
theorem negatives_fair (u : UniformSampler) (hfits : fits count 8 = true)
    (population queries : List NodeId) :
    let candidates := population.eraseDups.toArray
    let skip := fun query => excludedPosition? candidates query u.exclusion
    ((∃ e u', NegativeSampler.negatives count population queries u = (.error (.error e), u'))
        ↔ 0 < count ∧ queries ≠ [] ∧ population = [])
      ∧ (¬ (0 < count ∧ queries ≠ [] ∧ population = []) →
        ∃ lists u', NegativeSampler.negatives count population queries u = (.ok lists, u')
          ∧ List.Forall₂ (fun query list => Serves population u.exclusion count query list
            ∧ ReadOff candidates (skip query) count list) queries lists)
      ∧ (∀ query, Set.BijOn (admitted candidates (skip query)) (Set.Iio (choices candidates (skip query)))
        {node | Admissible population u.exclusion query node})
      ∧ ∀ other, other.eraseDups = population.eraseDups →
        NegativeSampler.negatives count other queries u
          = NegativeSampler.negatives count population queries u := by
  intro candidates skip
  have hlists : ¬ (0 < count ∧ queries ≠ [] ∧ population = []) →
      ∃ lists u', NegativeSampler.negatives count population queries u = (.ok lists, u')
        ∧ List.Forall₂ (fun query list => Serves population u.exclusion count query list
          ∧ ReadOff candidates (skip query) count list) queries lists := by
    intro hsome
    refine exists_negatives hfits hsome (fun hcount query => ?_) fun hpopulation query s =>
      ⟨serves_draw hpopulation s, s, by rw [draw_eq]⟩
    subst hcount
    exact ⟨serves_nil, u.stream, rfl⟩
  refine ⟨exists_error_iff hlists fun hempty => ?_, hlists, bijOn_admitted population u.exclusion,
    fun other hother => ?_⟩
  · exact ⟨_, _, by rw [negatives_eq, answer_of_empty hempty]⟩
  · have hnil : other = [] ↔ population = [] := by
      rw [← eraseDups_eq_nil_iff, hother, eraseDups_eq_nil_iff]
    -- the population is looked at for its distinct nodes, and for whether it has any
    rw [negatives_eq, negatives_eq, hother]
    unfold answer
    simp only [hnil]

/-- A query between repeated members is left out, one that is no member is not, and the second of three
candidates is skipped by the values. -/
theorem negatives_fair_repeatedMembers : fits 2 8 = true
    ∧ (∃ lists u', NegativeSampler.negatives 2 [10, 11, 10, 12, 11] [11, 99] ({} : UniformSampler)
        = (.ok lists, u') ∧ List.Forall₂ (Serves [10, 11, 10, 12, 11] .excludeQuery 2) [11, 99] lists)
    ∧ Set.BijOn (admitted #[10, 11, 12] (some 1)) (Set.Iio 2)
      {node | Admissible [10, 11, 10, 12, 11] .excludeQuery 11 node} := by
  obtain ⟨-, hlists, hbij, -⟩ :=
    negatives_fair {} (show fits 2 8 = true by decide) [10, 11, 10, 12, 11] [11, 99]
  obtain ⟨lists, u', hok, hserves⟩ := hlists (by simp)
  have hcandidates : ([10, 11, 10, 12, 11] : List NodeId).eraseDups.toArray = #[10, 11, 12] := by decide
  have hskip : excludedPosition? #[10, 11, 12] 11 .excludeQuery = some 1 := by
    rw [excludedPosition?, if_neg (by decide), List.findIdx?_toArray]
    rfl
  have hadmitted := hbij 11
  dsimp only at hadmitted
  rw [hcandidates, hskip] at hadmitted
  exact ⟨by decide, ⟨lists, u', hok, hserves.imp fun _ _ h => h.1⟩, hadmitted⟩

end BipartiteBatch.UniformSampler
