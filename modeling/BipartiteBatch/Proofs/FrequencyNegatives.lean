import BipartiteBatch.Negative.Frequency
import BipartiteBatch.Proofs.Candidates
import BipartiteBatch.Proofs.Magnitudes

/-!
# Negatives by frequency

A point below the total of the weights falls to a candidate whose weight is not zero: the sums grow with each
weight and stay where a weight is zero, so that the first sum above the point is one that grew. Hence a query
whose weight is set to zero is not drawn, wherever it stands among the candidates. What is left of the total
without it is finite and above zero, and every draw is a point below it.

* `Accepted` : weights that a choice can be made by;
* `sumsFrom`, `WeightTable.ofWeights_cons` : the sums of a table of weights;
* `Accepted.pick_pos` : a point falls to a candidate with a weight;
* `FrequencySampler.point_lt` : a draw is a point below the total;
* `FrequencySampler.weightsFor`, `FrequencySampler.accepted_weightsFor` : the weights for a query;
* `FrequencySampler.ReadOff` : a list of the candidates that points fall to, `FrequencySampler.forall₂_readOff` :
  the lists of a request are such;
* `FrequencySampler.negatives_served` : a request.
-/

namespace BipartiteBatch

open Draw Number

/-! ## Sums of weights -/

/-- The sums before each weight, beginning with one. -/
def sumsFrom (sum : Float) : List Float → List Float
  | [] => []
  | w :: ws => sum :: sumsFrom (sum + w) ws

namespace WeightTable

theorem foldl_sums (ws : List Float) (t : WeightTable) :
    ws.foldl (fun t w => { before := t.before.push t.total, total := t.total + w }) t
      = ⟨t.before ++ (sumsFrom t.total ws).toArray, ws.foldl (· + ·) t.total⟩ := by
  induction ws generalizing t with
  | nil => simp [sumsFrom]
  | cons w ws ih =>
    rw [List.foldl_cons, ih]
    simp [sumsFrom]

theorem ofWeights_cons (w : Float) (ws : List Float) :
    ofWeights (w :: ws) = ⟨(sumsFrom w ws).toArray, ws.foldl (· + ·) w⟩ := by
  rw [ofWeights, foldl_sums, Array.empty_append]

end WeightTable

variable {sum c w : Float} {ws : List Float}

theorem unsigned_foldl (hsum : Unsigned sum) (hws : ∀ w ∈ ws, Unsigned w) :
    Unsigned (ws.foldl (· + ·) sum) := by
  induction ws generalizing sum with
  | nil => exact hsum
  | cons w ws ih =>
    rw [List.forall_mem_cons] at hws
    exact ih (hsum.add hws.1) hws.2

theorem le_foldl (hsum : Unsigned sum) (hws : ∀ w ∈ ws, Unsigned w) :
    rankOf sum ≤ rankOf (ws.foldl (· + ·) sum) := by
  induction ws generalizing sum with
  | nil => exact Nat.le_refl _
  | cons w ws ih =>
    rw [List.forall_mem_cons] at hws
    exact (hsum.le_add_right hws.1).trans (ih (hsum.add hws.1) hws.2)

/-- Before a sum above the point no sum is counted. -/
theorem countP_sumsFrom_of_lt (hpoint : Unsigned c) (hsum : Unsigned sum)
    (hws : ∀ w ∈ ws, Unsigned w) (hlt : rankOf c < rankOf sum) :
    (sumsFrom sum ws).countP (fun s => s ≤ c) = 0 := by
  induction ws generalizing sum with
  | nil => rfl
  | cons w ws ih =>
    rw [List.forall_mem_cons] at hws
    have hnot : ¬ sum ≤ c := by
      rw [hsum.le_iff hpoint]
      exact Nat.not_le.2 hlt
    rw [sumsFrom, List.countP_cons_of_neg (by simpa using hnot)]
    exact ih (hsum.add hws.1) hws.2 (hlt.trans_le (hsum.le_add_right hws.1))

/-- From a sum not above the point on, the sums that are not above it are counted up to one that the next
weight lifts above it. -/
theorem exists_countP_sumsFrom (hpoint : Unsigned c) (hsum : Unsigned sum)
    (hws : ∀ w ∈ ws, Unsigned w) (hle : rankOf sum ≤ rankOf c)
    (hlt : rankOf c < rankOf (ws.foldl (· + ·) sum)) :
    ∃ (i : Nat) (w : Float), (sumsFrom sum ws).countP (fun s => s ≤ c) = i + 1
      ∧ ws[i]? = some w ∧ 0 < rankOf w := by
  induction ws generalizing sum with
  | nil => exact absurd hlt (Nat.not_lt.2 hle)
  | cons w ws ih =>
    rw [List.forall_mem_cons] at hws
    have hnext : Unsigned (sum + w) := hsum.add hws.1
    rw [sumsFrom, List.countP_cons_of_pos (by simpa using (hsum.le_iff hpoint).2 hle)]
    rcases Nat.lt_or_ge (rankOf c) (rankOf (sum + w)) with habove | hbelow
    · rw [countP_sumsFrom_of_lt hpoint hnext hws.2 habove]
      refine ⟨0, w, rfl, rfl, Nat.pos_of_ne_zero fun hzero => ?_⟩
      -- a zero would not have lifted the sum
      obtain rfl : w = 0 := eq_of_rankOf (hzero.trans rankOf_zero.symm)
      rw [hsum.add_zero] at habove
      exact Nat.not_lt.2 hle habove
    · obtain ⟨i, w', hcount, hget, hpos⟩ := ih hnext hws.2 hbelow hlt
      exact ⟨i + 1, w', by rw [hcount], hget, hpos⟩

/-! ## Choices by weights -/

/-- Weights that a choice can be made by: none is negative, and their total is finite and above zero. -/
structure Accepted (ws : List Float) : Prop where
  unsigned : ∀ w ∈ ws, Unsigned w
  finite : (WeightTable.ofWeights ws).total.isFinite = true
  pos : 0 < (WeightTable.ofWeights ws).total

theorem unsigned_total (hws : ∀ w ∈ ws, Unsigned w) : Unsigned (WeightTable.ofWeights ws).total := by
  cases ws with
  | nil => exact unsigned_zero
  | cons w ws =>
    rw [WeightTable.ofWeights_cons]
    rw [List.forall_mem_cons] at hws
    exact unsigned_foldl hws.1 hws.2

/-- A point below the total falls to a candidate with a weight above zero. -/
theorem Accepted.pick_pos (h : Accepted ws) (hpoint : Unsigned c)
    (hlt : rankOf c < rankOf (WeightTable.ofWeights ws).total) :
    ∃ w, ws[(WeightTable.ofWeights ws).pick c]? = some w ∧ 0 < rankOf w := by
  have hws := h.unsigned
  cases ws with
  | nil => exact absurd hlt (Nat.not_lt.2 (rankOf_zero.trans_le (Nat.zero_le _)))
  | cons w ws =>
    rw [List.forall_mem_cons] at hws
    rw [WeightTable.ofWeights_cons] at hlt ⊢
    show ∃ w', (w :: ws)[(sumsFrom w ws).toArray.countP fun s => s ≤ c]? = some w' ∧ _
    rw [List.countP_toArray]
    rcases Nat.lt_or_ge (rankOf c) (rankOf w) with habove | hbelow
    · rw [countP_sumsFrom_of_lt hpoint hws.1 hws.2 habove]
      exact ⟨w, rfl, Nat.zero_lt_of_lt habove⟩
    · obtain ⟨i, w', hcount, hget, hpos⟩ := exists_countP_sumsFrom hpoint hws.1 hws.2 hbelow hlt
      rw [hcount]
      exact ⟨w', hget, hpos⟩

/-! ## Totals -/

theorem foldl_le_foldl {sum' : Float} {ws' : List Float} (hsum : Unsigned sum) (hsum' : Unsigned sum')
    (hws : ∀ w ∈ ws, Unsigned w) (hws' : ∀ w ∈ ws', Unsigned w) (hle : rankOf sum ≤ rankOf sum')
    (h : List.Forall₂ (fun w w' => rankOf w ≤ rankOf w') ws ws') :
    rankOf (ws.foldl (· + ·) sum) ≤ rankOf (ws'.foldl (· + ·) sum') := by
  induction h generalizing sum sum' with
  | nil => exact hle
  | cons hw _ ih =>
    rw [List.forall_mem_cons] at hws hws'
    have hnext := hsum.add_le_add hws.1 hsum' hws'.1 hle hw
    exact ih (hsum.add hws.1) (hsum'.add hws'.1) hws.2 hws'.2 hnext

theorem total_le_total {ws' : List Float} (hws : ∀ w ∈ ws, Unsigned w) (hws' : ∀ w ∈ ws', Unsigned w)
    (h : List.Forall₂ (fun w w' => rankOf w ≤ rankOf w') ws ws') :
    rankOf (WeightTable.ofWeights ws).total ≤ rankOf (WeightTable.ofWeights ws').total := by
  cases h with
  | nil => exact Nat.le_refl _
  | cons hw hrest =>
    rw [List.forall_mem_cons] at hws hws'
    rw [WeightTable.ofWeights_cons, WeightTable.ofWeights_cons]
    exact foldl_le_foldl hws.1 hws'.1 hws.2 hws'.2 hw hrest

theorem le_foldl_of_mem (hsum : Unsigned sum) (hws : ∀ w ∈ ws, Unsigned w) (hw : w ∈ ws) :
    rankOf w ≤ rankOf (ws.foldl (· + ·) sum) := by
  induction ws generalizing sum with
  | nil => cases hw
  | cons w' ws ih =>
    rw [List.forall_mem_cons] at hws
    rcases List.mem_cons.1 hw with rfl | hw
    · exact (hsum.le_add_left hws.1).trans (le_foldl (hsum.add hws.1) hws.2)
    · exact ih (hsum.add hws.1) hws.2 hw

/-- The total is not below any weight. -/
theorem le_total (hws : ∀ w ∈ ws, Unsigned w) (hw : w ∈ ws) :
    rankOf w ≤ rankOf (WeightTable.ofWeights ws).total := by
  cases ws with
  | nil => cases hw
  | cons w' ws =>
    rw [List.forall_mem_cons] at hws
    rw [WeightTable.ofWeights_cons]
    rcases List.mem_cons.1 hw with rfl | hw
    · exact le_foldl hws.1 hws.2
    · exact le_foldl_of_mem hws.1 hws.2 hw

theorem rankOf_pos (hw : 0 < w) : 0 < rankOf w := by
  have hlt := (unsigned_zero.lt_iff (.of_pos hw)).1 hw
  rwa [rankOf_zero] at hlt

/-- Weights are accepted if none is negative, one is above zero and the total is finite. -/
theorem accepted_of_mem (hws : ∀ w ∈ ws, Unsigned w)
    (hfinite : (WeightTable.ofWeights ws).total.isFinite = true) (hw : w ∈ ws) (hpos : 0 < w) :
    Accepted ws where
  unsigned := hws
  finite := hfinite
  pos := by
    rw [unsigned_zero.lt_iff (unsigned_total hws), rankOf_zero]
    exact (rankOf_pos hpos).trans_le (le_total hws hw)

namespace FrequencySampler

/-! ## Points -/

theorem unsigned_unit : Unsigned (Float.ofBits 0x3CB0000000000000)
    ∧ rankOf (Float.ofBits 0x3CB0000000000000) < infinityRank := by
  unfold Unsigned
  rw [rankOf_ofBits (by decide)]
  decide

theorem fraction_le (v : UInt64) : Unsigned (fraction v) ∧ rankOf (fraction v) ≤ rankOf maxFraction := by
  obtain ⟨hunit, hunit'⟩ := unsigned_unit
  have hmax : rankOf ((0xFFFFFFFFFFFFFFFF : UInt64) >>> 12).toFloat < infinityRank := by decide
  have hle : rankOf (v >>> 12).toFloat ≤ rankOf ((0xFFFFFFFFFFFFFFFF : UInt64) >>> 12).toFloat := by
    apply toFloat_le_toFloat
    have hv : v.toNat < 2 ^ 64 := v.toNat_lt
    show v.toNat >>> 12 ≤ (2 ^ 64 - 1) >>> 12
    rw [Nat.shiftRight_eq_div_pow, Nat.shiftRight_eq_div_pow]
    exact Nat.div_le_div_right (Nat.le_pred_of_lt hv)
  exact ⟨(unsigned_toFloat _).mul hunit (hle.trans_lt hmax) hunit',
    (unsigned_toFloat _).mul_le_mul (unsigned_toFloat _) hunit hmax hunit' hle⟩

theorem maxFraction_finite : rankOf maxFraction < infinityRank := by decide

variable {total : Float}

/-- A scale of a total is finite, and no fraction of it is rounded up to the total. -/
theorem scaleFrom_spec (htotal : Unsigned total) (hpos : 0 < rankOf total) {bits : Nat}
    (hbits : bits < infinityRank) :
    Unsigned (scaleFrom total bits) ∧ rankOf (scaleFrom total bits) < infinityRank
      ∧ rankOf (maxFraction * scaleFrom total bits) < rankOf total := by
  have hmax : Unsigned maxFraction := (fraction_le _).1
  induction bits with
  | zero =>
    have hzero : rankOf (maxFraction * 0) = 0 := by decide
    rw [scaleFrom, hzero]
    exact ⟨unsigned_zero, rankOf_zero.trans_lt (by decide), hpos⟩
  | succ bits ih =>
    have hword : (UInt64.ofNat (bits + 1)).toNat = bits + 1 :=
      UInt64.toNat_ofNat_of_lt (hbits.trans (by decide))
    have hrank : rankOf (Float.ofBits (UInt64.ofNat (bits + 1))) = bits + 1 := by
      rw [rankOf_ofBits (hword.trans_le hbits.le), hword]
    have hscale : Unsigned (Float.ofBits (UInt64.ofNat (bits + 1))) := hrank.trans_le hbits.le
    have hfinite : rankOf (Float.ofBits (UInt64.ofNat (bits + 1))) < infinityRank := hrank.trans_lt hbits
    rw [scaleFrom]
    split
    · exact ih (Nat.lt_of_succ_lt hbits)
    · next hnot =>
      rw [htotal.le_iff (hmax.mul hscale maxFraction_finite hfinite), Nat.not_le] at hnot
      exact ⟨hscale, hfinite, hnot⟩

theorem point_lt (htotal : Unsigned total) (hfinite : rankOf total < infinityRank)
    (hpos : 0 < rankOf total) (s : Keystream) :
    Unsigned (point total s).1 ∧ rankOf (point total s).1 < rankOf total := by
  obtain ⟨hscale, hscale', hlt⟩ := scaleFrom_spec htotal hpos hfinite
  obtain ⟨hfraction, hle⟩ := fraction_le s.next64.1
  exact ⟨hfraction.mul hscale (hle.trans_lt maxFraction_finite) hscale',
    (hfraction.mul_le_mul (fraction_le _).1 hscale maxFraction_finite hscale' hle).trans_lt hlt⟩

/-! ## The list of a query -/

variable {population queries : List NodeId} {exclusion : SelfExclusion} {count : Nat} {query : NodeId}
  {skip : Option Nat}

def weightsFor (ws : List Float) : (skip : Option Nat) → List Float
  | some p => without p ws
  | none => ws

theorem length_weightsFor (ws : List Float) (skip : Option Nat) :
    (weightsFor ws skip).length = ws.length := by
  cases skip with
  | none => rfl
  | some p => exact List.length_set

theorem forall₂_without (p : Nat) (ws : List Float) :
    List.Forall₂ (fun w w' => rankOf w ≤ rankOf w') (without p ws) ws := by
  unfold without
  refine List.forall₂_iff_get.2 ⟨List.length_set, fun i hi hi' => ?_⟩
  rw [List.get_eq_getElem, List.get_eq_getElem, List.getElem_set]
  split
  · exact rankOf_zero.trans_le (Nat.zero_le _)
  · exact Nat.le_refl _

/-- Positive weights with a finite total are accepted for every query. -/
theorem accepted_weightsFor (hpositive : ∀ w ∈ ws, 0 < w)
    (hfinite : (WeightTable.ofWeights ws).total.isFinite = true)
    (hlength : ws.length = population.eraseDups.length) (hpopulation : population ≠ [])
    (hleft : LeftOut population exclusion query skip) : Accepted (weightsFor ws skip) := by
  have hws : ∀ w ∈ ws, Unsigned w := fun w hw => .of_pos (hpositive w hw)
  cases skip with
  | none =>
    have hpos : 0 < ws.length := hlength ▸ length_eraseDups_pos hpopulation
    exact accepted_of_mem hws hfinite (List.getElem_mem hpos) (hpositive _ (List.getElem_mem hpos))
  | some p =>
    have hunsigned : ∀ w ∈ without p ws, Unsigned w := by
      intro w hw
      rcases List.mem_or_eq_of_mem_set hw with hw | rfl
      · exact hws w hw
      · exact unsigned_zero
    -- the total without a weight is not above the one of all
    have hle := total_le_total hunsigned hws (forall₂_without p ws)
    rw [(unsigned_total hws).isFinite_iff] at hfinite
    -- and another weight is left in it
    have hone : 1 < ws.length := hlength ▸ hleft.one_lt.2
    obtain ⟨i, hi, hne⟩ : ∃ i < ws.length, p ≠ i := by
      by_cases hp : p = 0
      · exact ⟨1, hone, by omega⟩
      · exact ⟨0, by omega, hp⟩
    have hmem : ws[i] ∈ without p ws := by
      have hget : (without p ws)[i]? = some ws[i] := by
        rw [without, List.getElem?_set_ne hne, List.getElem?_eq_getElem hi]
      exact List.mem_of_getElem? hget
    exact accepted_of_mem hunsigned ((unsigned_total hunsigned).isFinite_iff.2 (hle.trans_lt hfinite)) hmem
      (hpositive _ (List.getElem_mem hi))

/-- The position that is left out has no weight above zero. -/
theorem ne_of_getElem?_weightsFor {i : Nat} (hget : (weightsFor ws skip)[i]? = some w)
    (hw : 0 < rankOf w) : skip ≠ some i := by
  rintro rfl
  obtain ⟨hi, -⟩ := List.getElem?_eq_some_iff.1 hget
  rw [length_weightsFor] at hi
  rw [weightsFor, without, List.getElem?_set_self hi] at hget
  obtain rfl := Option.some.inj hget
  rw [rankOf_zero] at hw
  exact Nat.lt_irrefl 0 hw

/-- A negative is a candidate whose weight is not zero, so it is admissible. -/
theorem admissible_drawOne (haccepted : Accepted (weightsFor ws skip))
    (hlength : ws.length = population.eraseDups.length)
    (hleft : LeftOut population exclusion query skip) (s : Keystream) :
    Admissible population exclusion query
      (drawOne population.eraseDups.toArray (.ofWeights (weightsFor ws skip)) s).1 := by
  have htotal := unsigned_total haccepted.unsigned
  have hfinite := htotal.isFinite_iff.1 haccepted.finite
  obtain ⟨hpoint, hlt⟩ := point_lt htotal hfinite (rankOf_pos haccepted.pos) s
  obtain ⟨w, hget, hw⟩ := haccepted.pick_pos hpoint hlt
  obtain ⟨hi, hget'⟩ := List.getElem?_eq_some_iff.1 hget
  have hskip := ne_of_getElem?_weightsFor hget hw
  rw [length_weightsFor, hlength] at hi
  show Admissible population exclusion query (population.eraseDups.toArray.getD _ 0)
  rw [getD_toArray hi]
  exact hleft.admissible_getElem hi hskip

theorem draw_eq (count : Nat) (candidates : Array NodeId) (ws : List Float) (exclusion : SelfExclusion)
    (query : NodeId) (s : Keystream) :
    draw count candidates ws (.ofWeights ws) exclusion query s
      = mapDraws (fun _ s => drawOne candidates
          (.ofWeights (weightsFor ws (excludedPosition? candidates query exclusion))) s)
        (List.replicate count ()) s := by
  unfold draw
  cases excludedPosition? candidates query exclusion <;> rfl

theorem serves_draw (hlength : ws.length = population.eraseDups.length)
    (haccepted : Accepted
      (weightsFor ws (excludedPosition? population.eraseDups.toArray query exclusion))) (s : Keystream) :
    Serves population exclusion count query
      (draw count population.eraseDups.toArray ws (.ofWeights ws) exclusion query s).1 := by
  rw [draw_eq]
  refine .of_admissible ?_ (forall_mem_mapDraws (fun _ _ s => ?_) s)
  · rw [length_mapDraws, List.length_replicate]
  · exact admissible_drawOne haccepted hlength (leftOut_excludedPosition? population exclusion query) s

def drawPoints (count : Nat) (total : Float) : Keystream → List Float × Keystream :=
  mapDraws (fun _ s => point total s) (List.replicate count ())

/-- A list of the candidates that the points from some state of the random stream fall to. -/
def ReadOff (candidates : Array NodeId) (t : WeightTable) (count : Nat) (list : List NodeId) : Prop :=
  ∃ s, list = (drawPoints count t.total s).1.map fun c => candidates.getD (t.pick c) 0

theorem readOff_draw (candidates : Array NodeId) (s : Keystream) :
    ReadOff candidates (.ofWeights (weightsFor ws (excludedPosition? candidates query exclusion))) count
      (draw count candidates ws (.ofWeights ws) exclusion query s).1 := by
  have hmap (t : WeightTable) :
      (mapDraws (fun _ s => drawOne candidates t s) (List.replicate count ()) s).1
        = (drawPoints count t.total s).1.map fun c => candidates.getD (t.pick c) 0 :=
    congrArg Prod.fst (mapDraws_map (f := fun _ s => point t.total s)
      (fun c => candidates.getD (t.pick c) 0) (List.replicate count ()) s)
  rw [draw_eq]
  exact ⟨s, hmap _⟩

theorem readOff_nil (candidates : Array NodeId) (t : WeightTable) : ReadOff candidates t 0 [] :=
  ⟨.ofSeed 0, rfl⟩

/-! ## Requests -/

/-- Each list of a request that is answered holds the candidates that points below the total of the weights
for its query fall to. -/
theorem forall₂_readOff {power : Float → Float → Float} {f f' : FrequencySampler}
    {lists : List (List NodeId)} (h : negativesBy power count population queries f = (.ok lists, f')) :
    let ws := weightsBy power f.temperature (distinctCounts population)
    let candidates := population.eraseDups.toArray
    List.Forall₂ (fun query list => ReadOff candidates
      (.ofWeights (weightsFor ws (excludedPosition? candidates query f.exclusion))) count list)
      queries lists := by
  intro ws candidates
  have hnone : count = 0 → ∀ query, ReadOff candidates
      (.ofWeights (weightsFor ws (excludedPosition? candidates query f.exclusion))) count [] := by
    rintro rfl query
    exact readOff_nil _ _
  unfold negativesBy at h
  dsimp only at h
  rw [distinctCounts_nodes] at h
  have hanswer := congrArg Prod.fst h
  by_cases hfinite : (WeightTable.ofWeights ws).total.isFinite = true
  · rw [if_pos hfinite] at hanswer
    exact forall₂_of_answer hnone (fun _ query s => readOff_draw candidates s) (Prod.ext hanswer rfl)
  · rw [if_neg hfinite] at hanswer
    exact forall₂_of_answer_error hnone (Prod.ext hanswer rfl)

theorem length_weightsBy (power : Float → Float → Float) (temperature : Float32)
    (population : List NodeId) :
    (weightsBy power temperature (distinctCounts population)).length = population.eraseDups.length := by
  rw [weightsBy, List.length_map, distinctCounts_eq, List.length_map]

/-- With a finite total a request is answered by draws. -/
theorem negativesBy_of_answer {power : Float → Float → Float} {f : FrequencySampler}
    (hws : weightsBy power f.temperature (distinctCounts population) = ws)
    (hfinite : (WeightTable.ofWeights ws).total.isFinite = true)
    {r : Except Failure (List (List NodeId))} {s : Keystream}
    (h : answer count population queries
      (.ok (draw count population.eraseDups.toArray ws (.ofWeights ws) f.exclusion)) f.stream = (r, s)) :
    negativesBy power count population queries f = (r, { f with stream := s }) := by
  subst hws
  unfold negativesBy
  dsimp only
  rw [distinctCounts_nodes, if_pos hfinite, h]

/-- Whatever the state of the random stream, and whatever power function gives positive weights with a finite
total, a request that has room is an error if something is to be drawn from no one, and otherwise gives each
query its list. For each query the weights are such that a choice can be made by them, also where its own is
set to zero. With the power of floats these are the negatives of the sampler. -/
theorem negatives_served (power : Float → Float → Float) (f : FrequencySampler)
    (hfits : fits count 8 = true) (population queries : List NodeId)
    (hpositive : ∀ w ∈ weightsBy power f.temperature (distinctCounts population), 0 < w)
    (hfinite : (WeightTable.ofWeights
      (weightsBy power f.temperature (distinctCounts population))).total.isFinite = true) :
    ((∃ e f', negativesBy power count population queries f = (.error (.error e), f'))
        ↔ 0 < count ∧ queries ≠ [] ∧ population = [])
      ∧ (¬ (0 < count ∧ queries ≠ [] ∧ population = []) →
        ∃ lists f', negativesBy power count population queries f = (.ok lists, f')
          ∧ List.Forall₂ (Serves population f.exclusion count) queries lists)
      ∧ (population ≠ [] → ∀ query, Accepted
        (weightsFor (weightsBy power f.temperature (distinctCounts population))
          (excludedPosition? population.eraseDups.toArray query f.exclusion))) := by
  have hlength := length_weightsBy power f.temperature population
  have haccepted : population ≠ [] → ∀ query, Accepted
      (weightsFor (weightsBy power f.temperature (distinctCounts population))
        (excludedPosition? population.eraseDups.toArray query f.exclusion)) :=
    fun hpopulation query => accepted_weightsFor hpositive hfinite hlength hpopulation
      (leftOut_excludedPosition? population f.exclusion query)
  have hlists : ¬ (0 < count ∧ queries ≠ [] ∧ population = []) →
      ∃ lists f', negativesBy power count population queries f = (.ok lists, f')
        ∧ List.Forall₂ (Serves population f.exclusion count) queries lists := by
    intro hsome
    obtain ⟨lists, s, hanswer, hserves⟩ := exists_answer hfits hsome (fun hcount _ => hcount ▸ serves_nil)
      (fun hpopulation query s => serves_draw hlength (haccepted hpopulation query) s) f.stream
    exact ⟨lists, _, negativesBy_of_answer rfl hfinite hanswer, hserves⟩
  refine ⟨exists_error_iff hlists fun hempty => ?_, hlists, haccepted⟩
  exact ⟨_, _, negativesBy_of_answer rfl hfinite (answer_of_empty hempty f.stream)⟩

/-- Counts of two, one and one as weights, with the first or the last of the three candidates left out. -/
theorem negatives_served_repeatedMember :
    let power : Float → Float → Float := fun x _ => x
    let ws := weightsBy power 1 (distinctCounts [10, 11, 10, 12])
    fits 2 8 = true ∧ (∀ w ∈ ws, 0 < w) ∧ (WeightTable.ofWeights ws).total.isFinite = true
      ∧ ∃ lists f', negativesBy power 2 [10, 11, 10, 12] [10, 12] { temperature := 1 } = (.ok lists, f')
        ∧ List.Forall₂ (Serves [10, 11, 10, 12] .excludeQuery 2) [10, 12] lists := by
  intro power ws
  have hws : ws = [Float.ofNat 2, Float.ofNat 1, Float.ofNat 1] := by
    show weightsBy power 1 (distinctCounts [10, 11, 10, 12]) = _
    rw [distinctCounts_eq]
    rfl
  have hpositive : ∀ w ∈ ws, 0 < w := by
    rw [hws]
    decide
  have hfinite : (WeightTable.ofWeights ws).total.isFinite = true := by
    rw [hws]
    decide
  have hserved := negatives_served power { temperature := 1 } (show fits 2 8 = true by decide)
    [10, 11, 10, 12] [10, 12] hpositive hfinite
  exact ⟨by decide, hpositive, hfinite, hserved.2.1 (by simp)⟩

end FrequencySampler

end BipartiteBatch
