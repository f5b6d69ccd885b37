import BipartiteBatch.Number.Binary
import Mathlib.Tactic.Ring

/-!
# The order of 64-bit floats

The bits of the floats that are not negative number them in ascending order. A float is a mantissa of 53
bits times a power of two of the least unit, and its number is `shift * 2 ^ 52 + mantissa`: the mantissa
fills its bits unless the power is the first, and then its leading bit counts as one more step of the power.
Rounding to the nearest float keeps the order, and keeps what is a float.

* `roundHalfEven_mono` : the natural number next to a fraction, in order;
* `Fits`, `rank` : a mantissa and its power, and the number of their float;
* `unitsOf` : the value of a float by its number;
* `nearestRank` : the number of the float next to a value, `nearestRank_mono`, `nearestRank_unitsOf`.
-/

namespace BipartiteBatch.Number

/-! ## The nearest natural number -/

variable {u v d : Nat}

theorem div_le_roundHalfEven (u d : Nat) : u / d ≤ roundHalfEven u d := by
  unfold roundHalfEven
  dsimp only
  split_ifs <;> omega

theorem roundHalfEven_le (u d : Nat) : roundHalfEven u d ≤ u / d + 1 := by
  unfold roundHalfEven
  dsimp only
  split_ifs <;> omega

theorem roundHalfEven_mul (m : Nat) (hd : 0 < d) : roundHalfEven (m * d) d = m := by
  unfold roundHalfEven
  dsimp only
  rw [Nat.mul_div_cancel m hd, Nat.mul_mod_left, if_pos (by omega)]

theorem roundHalfEven_mul_mul (u d : Nat) {c : Nat} (hc : 0 < c) :
    roundHalfEven (u * c) (d * c) = roundHalfEven u d := by
  have hrest : u * c % (d * c) = u % d * c := Nat.mul_mod_mul_right c u d
  have hlt : 2 * (u % d * c) < d * c ↔ 2 * (u % d) < d := by
    rw [← Nat.mul_assoc]
    exact Nat.mul_lt_mul_right hc
  have hgt : d * c < 2 * (u % d * c) ↔ d < 2 * (u % d) := by
    rw [← Nat.mul_assoc]
    exact Nat.mul_lt_mul_right hc
  unfold roundHalfEven
  dsimp only
  simp only [Nat.mul_div_mul_right u d hc, hrest, hlt, hgt]

theorem roundHalfEven_mono (huv : u ≤ v) : roundHalfEven u d ≤ roundHalfEven v d := by
  rcases Nat.lt_or_eq_of_le (Nat.div_le_div_right (c := d) huv) with hlt | heq
  · exact (roundHalfEven_le u d).trans (Nat.le_trans hlt (div_le_roundHalfEven v d))
  · -- the same whole part, so the remainders are in order
    have hu := Nat.div_add_mod u d
    have hv := Nat.div_add_mod v d
    rw [← heq] at hv
    have hrest : u % d ≤ v % d := by omega
    unfold roundHalfEven
    dsimp only
    rw [← heq]
    split_ifs <;> omega

/-! ## Mantissas and powers -/

/-- A mantissa that has at most 53 bits, and has them all unless the power is the first. -/
structure Fits (mantissa shift : Nat) : Prop where
  lt : mantissa < 2 ^ 53
  full : shift = 0 ∨ 2 ^ 52 ≤ mantissa

/-- The number of a float in ascending order. -/
def rank (mantissa shift : Nat) : Nat := shift * 2 ^ 52 + mantissa

variable {m m' k k' : Nat}

/-- Floats are in order by their powers and then by their mantissas. -/
theorem Fits.rank_le_iff (h : Fits m k) (h' : Fits m' k') :
    rank m k ≤ rank m' k' ↔ k < k' ∨ k = k' ∧ m ≤ m' := by
  have hm := h.lt
  have hm' := h'.lt
  have hfull := h.full
  have hfull' := h'.full
  unfold rank
  omega

theorem exists_fits (r : Nat) : ∃ m k, Fits m k ∧ rank m k = r := by
  unfold rank
  by_cases h : r < 2 ^ 52
  · exact ⟨r, 0, ⟨by omega, .inl rfl⟩, by omega⟩
  · exact ⟨r % 2 ^ 52 + 2 ^ 52, r / 2 ^ 52 - 1, ⟨by omega, .inr (by omega)⟩, by omega⟩

/-- The value of a float in least units, by its number. -/
def unitsOf (r : Nat) : Nat :=
  if r < 2 ^ 52 then r else (r % 2 ^ 52 + 2 ^ 52) * 2 ^ (r / 2 ^ 52 - 1)

theorem Fits.unitsOf_rank (h : Fits m k) : unitsOf (rank m k) = m * 2 ^ k := by
  have hm := h.lt
  unfold unitsOf rank
  by_cases hfull : 2 ^ 52 ≤ m
  · have hmod : (k * 2 ^ 52 + m) % 2 ^ 52 + 2 ^ 52 = m := by omega
    have hdiv : (k * 2 ^ 52 + m) / 2 ^ 52 - 1 = k := by omega
    rw [if_neg (by omega), hmod, hdiv]
  · obtain rfl := h.full.resolve_right hfull
    rw [if_pos (by omega)]
    omega

theorem unitsOf_zero : unitsOf 0 = 0 := rfl

theorem unitsOf_mono {r s : Nat} (hrs : r ≤ s) : unitsOf r ≤ unitsOf s := by
  obtain ⟨m, k, h, rfl⟩ := exists_fits r
  obtain ⟨m', k', h', rfl⟩ := exists_fits s
  rw [h.unitsOf_rank, h'.unitsOf_rank]
  rcases (h.rank_le_iff h').1 hrs with hlt | ⟨rfl, hle⟩
  · have hfull : 2 ^ 52 ≤ m' := h'.full.resolve_left (by omega)
    calc m * 2 ^ k ≤ 2 ^ 53 * 2 ^ k := Nat.mul_le_mul_right _ h.lt.le
      _ = 2 ^ 52 * 2 ^ (k + 1) := by ring
      _ ≤ m' * 2 ^ k' := Nat.mul_le_mul hfull (Nat.pow_le_pow_right (by decide) hlt)
  · exact Nat.mul_le_mul_right _ hle

/-! ## The nearest float -/

/-- The power for the value `u` where `2 ^ j` make a least unit. -/
def shiftOf (j u : Nat) : Nat := u.log2 - (52 + j)

/-- The number of the float next to the value `u` where `2 ^ j` make a least unit. -/
def nearestRank (j u : Nat) : Nat :=
  rank (roundHalfEven u (2 ^ (shiftOf j u + j))) (shiftOf j u)

theorem log2_mono (huv : u ≤ v) : u.log2 ≤ v.log2 := by
  rcases Nat.eq_zero_or_pos u with rfl | hu
  · exact Nat.zero_le _
  · exact (Nat.le_log2 (by omega)).2 ((Nat.log2_self_le (by omega)).trans huv)

theorem log2_mul_two_pow (hm : m ≠ 0) (k : Nat) : (m * 2 ^ k).log2 = m.log2 + k := by
  induction k with
  | zero => rw [Nat.pow_zero, Nat.mul_one, Nat.add_zero]
  | succ k ih =>
    have hpos : m * 2 ^ k ≠ 0 := Nat.mul_ne_zero hm (Nat.two_pow_pos k).ne'
    have hdouble : m * 2 ^ (k + 1) = 2 * (m * 2 ^ k) := by ring
    rw [hdouble, Nat.log2_two_mul hpos, ih, Nat.add_assoc]

theorem log2_le_of_lt (hm : m < 2 ^ 53) : m.log2 ≤ 52 := by
  rcases Nat.eq_zero_or_pos m with rfl | hpos
  · decide
  · exact Nat.le_of_lt_succ ((Nat.log2_lt hpos.ne').2 hm)

theorem roundHalfEven_le_of_shiftOf (j u : Nat) :
    roundHalfEven u (2 ^ (shiftOf j u + j)) ≤ 2 ^ 53 := by
  have hlt : u < 2 ^ (u.log2 + 1) := Nat.lt_log2_self
  have hle : u ≤ 2 ^ 53 * 2 ^ (shiftOf j u + j) := by
    rw [← Nat.pow_add]
    refine hlt.le.trans (Nat.pow_le_pow_right (by decide) ?_)
    unfold shiftOf
    omega
  calc roundHalfEven u (2 ^ (shiftOf j u + j))
      ≤ roundHalfEven (2 ^ 53 * 2 ^ (shiftOf j u + j)) (2 ^ (shiftOf j u + j)) := roundHalfEven_mono hle
    _ = 2 ^ 53 := roundHalfEven_mul _ (Nat.two_pow_pos _)

/-- The rounded mantissa fills its bits above the first power. -/
theorem le_roundHalfEven_of_shiftOf {j u : Nat} (h : 0 < shiftOf j u) :
    2 ^ 52 ≤ roundHalfEven u (2 ^ (shiftOf j u + j)) := by
  have hu : u ≠ 0 := by
    rintro rfl
    simp [shiftOf] at h
  have hle : 2 ^ 52 * 2 ^ (shiftOf j u + j) ≤ u := by
    rw [← Nat.pow_add]
    refine (Nat.pow_le_pow_right (by decide) ?_).trans (Nat.log2_self_le hu)
    unfold shiftOf at h ⊢
    omega
  calc 2 ^ 52 = roundHalfEven (2 ^ 52 * 2 ^ (shiftOf j u + j)) (2 ^ (shiftOf j u + j)) :=
        (roundHalfEven_mul _ (Nat.two_pow_pos _)).symm
    _ ≤ roundHalfEven u (2 ^ (shiftOf j u + j)) := roundHalfEven_mono hle

theorem nearestRank_mono {j : Nat} (huv : u ≤ v) : nearestRank j u ≤ nearestRank j v := by
  have hshift : shiftOf j u ≤ shiftOf j v := Nat.sub_le_sub_right (log2_mono huv) _
  unfold nearestRank rank
  rcases Nat.lt_or_eq_of_le hshift with hlt | heq
  · have hu := roundHalfEven_le_of_shiftOf j u
    have hv := le_roundHalfEven_of_shiftOf (Nat.zero_lt_of_lt hlt)
    omega
  · rw [heq]
    exact Nat.add_le_add_left (roundHalfEven_mono huv) _

theorem nearestRank_unitsOf (r : Nat) : nearestRank 0 (unitsOf r) = r := by
  obtain ⟨m, k, h, rfl⟩ := exists_fits r
  rw [h.unitsOf_rank]
  have hshift : shiftOf 0 (m * 2 ^ k) = k := by
    have hlog := log2_le_of_lt h.lt
    unfold shiftOf
    rcases h.full with rfl | hfull
    · rw [Nat.pow_zero, Nat.mul_one]
      omega
    · have hm : m ≠ 0 := by omega
      have hle := (Nat.le_log2 hm).2 hfull
      rw [log2_mul_two_pow hm]
      omega
  rw [nearestRank, hshift, Nat.add_zero, roundHalfEven_mul m (Nat.two_pow_pos k)]

theorem nearestRank_zero (j : Nat) : nearestRank j 0 = 0 := by
  have hshift : shiftOf j 0 = 0 := Nat.zero_sub _
  have hmantissa : ∀ d, 0 < d → roundHalfEven 0 d = 0 := by
    intro d hd
    have hnone := roundHalfEven_mul 0 hd
    rwa [Nat.zero_mul] at hnone
  rw [nearestRank, hmantissa _ (Nat.two_pow_pos _), hshift, rank, Nat.zero_mul]

/-- A value is not rounded below a float that it is not below. -/
theorem le_nearestRank {r : Nat} (h : unitsOf r ≤ u) : r ≤ nearestRank 0 u := by
  have hmono := nearestRank_mono (j := 0) h
  rwa [nearestRank_unitsOf] at hmono

end BipartiteBatch.Number
