import BipartiteBatch.Proofs.Rounding
import Mathlib.Tactic.Linarith

/-!
# 64-bit floats that are not negative

The bits of a float that is not negative are its number in ascending order, from zero to infinity. Sums and
products of such floats are the floats next to the exact ones, so they keep the order, and a sum is not
below its terms. All of this is read off the definitions of the operations: a mantissa is cut to its bits
and rounded by what was cut off.

* `Cut` : a mantissa with what tells how to round it;
* `infinityRank`, `toNat_pack_finite` : the bits of a finite float;
* `toNat_pack_roundWithAccuracy`, `toNat_pack_round` : the bits of a rounded value;
* `Shape`, `shape_unpack` : what the float with a number is, `Shape.compare_eq` : the order of such floats;
* `Shape.toNat_pack_add`, `Shape.toNat_pack_mul` : their arithmetic;
* `rankOf`, `Unsigned` : the number of a float, and floats that are not negative;
* `Unsigned.add_zero`, `Unsigned.le_add_right`, `Unsigned.add_le_add`, `Unsigned.mul_le_mul` : sums and
  products in order.
-/

namespace BipartiteBatch.Number

open Float.Model Float.Model.UnpackedFloat

/-! ## Cutting a mantissa -/

/-- The mantissa is `u` without its last `n` bits. The bits beside it tell whether what was cut off is at
least a half, and whether it is neither nothing nor a half. -/
structure Cut (em : ExtendedMantissa) (u n : Nat) : Prop where
  mantissa : em.mantissa = u / 2 ^ n
  roundBit : em.roundBit = decide (2 ^ n ≤ 2 * (u % 2 ^ n))
  stickyBit : em.stickyBit = decide (u % 2 ^ n ≠ 0 ∧ 2 * (u % 2 ^ n) ≠ 2 ^ n)

theorem Cut.shiftRightOne {em : ExtendedMantissa} {u n : Nat} (h : Cut em u n) :
    Cut em.shiftRightOne u (n + 1) := by
  have hpos : 0 < 2 ^ n := Nat.two_pow_pos n
  have hlt : u % 2 ^ n < 2 ^ n := Nat.mod_lt u hpos
  have hrest : u % 2 ^ (n + 1) = u % 2 ^ n + 2 ^ n * (u / 2 ^ n % 2) := by
    rw [Nat.pow_succ, Nat.mod_mul]
  have hbit : u / 2 ^ n % 2 = 0 ∨ u / 2 ^ n % 2 = 1 := by omega
  refine ⟨?_, ?_, ?_⟩
  · rw [ExtendedMantissa.shiftRightOne, h.mantissa, Nat.div_div_eq_div_mul, Nat.pow_succ]
  · rw [ExtendedMantissa.shiftRightOne, h.mantissa, hrest, Nat.pow_succ]
    rcases hbit with hbit | hbit <;> rw [hbit] <;> simp <;> omega
  · rw [ExtendedMantissa.shiftRightOne, h.roundBit, h.stickyBit, hrest, Nat.pow_succ,
      ← Bool.decide_or]
    apply decide_eq_decide.2
    rcases hbit with hbit | hbit <;> rw [hbit] <;> omega

theorem cut_exact (m : Nat) : Cut (.ofMantissaAndAccuracy m .exact) m 0 where
  mantissa := by rw [Nat.pow_zero, Nat.div_one, ExtendedMantissa.ofMantissaAndAccuracy]
  roundBit := by
    rw [Nat.pow_zero, Nat.mod_one]
    rfl
  stickyBit := by
    rw [Nat.pow_zero, Nat.mod_one]
    rfl

theorem cut_shiftRight (m n : Nat) : Cut (ExtendedMantissa.ofMantissaAndAccuracy m .exact >>> n) m n := by
  induction n with
  | zero => exact cut_exact m
  | succ n ih => exact ih.shiftRightOne

/-- The mantissa is rounded to the nearest. -/
theorem Cut.roundedMantissa {em : ExtendedMantissa} {u n : Nat} (h : Cut em u n) :
    em.roundedMantissa = roundHalfEven u (2 ^ n) := by
  obtain ⟨m, r, s⟩ := em
  obtain ⟨rfl, rfl, rfl⟩ := h
  have hpos : 0 < 2 ^ n := Nat.two_pow_pos n
  unfold roundHalfEven
  dsimp only
  rcases Nat.lt_trichotomy (2 * (u % 2 ^ n)) (2 ^ n) with hlt | heq | hgt
  · have hround : decide (2 ^ n ≤ 2 * (u % 2 ^ n)) = false := decide_eq_false (by omega)
    rw [hround, if_pos hlt]
    cases decide (u % 2 ^ n ≠ 0 ∧ 2 * (u % 2 ^ n) ≠ 2 ^ n) <;> rfl
  · have hround : decide (2 ^ n ≤ 2 * (u % 2 ^ n)) = true := decide_eq_true heq.ge
    have hsticky : decide (u % 2 ^ n ≠ 0 ∧ 2 * (u % 2 ^ n) ≠ 2 ^ n) = false :=
      decide_eq_false fun hne => hne.2 heq
    rw [hround, hsticky, if_neg heq.not_lt, if_neg heq.symm.not_lt]
    show u / 2 ^ n + u / 2 ^ n % 2 = _
    split <;> omega
  · have hround : decide (2 ^ n ≤ 2 * (u % 2 ^ n)) = true := decide_eq_true hgt.le
    have hsticky : decide (u % 2 ^ n ≠ 0 ∧ 2 * (u % 2 ^ n) ≠ 2 ^ n) = true :=
      decide_eq_true ⟨by omega, hgt.ne'⟩
    rw [hround, hsticky, if_neg hgt.not_gt, if_pos hgt]
    rfl

/-! ## Bits of finite floats -/

/-- The number of infinity. -/
def infinityRank : Nat := rank (2 ^ 52) 2046

variable {m k j : Nat}

theorem toNat_packComponents (e : BitVec 11) (m : BitVec 52) :
    (packComponents Format.binary64 .positive e m).toNat = e.toNat * 2 ^ 52 + m.toNat := by
  unfold packComponents
  simp only [Sign.toBitVec]
  rw [BitVec.toNat_append, BitVec.toNat_append, ← Nat.shiftLeft_add_eq_or_of_lt m.isLt, Nat.shiftLeft_eq]
  simp

/-- The bits of a finite float are its number. Beyond the largest float there is infinity. -/
theorem toNat_pack_finite (h : Fits m k) (hm : 0 < m) :
    (UnpackedFloat.pack Format.binary64 (.finite .positive m (k - 1074) hm)).toNat
      = min infinityRank (rank m k) := by
  have hlt := h.lt
  have hfull := h.full
  have hbiased : ((k : Int) - 1074 + Format.binary64.exponentBias + (52 : Nat)).toNat = k + 1 := by
    have hbias : Format.binary64.exponentBias = 1023 := rfl
    omega
  have hinfinity : infinityRank = 2047 * 2 ^ 52 := rfl
  unfold UnpackedFloat.pack rank
  dsimp only
  rw [hbiased, hinfinity]
  by_cases hlarge : 2 ^ 11 ≤ k + 1 + 1
  · rw [if_pos hlarge, packedInfinity, toNat_packComponents, Nat.min_eq_left (by omega)]
    rfl
  · rw [if_neg hlarge]
    have hbits : m.log2 + 1 = Format.binary64.mantissaBits ↔ 2 ^ 52 ≤ m := by
      rw [← Nat.le_log2 hm.ne']
      have hlog := log2_le_of_lt hlt
      have hprecision : Format.binary64.mantissaBits = 53 := rfl
      omega
    by_cases hnormal : 2 ^ 52 ≤ m
    · rw [if_pos (hbits.2 hnormal), toNat_packComponents, BitVec.toNat_ofNat, BitVec.toNat_ofNat]
      omega
    · rw [if_neg (mt hbits.1 hnormal), toNat_packComponents]
      simp only [BitVec.toNat_ofNat]
      omega

/-! ## Bits of rounded values -/

theorem targetExponent_eq (m : Nat) (e : Int) : Format.binary64.targetExponent (totalExponent m e)
    = max (m.log2 + e - 52) (-1074) := by
  have hleast : Format.binary64.minExponent = -1074 := rfl
  have hprecision : Format.binary64.mantissaBits = 53 := rfl
  rw [Format.targetExponent, totalExponent, hleast, hprecision]
  omega

theorem shiftToTargetExponent_of_fits (h : Fits m k) :
    shiftToTargetExponent Format.binary64 m (k - 1074) .exact
      = (ExtendedMantissa.mk m false false, (k : Int) - 1074) := by
  have hlog := log2_le_of_lt h.lt
  have hnone : (max ((m.log2 : Int) + (k - 1074) - 52) (-1074) - (k - 1074)).toNat = 0 := by omega
  rw [shiftToTargetExponent, targetExponent_eq, shiftToExponent, hnone]
  simp [HShiftRight.hShiftRight, Nat.repeat, ExtendedMantissa.ofMantissaAndAccuracy]

/-- A mantissa that was rounded up to one more bit is shifted once more. -/
theorem shiftToTargetExponent_carry (k : Nat) :
    shiftToTargetExponent Format.binary64 (2 ^ 53) (k - 1074) .exact
      = (ExtendedMantissa.mk (2 ^ 52) false false, ((k + 1 : Nat) : Int) - 1074) := by
  have hone : (max (((2 ^ 53 : Nat).log2 : Int) + (k - 1074) - 52) (-1074) - (k - 1074)).toNat = 1 := by
    rw [Nat.log2_two_pow]
    omega
  rw [shiftToTargetExponent, targetExponent_eq, shiftToExponent, hone]
  simp [HShiftRight.hShiftRight, Nat.repeat, ExtendedMantissa.ofMantissaAndAccuracy,
    ExtendedMantissa.shiftRightOne]
  omega

theorem toNat_pack_shifted {r s : Nat} (hle : r ≤ 2 ^ 53) (hfull : 0 < s → 2 ^ 52 ≤ r) :
    let p := shiftToTargetExponent Format.binary64 r (s - 1074) .exact
    (UnpackedFloat.pack Format.binary64 (if h : p.1.mantissa = 0 then .zero .positive
      else .finite .positive p.1.mantissa p.2 (Nat.pos_of_ne_zero h))).toNat
      = min infinityRank (rank r s) := by
  dsimp only
  by_cases hcarry : r = 2 ^ 53
  · have hrank : rank (2 ^ 52) (s + 1) = rank (2 ^ 53) s := by
      unfold rank
      omega
    rw [hcarry, shiftToTargetExponent_carry, dif_neg (Nat.two_pow_pos 52).ne',
      toNat_pack_finite ⟨by decide, .inr le_rfl⟩, hrank]
  · have hfits : Fits r s := ⟨by omega, by omega⟩
    rw [shiftToTargetExponent_of_fits hfits]
    by_cases hzero : r = 0
    · obtain rfl : s = 0 := by omega
      rw [dif_pos hzero, hzero]
      rfl
    · rw [dif_neg hzero, toNat_pack_finite hfits]

/-- A value that need not be widened is rounded to the nearest float. -/
theorem toNat_pack_roundWithAccuracy (hm : m ≠ 0) (hk : k ≤ shiftOf j (m * 2 ^ k) + j) :
    (UnpackedFloat.pack Format.binary64
      (roundWithAccuracy Format.binary64 .positive m (k - 1074 - j) .exact)).toNat
      = min infinityRank (nearestRank j (m * 2 ^ k)) := by
  have hamount : (max ((m.log2 : Int) + (k - 1074 - j) - 52) (-1074) - (k - 1074 - j)).toNat
      = shiftOf j (m * 2 ^ k) + j - k := by
    unfold shiftOf at hk ⊢
    rw [log2_mul_two_pow hm] at hk ⊢
    omega
  have hshift : shiftToTargetExponent Format.binary64 m (k - 1074 - j) .exact
      = (ExtendedMantissa.ofMantissaAndAccuracy m .exact >>> (shiftOf j (m * 2 ^ k) + j - k),
        (shiftOf j (m * 2 ^ k) : Int) - 1074) := by
    rw [shiftToTargetExponent, targetExponent_eq, shiftToExponent, hamount]
    congr 1
    omega
  have hrounded : (ExtendedMantissa.ofMantissaAndAccuracy m .exact
      >>> (shiftOf j (m * 2 ^ k) + j - k)).roundedMantissa
      = roundHalfEven (m * 2 ^ k) (2 ^ (shiftOf j (m * 2 ^ k) + j)) := by
    rw [(cut_shiftRight m _).roundedMantissa, ← roundHalfEven_mul_mul m _ (Nat.two_pow_pos k),
      ← Nat.pow_add, Nat.sub_add_cancel hk]
  rw [nearestRank, roundWithAccuracy, hshift]
  dsimp only
  rw [hrounded]
  exact toNat_pack_shifted (roundHalfEven_le_of_shiftOf j _) le_roundHalfEven_of_shiftOf

/-- A value is rounded to the nearest float. -/
theorem toNat_pack_round (hm : m ≠ 0) :
    (UnpackedFloat.pack Format.binary64 (UnpackedFloat.round Format.binary64 .positive m (k - 1074))).toNat
      = min infinityRank (nearestRank 0 (m * 2 ^ k)) := by
  -- the mantissa is widened by what its power is above the one of the result
  obtain ⟨widening, hwidening⟩ : ∃ widening, widening = k - shiftOf 0 (m * 2 ^ k) := ⟨_, rfl⟩
  have hvalue : m * 2 ^ widening * 2 ^ (k - widening) = m * 2 ^ k := by
    rw [Nat.mul_assoc, ← Nat.pow_add]
    congr 2
    omega
  have hamount : ((k : Int) - 1074 - max ((m.log2 : Int) + (k - 1074) - 52) (-1074)).toNat = widening := by
    rw [hwidening, shiftOf, log2_mul_two_pow hm]
    omega
  have hexponent : (k : Int) - 1074 - widening = ((k - widening : Nat) : Int) - 1074 - (0 : Nat) := by omega
  rw [UnpackedFloat.round, targetExponent_eq, decreaseExponent]
  dsimp only
  rw [hamount, Nat.shiftLeft_eq, hexponent, toNat_pack_roundWithAccuracy, hvalue]
  · exact Nat.mul_ne_zero hm (Nat.two_pow_pos _).ne'
  · rw [hvalue]
    omega

theorem toNat_pack_normalize (m k : Nat) :
    (UnpackedFloat.pack Format.binary64 (UnpackedFloat.normalize Format.binary64 m (k - 1074) .positive)).toNat
      = min infinityRank (nearestRank 0 (m * 2 ^ k)) := by
  rcases Nat.eq_zero_or_pos m with rfl | hm
  · rw [Nat.zero_mul, nearestRank_zero]
    rfl
  · have hsign : compare (m : Int) 0 = .gt := compare_gt_iff_gt.2 (by omega)
    rw [UnpackedFloat.normalize, hsign]
    exact toNat_pack_round hm.ne'

/-! ## Shapes -/

/-- What the float with a number is, if it is not negative: zero without a sign, a positive float or
infinity. -/
inductive Shape : Nat → UnpackedFloat → Prop
  | zero : Shape 0 (.zero .positive)
  | finite {m k : Nat} (fits : Fits m k) (pos : 0 < m) (lt : rank m k < infinityRank) :
    Shape (rank m k) (.finite .positive m (k - 1074) pos)
  | infinity : Shape infinityRank (.infinity .positive)

theorem toNat_unpackExponent (b : BitVec 64) :
    (@unpackExponent Format.binary64 b).toNat = b.toNat / 2 ^ 52 % 2 ^ 11 := by
  rw [unpackExponent, BitVec.toNat_cast, BitVec.extractLsb_toNat, Nat.shiftRight_eq_div_pow]
  rfl

theorem toNat_unpackMantissa (b : BitVec 64) :
    (@unpackMantissa Format.binary64 b).toNat = b.toNat % 2 ^ 52 := by
  rw [unpackMantissa, BitVec.toNat_cast, BitVec.extractLsb_toNat]
  rfl

theorem toNat_unpackSign (b : BitVec 64) :
    (@unpackSign Format.binary64 b).toNat = b.toNat / 2 ^ 63 % 2 := by
  show (BitVec.cast _ (b.extractLsb (52 + 11) (52 + 11))).toNat = _
  rw [BitVec.toNat_cast, BitVec.extractLsb_toNat, Nat.shiftRight_eq_div_pow]

theorem toNat_eq_fields (b : BitVec 64) : b.toNat
    = (@unpackSign Format.binary64 b).toNat * 2 ^ 63 + (@unpackExponent Format.binary64 b).toNat * 2 ^ 52
      + (@unpackMantissa Format.binary64 b).toNat := by
  have hlt : b.toNat < 2 ^ 64 := b.isLt
  rw [toNat_unpackSign, toNat_unpackExponent, toNat_unpackMantissa]
  omega

theorem unpackExponent_eq_ones {b : BitVec 64} :
    @unpackExponent Format.binary64 b = -1#11 ↔ (@unpackExponent Format.binary64 b).toNat = 2047 :=
  ⟨fun h => congrArg BitVec.toNat h, fun h => BitVec.eq_of_toNat_eq h⟩

theorem unpackExponent_eq_zero {b : BitVec 64} :
    @unpackExponent Format.binary64 b = 0#11 ↔ (@unpackExponent Format.binary64 b).toNat = 0 :=
  ⟨fun h => congrArg BitVec.toNat h, fun h => BitVec.eq_of_toNat_eq h⟩

theorem unpackMantissa_eq_zero {b : BitVec 64} :
    @unpackMantissa Format.binary64 b = 0#52 ↔ (@unpackMantissa Format.binary64 b).toNat = 0 :=
  ⟨fun h => congrArg BitVec.toNat h, fun h => BitVec.eq_of_toNat_eq h⟩

theorem finite_eq {m m' : Nat} {e e' : Int} (hm : 0 < m) (hm' : 0 < m') (hmantissa : m = m')
    (hexponent : e = e') :
    UnpackedFloat.finite .positive m e hm = UnpackedFloat.finite .positive m' e' hm' := by
  subst hmantissa hexponent
  rfl

theorem unpack_normal {b : BitVec 64} (hsign : @unpackSign Format.binary64 b = 0#1)
    (hsome : (@unpackExponent Format.binary64 b).toNat ≠ 0)
    (hones : (@unpackExponent Format.binary64 b).toNat ≠ 2047) (hm : 0 < m)
    (hmantissa : m = 2 ^ 52 + (@unpackMantissa Format.binary64 b).toNat)
    (hshift : (@unpackExponent Format.binary64 b).toNat = k + 1) :
    UnpackedFloat.unpack Format.binary64 b = .finite .positive m (k - 1074) hm := by
  have hbias : Format.binary64.exponentBias = 1023 := rfl
  unfold UnpackedFloat.unpack
  dsimp only
  rw [if_neg (mt unpackExponent_eq_ones.1 hones), if_neg (mt unpackExponent_eq_zero.1 hsome), hsign]
  refine finite_eq _ hm ?_ ?_
  · rw [BitVec.toNat_append, ← Nat.shiftLeft_add_eq_or_of_lt (BitVec.isLt _), hmantissa]
    rfl
  · rw [hshift, hbias]
    omega

theorem unpack_subnormal {b : BitVec 64} (hsign : @unpackSign Format.binary64 b = 0#1)
    (hnone : (@unpackExponent Format.binary64 b).toNat = 0) (hm : 0 < m)
    (hmantissa : m = (@unpackMantissa Format.binary64 b).toNat) :
    UnpackedFloat.unpack Format.binary64 b = .finite .positive m ((0 : Nat) - 1074) hm := by
  have hbias : Format.binary64.exponentBias = 1023 := rfl
  have hones : (@unpackExponent Format.binary64 b).toNat ≠ 2047 := by omega
  have hsome : (@unpackMantissa Format.binary64 b).toNat ≠ 0 := by omega
  unfold UnpackedFloat.unpack
  dsimp only
  rw [if_neg (mt unpackExponent_eq_ones.1 hones), if_pos (unpackExponent_eq_zero.2 hnone),
    dif_neg (mt unpackMantissa_eq_zero.1 hsome), hsign]
  refine finite_eq _ hm ?_ ?_
  · exact hmantissa.symm
  · rw [hnone, hbias]
    rfl

theorem unpack_of_rank {b : BitVec 64} (h : Fits m k) (hm : 0 < m) (hlt : rank m k < infinityRank)
    (hb : b.toNat = rank m k) :
    UnpackedFloat.unpack Format.binary64 b = .finite .positive m (k - 1074) hm := by
  have hm' := h.lt
  have hexponent := toNat_unpackExponent b
  have hmantissa := toNat_unpackMantissa b
  have hinfinity : infinityRank = 2047 * 2 ^ 52 := rfl
  unfold rank at hlt hb
  have hsign : @unpackSign Format.binary64 b = 0#1 := by
    apply BitVec.eq_of_toNat_eq
    rw [toNat_unpackSign, hb]
    show (k * 2 ^ 52 + m) / 2 ^ 63 % 2 = 0
    omega
  by_cases hnormal : 2 ^ 52 ≤ m
  · exact unpack_normal hsign (by omega) (by omega) hm (by omega) (by omega)
  · obtain rfl := h.full.resolve_right hnormal
    exact unpack_subnormal hsign (by omega) hm (by omega)

/-- The bits of a float that is not negative are its number. -/
theorem shape_unpack {b : BitVec 64} (h : b.toNat ≤ infinityRank) :
    Shape b.toNat (UnpackedFloat.unpack Format.binary64 b) := by
  obtain ⟨m, k, hfits, hrank⟩ := exists_fits b.toNat
  rcases Nat.lt_or_eq_of_le h with hlt | hinfinity
  · rcases Nat.eq_zero_or_pos m with rfl | hm
    · have hzero : b.toNat = 0 := by
        have hfull := hfits.full
        rw [← hrank, rank]
        omega
      obtain rfl : b = 0#64 := BitVec.eq_of_toNat_eq hzero
      exact .zero
    · rw [← hrank] at hlt
      rw [unpack_of_rank hfits hm hlt hrank.symm, ← hrank]
      exact .finite hfits hm hlt
  · obtain rfl : b = 0x7FF0000000000000#64 := BitVec.eq_of_toNat_eq hinfinity
    exact .infinity

variable {r r' : Nat} {u u' : UnpackedFloat}

theorem Shape.le_infinityRank (h : Shape r u) : r ≤ infinityRank := by
  cases h with
  | zero => exact Nat.zero_le _
  | finite _ _ hlt => exact hlt.le
  | infinity => exact Nat.le_refl _

theorem Shape.toNat_pack (h : Shape r u) : (UnpackedFloat.pack Format.binary64 u).toNat = r := by
  cases h with
  | zero => rfl
  | finite hfits hm hlt => rw [toNat_pack_finite hfits hm, Nat.min_eq_right hlt.le]
  | infinity => rfl

theorem Shape.isFinite_iff (h : Shape r u) : u.isFinite = true ↔ r < infinityRank := by
  cases h with
  | zero => exact iff_of_true rfl (by decide)
  | finite _ _ hlt => exact iff_of_true rfl hlt
  | infinity => exact iff_of_false nofun (Nat.lt_irrefl _)

theorem zero_compare_of_sign {b : BitVec 64} (hsign : @unpackSign Format.binary64 b ≠ 0#1) :
    (UnpackedFloat.zero .positive).compare (UnpackedFloat.unpack Format.binary64 b) ≠ some .lt := by
  unfold UnpackedFloat.unpack
  dsimp only
  rw [Sign.ofBitVec, if_neg hsign]
  by_cases hones : @unpackExponent Format.binary64 b = -1#11
  · rw [if_pos hones]
    by_cases hnone : @unpackMantissa Format.binary64 b = 0#52
    · rw [if_pos hnone]
      decide
    · rw [if_neg hnone]
      decide
  · rw [if_neg hones]
    by_cases hsubnormal : @unpackExponent Format.binary64 b = 0#11
    · rw [if_pos hsubnormal]
      by_cases hnone : @unpackMantissa Format.binary64 b = 0#52
      · rw [dif_pos hnone]
        decide
      · rw [dif_neg hnone]
        rintro ⟨⟩
    · rw [if_neg hsubnormal]
      rintro ⟨⟩

/-! ## Order -/

theorem rank_pos (hm : 0 < m) : 0 < rank m k := Nat.add_pos_right _ hm

theorem Fits.compare_eq {m' k' : Nat} (h : Fits m k) (h' : Fits m' k') :
    (compare ((k : Int) - 1074) (k' - 1074)).then (compare m m') = compare (rank m k) (rank m' k') := by
  have hle := h.rank_le_iff h'
  have hge := h'.rank_le_iff h
  rcases Nat.lt_trichotomy k k' with hlt | rfl | hgt
  · have hshift : compare ((k : Int) - 1074) (k' - 1074) = .lt := compare_lt_iff_lt.2 (by omega)
    have hrank : compare (rank m k) (rank m' k') = .lt := compare_lt_iff_lt.2 (by omega)
    rw [hshift, hrank]
    rfl
  · have hshift : compare ((k : Int) - 1074) (k - 1074) = .eq := compare_eq_iff_eq.2 rfl
    rw [hshift]
    show compare m m' = _
    unfold rank
    rcases Nat.lt_trichotomy m m' with hlt | rfl | hgt
    · rw [compare_lt_iff_lt.2 hlt, compare_lt_iff_lt.2 (by omega)]
    · rw [compare_eq_iff_eq.2 rfl, compare_eq_iff_eq.2 rfl]
    · rw [compare_gt_iff_gt.2 hgt, compare_gt_iff_gt.2 (by omega)]
  · have hshift : compare ((k : Int) - 1074) (k' - 1074) = .gt := compare_gt_iff_gt.2 (by omega)
    have hrank : compare (rank m k) (rank m' k') = .gt := compare_gt_iff_gt.2 (by omega)
    rw [hshift, hrank]
    rfl

/-- Floats that are not negative are in the order of their numbers. -/
theorem Shape.compare_eq (h : Shape r u) (h' : Shape r' u') : u.compare u' = some (compare r r') := by
  have hinfinity : 0 < infinityRank := by decide
  cases h with
  | zero =>
    cases h' with
    | zero => rfl
    | finite _ hm _ => rw [compare_lt_iff_lt.2 (rank_pos hm)]; rfl
    | infinity => rw [compare_lt_iff_lt.2 hinfinity]; rfl
  | finite hfits hm hlt =>
    cases h' with
    | zero => rw [compare_gt_iff_gt.2 (rank_pos hm)]; rfl
    | finite hfits' _ _ => rw [← hfits.compare_eq hfits']; rfl
    | infinity => rw [compare_lt_iff_lt.2 hlt]; rfl
  | infinity =>
    cases h' with
    | zero => rw [compare_gt_iff_gt.2 hinfinity]; rfl
    | finite _ _ hlt => rw [compare_gt_iff_gt.2 hlt]; rfl
    | infinity => rw [compare_eq_iff_eq.2 rfl]; rfl

/-! ## Arithmetic -/

/-- A sum is the float next to the exact one. -/
theorem Shape.toNat_pack_add (h : Shape r u) (h' : Shape r' u') :
    (UnpackedFloat.pack Format.binary64 (UnpackedFloat.add Format.binary64 u u')).toNat
      = min infinityRank (nearestRank 0 (unitsOf r + unitsOf r')) := by
  cases h with
  | infinity =>
    rw [Nat.min_eq_left (le_nearestRank (Nat.le_add_right _ _))]
    cases h' <;> rfl
  | zero =>
    rw [unitsOf_zero, Nat.zero_add, nearestRank_unitsOf, Nat.min_eq_right h'.le_infinityRank,
      ← h'.toNat_pack]
    cases h' <;> rfl
  | @finite m k hfits hm hlt =>
    cases h' with
    | zero =>
      rw [unitsOf_zero, Nat.add_zero, nearestRank_unitsOf]
      exact toNat_pack_finite hfits hm
    | infinity =>
      rw [Nat.min_eq_left (le_nearestRank (Nat.le_add_left _ _))]
      rfl
    | @finite m' k' hfits' hm' _ =>
      rw [hfits.unitsOf_rank, hfits'.unitsOf_rank]
      -- both mantissas are widened to the smaller power
      have hpower : min ((k : Int) - 1074) (k' - 1074) = ((min k k' : Nat) : Int) - 1074 := by omega
      have hwiden : ((k : Int) - 1074 - (((min k k' : Nat) : Int) - 1074)).toNat = k - min k k' := by omega
      have hwiden' : ((k' : Int) - 1074 - (((min k k' : Nat) : Int) - 1074)).toNat = k' - min k k' := by
        omega
      have hvalue : (m * 2 ^ (k - min k k') + m' * 2 ^ (k' - min k k')) * 2 ^ min k k'
          = m * 2 ^ k + m' * 2 ^ k' := by
        rw [Nat.add_mul, Nat.mul_assoc, Nat.mul_assoc, ← Nat.pow_add, ← Nat.pow_add,
          Nat.sub_add_cancel (Nat.min_le_left _ _), Nat.sub_add_cancel (Nat.min_le_right _ _)]
      rw [← hvalue, ← toNat_pack_normalize]
      unfold UnpackedFloat.add decreaseExponent
      dsimp only
      rw [hpower, hwiden, hwiden', Nat.shiftLeft_eq, Nat.shiftLeft_eq]
      rfl

theorem Fits.le_shiftOf {m' k' : Nat} (h : Fits m k) (h' : Fits m' k') (hm : 0 < m) (hm' : 0 < m') :
    k + k' ≤ shiftOf 1074 (m * m' * 2 ^ (k + k')) + 1074 := by
  have hmm : m * m' ≠ 0 := (Nat.mul_pos hm hm').ne'
  rw [shiftOf, log2_mul_two_pow hmm]
  have hwide : k = 0 ∧ k' = 0 ∨ 2 ^ 52 ≤ m * m' := by
    rcases h.full with rfl | hfull
    · rcases h'.full with rfl | hfull'
      · exact .inl ⟨rfl, rfl⟩
      · exact .inr (hfull'.trans (Nat.le_mul_of_pos_left _ hm))
    · exact .inr (hfull.trans (Nat.le_mul_of_pos_right _ hm'))
  rcases hwide with ⟨rfl, rfl⟩ | hwide
  · omega
  · have hlog := (Nat.le_log2 hmm).2 hwide
    omega

/-- A product of finite floats is the float next to the exact one. -/
theorem Shape.toNat_pack_mul (h : Shape r u) (h' : Shape r' u') (hr : r < infinityRank)
    (hr' : r' < infinityRank) :
    (UnpackedFloat.pack Format.binary64 (UnpackedFloat.mul Format.binary64 u u')).toNat
      = min infinityRank (nearestRank 1074 (unitsOf r * unitsOf r')) := by
  cases h with
  | infinity => exact absurd rfl hr.ne
  | zero =>
    rw [unitsOf_zero, Nat.zero_mul, nearestRank_zero]
    cases h' with
    | zero => rfl
    | finite _ _ _ => rfl
    | infinity => exact absurd rfl hr'.ne
  | @finite m k hfits hm _ =>
    cases h' with
    | infinity => exact absurd rfl hr'.ne
    | zero =>
      rw [unitsOf_zero, Nat.mul_zero, nearestRank_zero]
      rfl
    | @finite m' k' hfits' hm' _ =>
      have hvalue : m * 2 ^ k * (m' * 2 ^ k') = m * m' * 2 ^ (k + k') := by ring
      have hpower : (k : Int) - 1074 + (k' - 1074) = ((k + k' : Nat) : Int) - 1074 - (1074 : Nat) := by
        omega
      rw [hfits.unitsOf_rank, hfits'.unitsOf_rank, hvalue,
        ← toNat_pack_roundWithAccuracy (Nat.mul_pos hm hm').ne' (hfits.le_shiftOf hfits' hm hm'), ← hpower]
      rfl

/-! ## Floats that are not negative -/

variable {x y z : Float}

/-- The bits of a float, its number in ascending order if it is not negative. -/
def rankOf (x : Float) : Nat := x.toBits.toNat

/-- A float that is not negative: zero without a sign, a positive float or infinity. -/
def Unsigned (x : Float) : Prop := rankOf x ≤ infinityRank

theorem Unsigned.shape (h : Unsigned x) : Shape (rankOf x) x.toModel.unpack := shape_unpack h

theorem eq_of_rankOf (h : rankOf x = rankOf y) : x = y := by
  obtain ⟨⟨a, ha⟩⟩ := x
  obtain ⟨⟨b, hb⟩⟩ := y
  obtain rfl : a = b := UInt64.toNat.inj h
  rfl

theorem rankOf_zero : rankOf 0 = 0 := by decide

theorem unsigned_zero : Unsigned 0 := rankOf_zero.trans_le (Nat.zero_le _)

theorem rankOf_ofBits {b : UInt64} (h : b.toNat ≤ infinityRank) : rankOf (.ofBits b) = b.toNat :=
  (shape_unpack h).toNat_pack

theorem rankOf_toFloat (n : UInt64) :
    rankOf n.toFloat = min infinityRank (nearestRank 0 (n.toNat * 2 ^ 1074)) :=
  toNat_pack_normalize n.toNat 1074

theorem unsigned_toFloat (n : UInt64) : Unsigned n.toFloat :=
  (rankOf_toFloat n).trans_le (Nat.min_le_left _ _)

theorem toFloat_le_toFloat {n n' : UInt64} (h : n.toNat ≤ n'.toNat) :
    rankOf n.toFloat ≤ rankOf n'.toFloat := by
  rw [rankOf_toFloat, rankOf_toFloat]
  exact min_le_min_left _ (nearestRank_mono (Nat.mul_le_mul_right _ h))

namespace Unsigned

theorem le_iff (hx : Unsigned x) (hy : Unsigned y) : x ≤ y ↔ rankOf x ≤ rankOf y := by
  refine decide_eq_true_iff.trans ?_
  show (x.toModel.unpack.compare y.toModel.unpack).any (·.isLE) = true ↔ _
  rw [hx.shape.compare_eq hy.shape]
  exact Nat.isLE_compare

theorem lt_iff (hx : Unsigned x) (hy : Unsigned y) : x < y ↔ rankOf x < rankOf y := by
  refine decide_eq_true_iff.trans ?_
  show (x.toModel.unpack.compare y.toModel.unpack == some .lt) = true ↔ _
  rw [hx.shape.compare_eq hy.shape]
  exact beq_iff_eq.trans (Option.some_inj.trans compare_lt_iff_lt)

theorem isFinite_iff (hx : Unsigned x) : x.isFinite = true ↔ rankOf x < infinityRank :=
  hx.shape.isFinite_iff

theorem of_pos (h : 0 < x) : Unsigned x := by
  have hcompare : (UnpackedFloat.zero .positive).compare
      (UnpackedFloat.unpack Format.binary64 x.toBits.toBitVec) = some .lt :=
    beq_iff_eq.1 (decide_eq_true_iff.1 h)
  have hrank : rankOf x = x.toBits.toBitVec.toNat := rfl
  rw [Unsigned, hrank]
  generalize x.toBits.toBitVec = b at hcompare
  have hfields := toNat_eq_fields b
  have hmantissa : (@unpackMantissa Format.binary64 b).toNat < 2 ^ 52 := BitVec.isLt _
  have hexponent : (@unpackExponent Format.binary64 b).toNat < 2 ^ 11 := BitVec.isLt _
  have hinfinity : infinityRank = 2047 * 2 ^ 52 := rfl
  by_cases hsign : @unpackSign Format.binary64 b = 0#1
  · have hsign' : (@unpackSign Format.binary64 b).toNat = 0 := congrArg BitVec.toNat hsign
    by_cases hones : (@unpackExponent Format.binary64 b).toNat = 2047
    · by_cases hnone : (@unpackMantissa Format.binary64 b).toNat = 0
      · omega
      · unfold UnpackedFloat.unpack at hcompare
        dsimp only at hcompare
        rw [if_pos (unpackExponent_eq_ones.2 hones), if_neg (mt unpackMantissa_eq_zero.1 hnone)] at hcompare
        cases hcompare
    · omega
  · exact absurd hcompare (zero_compare_of_sign hsign)

theorem rankOf_add (hx : Unsigned x) (hy : Unsigned y) : rankOf (x + y)
    = min infinityRank (nearestRank 0 (unitsOf (rankOf x) + unitsOf (rankOf y))) :=
  hx.shape.toNat_pack_add hy.shape

theorem rankOf_mul (hx : Unsigned x) (hy : Unsigned y) (hfx : rankOf x < infinityRank)
    (hfy : rankOf y < infinityRank) : rankOf (x * y)
    = min infinityRank (nearestRank 1074 (unitsOf (rankOf x) * unitsOf (rankOf y))) :=
  hx.shape.toNat_pack_mul hy.shape hfx hfy

theorem add (hx : Unsigned x) (hy : Unsigned y) : Unsigned (x + y) :=
  (hx.rankOf_add hy).trans_le (Nat.min_le_left _ _)

theorem add_zero (hx : Unsigned x) : x + 0 = x := by
  apply eq_of_rankOf
  rw [hx.rankOf_add unsigned_zero, rankOf_zero, unitsOf_zero, Nat.add_zero, nearestRank_unitsOf,
    Nat.min_eq_right hx]

theorem le_add_right (hx : Unsigned x) (hy : Unsigned y) : rankOf x ≤ rankOf (x + y) := by
  rw [hx.rankOf_add hy]
  exact Nat.le_min.2 ⟨hx, le_nearestRank (Nat.le_add_right _ _)⟩

theorem le_add_left (hx : Unsigned x) (hy : Unsigned y) : rankOf y ≤ rankOf (x + y) := by
  rw [hx.rankOf_add hy]
  exact Nat.le_min.2 ⟨hy, le_nearestRank (Nat.le_add_left _ _)⟩

theorem add_le_add {x' y' : Float} (hx : Unsigned x) (hy : Unsigned y) (hx' : Unsigned x')
    (hy' : Unsigned y') (hxx : rankOf x ≤ rankOf x') (hyy : rankOf y ≤ rankOf y') :
    rankOf (x + y) ≤ rankOf (x' + y') := by
  rw [hx.rankOf_add hy, hx'.rankOf_add hy']
  exact min_le_min_left _ (nearestRank_mono (Nat.add_le_add (unitsOf_mono hxx) (unitsOf_mono hyy)))

theorem mul_le_mul (hx : Unsigned x) (hz : Unsigned z) (hy : Unsigned y) (hfz : rankOf z < infinityRank)
    (hfy : rankOf y < infinityRank) (h : rankOf x ≤ rankOf z) : rankOf (x * y) ≤ rankOf (z * y) := by
  rw [hx.rankOf_mul hy (h.trans_lt hfz) hfy, hz.rankOf_mul hy hfz hfy]
  exact min_le_min_left _ (nearestRank_mono (Nat.mul_le_mul_right _ (unitsOf_mono h)))

theorem mul (hx : Unsigned x) (hy : Unsigned y) (hfx : rankOf x < infinityRank)
    (hfy : rankOf y < infinityRank) : Unsigned (x * y) :=
  (hx.rankOf_mul hy hfx hfy).trans_le (Nat.min_le_left _ _)

end Unsigned

end BipartiteBatch.Number
