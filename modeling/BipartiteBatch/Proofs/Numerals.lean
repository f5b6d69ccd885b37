import BipartiteBatch.Json.Parser
import BipartiteBatch.Json.Printer
import Mathlib.Algebra.Group.Nat.Defs
import Mathlib.Data.List.Basic
import Mathlib.Data.List.TakeDrop

/-!
# Numerals read back

A natural number is written with the decimal digits of `Nat.toDigits`, and every reader of digits gets it
back. A number in JSON keeps the digits that were written, so that it is read back as it was.

* `Number.readNat_toDigits` : a whole number up to a largest one;
* `Number.readExponent_signed` : an exponent;
* `Json.number?_chars` : a number in JSON.
-/

namespace BipartiteBatch

/-! ## Runs of digits -/

theorem isDigit_of_mem_toDigits {c : Char} {n : Nat} (h : c ∈ Nat.toDigits 10 n) : c.isDigit = true :=
  Nat.isDigit_of_mem_toDigits (by decide) (by decide) h

theorem head?_toDigits_ne_zero {n : Nat} (hn : 0 < n) : (Nat.toDigits 10 n).head? ≠ some '0' := by
  induction n using Nat.strongRecOn with
  | ind n ih =>
    by_cases hsmall : n < 10
    · rw [Nat.toDigits_of_lt_base hsmall, List.head?_cons, ne_eq, Option.some.injEq,
        Nat.digitChar_eq_zero]
      exact Nat.ne_of_gt hn
    · have hlt : n / 10 < n := Nat.div_lt_self hn (by decide)
      have hpos : 0 < n / 10 := Nat.div_pos (Nat.not_lt.1 hsmall) (by decide)
      rw [Nat.toDigits_of_base_le (by decide) (Nat.not_lt.1 hsmall),
        List.head?_append_of_ne_nil _ Nat.toDigits_ne_nil]
      exact ih _ hlt hpos

/-- A numeral of more than one digit does not begin with a zero. -/
theorem length_toDigits_of_head? {n : Nat} (h : (Nat.toDigits 10 n).head? = some '0') :
    (Nat.toDigits 10 n).length = 1 := by
  have hzero : n = 0 := Nat.eq_zero_of_not_pos fun hn => head?_toDigits_ne_zero hn h
  rw [hzero, Nat.toDigits_zero]
  rfl

theorem span_append {p : Char → Bool} {run rest : List Char} (hrun : ∀ c ∈ run, p c = true)
    (hrest : ∀ c ∈ rest.head?, p c = false) : (run ++ rest).span p = (run, rest) := by
  rw [List.span_eq_takeWhile_dropWhile, List.takeWhile_append_of_pos hrun,
    List.dropWhile_append_of_pos hrun]
  cases rest with
  | nil => rw [List.takeWhile_nil, List.dropWhile_nil, List.append_nil]
  | cons c cs =>
    have hc : ¬ p c = true := by
      rw [hrest c rfl]
      exact Bool.false_ne_true
    rw [List.takeWhile_cons_of_neg hc, List.dropWhile_cons_of_neg hc, List.append_nil]

namespace Number

theorem digitsValue_eq (cs : List Char) : digitsValue cs = Nat.ofDigitChars 10 cs 0 := rfl

@[simp] theorem digitsValue_toDigits (n : Nat) : digitsValue (Nat.toDigits 10 n) = n :=
  Nat.ofDigitChars_toDigits (by decide) (by decide)

theorem digitsValue_append (ns ms : List Char) :
    digitsValue (ns ++ ms) = 10 ^ ms.length * digitsValue ns + digitsValue ms := by
  rw [digitsValue_eq, Nat.ofDigitChars_append, Nat.ofDigitChars_eq_ofDigitChars_zero]
  rfl

theorem digitsValue_replicate_zero (k : Nat) : digitsValue (List.replicate k '0') = 0 := by
  rw [digitsValue_eq, Nat.ofDigitChars_replicate_zero, Nat.mul_zero]

/-! ## Whole numbers -/

theorem le_ofDigitChars (n : Nat) (cs : List Char) : n ≤ Nat.ofDigitChars 10 cs n := by
  rw [Nat.ofDigitChars_eq_ofDigitChars_zero]
  calc n ≤ 10 ^ cs.length * n := Nat.le_mul_of_pos_left n (Nat.pow_pos (by decide))
    _ ≤ _ := Nat.le_add_right _ _

/-- Digits are read as their number if that is not too large; it is too large once a part of it is. -/
theorem readDigits_of_digits {largest n : Nat} {cs : List Char} (hcs : ∀ c ∈ cs, c.isDigit = true)
    (hn : n ≤ largest) : readDigits largest n cs
      = if Nat.ofDigitChars 10 cs n ≤ largest then .ok (Nat.ofDigitChars 10 cs n)
        else .error .tooLarge := by
  induction cs generalizing n with
  | nil => rw [readDigits, Nat.ofDigitChars_nil, if_pos hn]
  | cons c cs ih =>
    obtain ⟨hc, hcs⟩ := List.forall_mem_cons.1 hcs
    rw [readDigits, if_pos hc, Nat.ofDigitChars_cons]
    rw [show c.toNat - '0'.toNat = digitValue c from rfl]
    by_cases hle : 10 * n + digitValue c ≤ largest
    · rw [if_pos hle]
      exact ih hcs hle
    · rw [if_neg hle, if_neg fun h => hle (Nat.le_trans (le_ofDigitChars _ cs) h)]

/-- The numeral of a number is read as the number, if that is not too large. -/
theorem readNat_toDigits (largest n : Nat) :
    readNat largest (Nat.toDigits 10 n) = if n ≤ largest then .ok n else .error .tooLarge := by
  have hread : readNat largest (Nat.toDigits 10 n) = readDigits largest 0 (Nat.toDigits 10 n) := by
    match hdigits : Nat.toDigits 10 n with
    | [] => exact absurd hdigits Nat.toDigits_ne_nil
    | c :: cs =>
      have hc : c.isDigit = true := isDigit_of_mem_toDigits (hdigits ▸ List.mem_cons_self)
      have hplus : c ≠ '+' := by
        rintro rfl
        revert hc
        decide
      unfold readNat
      split
      · next h => cases h
      · next h => exact absurd (List.cons.inj h).1 hplus
      · next h => exact absurd (List.cons.inj h).1 hplus
      · rfl
  rw [hread, readDigits_of_digits (fun c hc => isDigit_of_mem_toDigits hc) (Nat.zero_le _)]
  rw [← digitsValue_eq, digitsValue_toDigits]

/-! ## Exponents -/

theorem unsigned_toDigits (n : Nat) : readExponent.unsigned (Nat.toDigits 10 n) = some (n : Int) := by
  have hall : (Nat.toDigits 10 n).all Char.isDigit = true :=
    List.all_eq_true.2 fun c hc => isDigit_of_mem_toDigits hc
  rw [readExponent.unsigned, hall, List.isEmpty_eq_false_iff.2 Nat.toDigits_ne_nil]
  exact congrArg (fun n : Nat => some (n : Int)) (digitsValue_toDigits n)

theorem readExponent_signed (e : Int) :
    readExponent ((if e < 0 then '-' else '+') :: Nat.toDigits 10 e.natAbs) = some e := by
  by_cases he : e < 0
  · rw [if_pos he]
    show (readExponent.unsigned _).map (- ·) = _
    rw [unsigned_toDigits, Option.map_some, Int.ofNat_natAbs_of_nonpos (Int.le_of_lt he), Int.neg_neg]
  · rw [if_neg he]
    show readExponent.unsigned _ = _
    rw [unsigned_toDigits, Int.natAbs_of_nonneg (Int.not_lt.1 he)]

end Number

/-! ## Numbers in JSON -/

namespace Json

open BipartiteBatch.Number (digitsValue)

def pointed (fraction : List Char) : List Char := if fraction = [] then [] else '.' :: fraction

def exponentChars : Option Int → List Char
  | none => []
  | some e => 'e' :: (if e < 0 then '-' else '+') :: Nat.toDigits 10 e.natAbs

theorem exponent?_exponentChars (e : Option Int) : exponent? (exponentChars e) = some e := by
  cases e with
  | none => rfl
  | some e =>
    show (BipartiteBatch.Number.readExponent _).map some = _
    rw [BipartiteBatch.Number.readExponent_signed]
    rfl

theorem head?_exponentChars {e : Option Int} : ∀ c ∈ (exponentChars e).head?, c = 'e' := by
  cases e with
  | none => exact nofun
  | some e =>
    rintro c ⟨⟩
    rfl

theorem unsigned?_append {negative : Bool} {whole fraction : List Char} {e : Option Int}
    (hwhole : ∀ c ∈ whole, c.isDigit = true) (hne : whole ≠ [])
    (hzero : whole.head? = some '0' → whole.length = 1)
    (hfraction : ∀ c ∈ fraction, c.isDigit = true) :
    unsigned? negative (whole ++ (pointed fraction ++ exponentChars e))
      = some ⟨negative, digitsValue (whole ++ fraction), fraction.length, e⟩ := by
  have hexponent : ∀ c ∈ (exponentChars e).head?, c.isDigit = false := by
    intro c hc
    rw [head?_exponentChars c hc]
    rfl
  have hleading : (whole.isEmpty || (whole.head? == some '0' && 1 < whole.length)) = false := by
    rw [List.isEmpty_eq_false_iff.2 hne, Bool.false_or, Bool.and_eq_false_imp]
    intro h
    rw [hzero (eq_of_beq h)]
    rfl
  unfold unsigned?
  cases fraction with
  | nil =>
    rw [pointed, if_pos rfl, List.nil_append, span_append hwhole hexponent]
    have hread := exponent?_exponentChars e
    cases e with
    | none =>
      simp only [hleading]
      rfl
    | some e =>
      simp only [hleading]
      exact congrArg (Option.map _) hread
  | cons c cs =>
    rw [pointed, if_neg (List.cons_ne_nil c cs), List.cons_append, span_append hwhole (by rintro c ⟨⟩; rfl)]
    simp only [span_append hfraction hexponent, hleading, exponent?_exponentChars]
    rfl

namespace Number

variable (n : Json.Number)

def wholeDigits : List Char := Nat.toDigits 10 (n.digits / 10 ^ n.places)

/-- The digits after the point, filled up with zeros in front. -/
def fractionDigits : List Char :=
  let digits := Nat.toDigits 10 (n.digits % 10 ^ n.places)
  if n.places = 0 then [] else List.replicate (n.places - digits.length) '0' ++ digits

theorem length_fractionDigits : n.fractionDigits.length = n.places := by
  unfold fractionDigits
  by_cases hplaces : n.places = 0
  · simp [hplaces]
  · have hlength : (Nat.toDigits 10 (n.digits % 10 ^ n.places)).length ≤ n.places :=
      (Nat.length_toDigits_le_iff (by decide) (Nat.pos_of_ne_zero hplaces)).2
        (Nat.mod_lt _ (Nat.pow_pos (by decide)))
    simp only [if_neg hplaces, List.length_append, List.length_replicate]
    omega

theorem isDigit_of_mem_fractionDigits : ∀ c ∈ n.fractionDigits, c.isDigit = true := by
  intro c hc
  unfold fractionDigits at hc
  by_cases hplaces : n.places = 0
  · simp [hplaces] at hc
  · simp only [if_neg hplaces, List.mem_append, List.mem_replicate] at hc
    rcases hc with ⟨-, rfl⟩ | hc
    · rfl
    · exact isDigit_of_mem_toDigits hc

theorem digitsValue_fractionDigits : digitsValue n.fractionDigits = n.digits % 10 ^ n.places := by
  unfold fractionDigits
  by_cases hplaces : n.places = 0
  · simp only [hplaces, if_true, Nat.pow_zero, Nat.mod_one]
    rfl
  · simp only [if_neg hplaces]
    rw [BipartiteBatch.Number.digitsValue_append, BipartiteBatch.Number.digitsValue_replicate_zero,
      BipartiteBatch.Number.digitsValue_toDigits, Nat.mul_zero, Nat.zero_add]

theorem digitsValue_digits : digitsValue (n.wholeDigits ++ n.fractionDigits) = n.digits := by
  rw [BipartiteBatch.Number.digitsValue_append, length_fractionDigits, digitsValue_fractionDigits,
    wholeDigits, BipartiteBatch.Number.digitsValue_toDigits]
  exact Nat.div_add_mod n.digits (10 ^ n.places)

theorem chars_eq : n.chars = (if n.negative then ['-'] else [])
    ++ (n.wholeDigits ++ (pointed n.fractionDigits ++ exponentChars n.exponent)) := by
  have hpoint : pointed n.fractionDigits = if n.places = 0 then [] else '.' :: n.fractionDigits := by
    have hnil : n.fractionDigits = [] ↔ n.places = 0 := by
      rw [← List.length_eq_zero_iff, length_fractionDigits]
    simp only [pointed, hnil]
  have hexponent : exponentChars n.exponent = match n.exponent with
      | none => []
      | some e => 'e' :: (if e < 0 then '-' else '+') :: Nat.toDigits 10 e.natAbs := by
    cases n.exponent with
    | none => rfl
    | some e => rfl
  rw [hpoint, hexponent, ← List.append_assoc, ← List.append_assoc]
  unfold chars fractionDigits wholeDigits
  by_cases hplaces : n.places = 0
  · simp only [if_pos hplaces]
    rfl
  · simp only [if_neg hplaces]
    rfl

/-- A written number is read back as it was. -/
theorem number?_chars : number? n.chars = some n := by
  have hwhole : ∀ c ∈ n.wholeDigits, c.isDigit = true := fun c hc => isDigit_of_mem_toDigits hc
  have hread : unsigned? n.negative
      (n.wholeDigits ++ (pointed n.fractionDigits ++ exponentChars n.exponent)) = some n := by
    rw [unsigned?_append hwhole Nat.toDigits_ne_nil length_toDigits_of_head?
      n.isDigit_of_mem_fractionDigits, digitsValue_digits, length_fractionDigits]
  rw [chars_eq]
  cases hnegative : n.negative with
  | true => rwa [hnegative] at hread
  | false =>
    rw [hnegative] at hread
    -- without a sign the first character is a digit
    match hdigits : n.wholeDigits with
    | [] => exact absurd hdigits Nat.toDigits_ne_nil
    | c :: cs =>
      have hc : c ≠ '-' := by
        rintro rfl
        have hdigit := hwhole '-' (hdigits ▸ List.mem_cons_self)
        revert hdigit
        decide
      rw [hdigits] at hread
      show number? (c :: _) = _
      unfold number?
      split
      · next h => exact absurd (List.cons.inj h).1 hc
      · exact hread

theorem isNumberChar_of_isDigit {c : Char} (h : c.isDigit = true) : isNumberChar c = true := by
  simp [isNumberChar, h]

theorem isNumberChar_of_mem_chars : ∀ c ∈ n.chars, isNumberChar c = true := by
  have hpointed : ∀ c ∈ pointed n.fractionDigits, isNumberChar c = true := by
    intro c hc
    unfold pointed at hc
    split at hc
    · cases hc
    · rcases List.mem_cons.1 hc with rfl | hc
      · rfl
      · exact isNumberChar_of_isDigit (n.isDigit_of_mem_fractionDigits c hc)
  have hexponent : ∀ c ∈ exponentChars n.exponent, isNumberChar c = true := by
    intro c hc
    match he : n.exponent with
    | none =>
      rw [he] at hc
      cases hc
    | some e =>
      rw [he, exponentChars, List.mem_cons, List.mem_cons] at hc
      rcases hc with rfl | rfl | hc
      · rfl
      · split
        · rfl
        · rfl
      · exact isNumberChar_of_isDigit (isDigit_of_mem_toDigits hc)
  intro c hc
  rw [chars_eq, List.mem_append, List.mem_append, List.mem_append] at hc
  rcases hc with hc | hc | hc | hc
  · split at hc
    · rw [List.mem_singleton] at hc
      rw [hc]
      rfl
    · cases hc
  · exact isNumberChar_of_isDigit (isDigit_of_mem_toDigits hc)
  · exact hpointed c hc
  · exact hexponent c hc

theorem exists_chars_eq_cons : ∃ c cs, n.chars = c :: cs ∧ (c = '-' ∨ c.isDigit = true) := by
  rw [chars_eq]
  cases n.negative with
  | true => exact ⟨'-', _, rfl, .inl rfl⟩
  | false =>
    match hdigits : n.wholeDigits with
    | [] => exact absurd hdigits Nat.toDigits_ne_nil
    | c :: cs =>
      refine ⟨c, _, rfl, .inr ?_⟩
      have hmem : c ∈ n.wholeDigits := hdigits ▸ List.mem_cons_self
      exact isDigit_of_mem_toDigits hmem

end Number

end Json

end BipartiteBatch
