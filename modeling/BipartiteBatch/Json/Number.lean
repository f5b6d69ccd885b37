import BipartiteBatch.Number.Shortest

/-!
# Numbers in JSON

A written number keeps the digits that were written, since what they stand for depends on who reads
them: a whole number must be written without point and exponent, and a float takes any number.

A float is read in a few steps of 64-bit arithmetic, and need not be the one next to the number. Of the
digits those are kept that fit into a word; the word is rounded to a 64-bit float, which is multiplied
or divided by a power of ten; the outcome is rounded to 32 bits. Whole numbers that fit into a word are
rounded to 32 bits at once. A float is written with the fewest digits that are next to it.

* `Json.Number` : a written number;
* `Json.Number.toNat?`, `Json.Number.toBits32?` : the two readings;
* `Json.Number.significand`, `scaleByTen` : the steps of the second one;
* `Json.Number.ofNat`, `Json.Number.ofBinary` : the numbers that are written.
-/

namespace BipartiteBatch

open Number

/-- A written number: `places` of the digits stand after the point. -/
structure Json.Number where
  negative : Bool
  digits : Nat
  places : Nat
  exponent : Option Int
deriving DecidableEq, Repr

namespace Json.Number

def ofNat (n : Nat) : Json.Number := ⟨false, n, 0, none⟩

/-! ## Whole numbers -/

/-- The number is written without point and exponent. -/
def isWhole (n : Json.Number) : Bool := n.places == 0 && n.exponent.isNone

def toNat? (n : Json.Number) : Option Nat :=
  if n.isWhole && !n.negative then some n.digits else none

/-- The number is a whole one of 64 bits, with or without sign. -/
def isLong (n : Json.Number) : Bool :=
  n.isWhole && (if n.negative then 0 < n.digits && n.digits ≤ 0x8000000000000000
    else n.digits ≤ 0xFFFFFFFFFFFFFFFF)

/-! ## Floats -/

/-- The most leading digits of a number that fit into a word of 64 bits, and how many follow them. -/
def leading (n : Nat) : Decimal :=
  let length := (Nat.toDigits 10 n).length
  let word := n / Nat.pow 10 (length - 20)
  if word ≤ 0xFFFFFFFFFFFFFFFF then ⟨word, (length - 20 : Nat)⟩ else ⟨word / 10, (length - 19 : Nat)⟩

/-- The digits that are kept, with the power of ten that they count. The digits before the point are
cut first; those after it follow as long as they fit. -/
def significand (n : Json.Number) : Decimal :=
  let unit := Nat.pow 10 n.places
  let whole := leading (n.digits / unit)
  let kept := leading (whole.digits * unit + n.digits % unit)
  ⟨kept.digits, whole.exponent + kept.exponent - n.places + n.exponent.getD 0⟩

def powerOfTen (e : Nat) : Option Binary := double.ofDecimal ⟨1, e⟩

def overPower (x : Binary) (e : Nat) : Option Binary := do double.quotient x (← powerOfTen e)

/-- A word times a power of ten: one product or quotient with the largest power at hand, `10 ^ 308`, or
two quotients. There is none beyond the largest float or power; what is too small is zero. -/
def scaleByTen (d : Decimal) : Option Binary := do
  let x ← double.nearest d.digits 1
  if d.digits = 0 then return x
  else if 308 < d.exponent then none
  else if 0 ≤ d.exponent then double.product x (← powerOfTen d.exponent.toNat)
  else if -308 ≤ d.exponent then overPower x (-d.exponent).toNat
  else if -616 ≤ d.exponent then overPower (← overPower x 308) (-d.exponent - 308).toNat
  else return ⟨0, double.least⟩

def toBits32? (n : Json.Number) : Option UInt32 :=
  if n.isLong then some (toBits32 n.negative (single.ofDecimal ⟨n.digits, 0⟩))
  else (scaleByTen n.significand).map fun x => toBits32 n.negative (single.ofBinary x)

/-! ## Writing -/

/-- The decimal with exponent `e` of its leading digit is written without exponent. -/
def isPositional (e : Int) : Bool := -6 ≤ e && e ≤ 12

/-- A decimal as it is written: positionally with at least one digit after the point, or with one digit
before it and an exponent. -/
def ofDecimal (negative : Bool) (d : Decimal) : Json.Number :=
  let length := (Nat.toDigits 10 d.digits).length
  let e := d.exponent + length - 1
  if isPositional e then
    if 0 ≤ d.exponent then ⟨negative, d.digits * Nat.pow 10 (d.exponent.toNat + 1), 1, none⟩
    else ⟨negative, d.digits, (-d.exponent).toNat, none⟩
  else ⟨negative, d.digits, length - 1, some e⟩

/-- A finite value with the fewest digits that it is next to. -/
def ofBinary (negative : Bool) (x : Binary) : Json.Number :=
  if x.mantissa = 0 then ⟨negative, 0, 1, none⟩
  else ofDecimal negative (shortest single.ofDecimal x)

end Json.Number

end BipartiteBatch
