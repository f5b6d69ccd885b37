/-!
# Binary floating point values from exact fractions

A finite value of a binary format is `mantissa * 2 ^ exponent` with a bounded mantissa and a bounded
exponent. `Format.nearest` gives the value next to a fraction, a tie going to the even mantissa, by
arithmetic on naturals only; there is none when the fraction rounds beyond the largest value.

* `Binary`, `Decimal` : `mantissa * 2 ^ exponent` and `digits * 10 ^ exponent`;
* `Format.nearest`, `Format.ofDecimal` : the value of a format next to a fraction, to a decimal;
* `Format.product`, `Format.quotient` : rounded arithmetic in a format;
* `single`, `double` : the formats of 32 and 64 bits;
* `ofBits32`, `toBits32` : a value of the 32-bit format and its bits.
-/

namespace BipartiteBatch.Number

/-- The number `mantissa * 2 ^ exponent`. -/
structure Binary where
  mantissa : Nat
  exponent : Int
deriving DecidableEq, Repr

def Binary.fraction (x : Binary) : Nat × Nat :=
  (x.mantissa <<< x.exponent.toNat, 1 <<< (-x.exponent).toNat)

/-- The number `digits * 10 ^ exponent`. -/
structure Decimal where
  digits : Nat
  exponent : Int
deriving DecidableEq, Repr

/-- A binary format: the bits of a mantissa, and the exponents of the least and the greatest unit. -/
structure Format where
  precision : Nat
  least : Int
  greatest : Int
deriving DecidableEq, Repr

def single : Format := ⟨24, -149, 104⟩

def double : Format := ⟨53, -1074, 971⟩

/-- The fraction `num / (den * 2 ^ e)`. -/
def scaled (num den : Nat) (e : Int) : Nat × Nat := (num <<< (-e).toNat, den <<< e.toNat)

/-- The natural number next to a fraction, an exact half going to the even one. -/
def roundHalfEven (num den : Nat) : Nat :=
  let q := num / den
  let r := num % den
  if 2 * r < den then q
  else if den < 2 * r then q + 1
  else if q % 2 = 0 then q
  else q + 1

namespace Format

/-- The exponent of the unit in which a fraction is rounded: the mantissa fills the precision unless
the unit is the least one. -/
def unit (f : Format) (num den : Nat) : Int :=
  let guess := max ((num.log2 : Int) - den.log2 - f.precision) f.least
  let s := scaled num den guess
  if s.1 / s.2 < 1 <<< f.precision then guess else guess + 1

/-- The value next to `num / den`, if it is finite. -/
def nearest (f : Format) (num den : Nat) : Option Binary :=
  let e := f.unit num den
  let s := scaled num den e
  let m := roundHalfEven s.1 s.2
  let v : Binary := if m = 1 <<< f.precision then ⟨1 <<< (f.precision - 1), e + 1⟩ else ⟨m, e⟩
  if f.greatest < v.exponent then none else some v

/-- The value next to a decimal, if it is finite. Decimals far outside every format are told by their
exponent alone. -/
def ofDecimal (f : Format) (d : Decimal) : Option Binary :=
  if d.digits = 0 then some ⟨0, f.least⟩
  else if 400 < d.exponent then none
  else if d.exponent + d.digits.log2 < -400 then some ⟨0, f.least⟩
  else f.nearest (d.digits * Nat.pow 10 d.exponent.toNat) (Nat.pow 10 (-d.exponent).toNat)

def ofBinary (f : Format) (x : Binary) : Option Binary := f.nearest x.fraction.1 x.fraction.2

def product (f : Format) (x y : Binary) : Option Binary :=
  f.nearest (x.fraction.1 * y.fraction.1) (x.fraction.2 * y.fraction.2)

def quotient (f : Format) (x y : Binary) : Option Binary :=
  f.nearest (x.fraction.1 * y.fraction.2) (x.fraction.2 * y.fraction.1)

end Format

/-- The bits of a 32-bit value; none stands for infinity. -/
def toBits32 (negative : Bool) (v : Option Binary) : UInt32 :=
  let magnitude : Nat :=
    match v with
    | none => 0x7F800000
    | some x =>
      if x.mantissa < 0x800000 then x.mantissa
      else (x.exponent + 150).toNat * 0x800000 + (x.mantissa - 0x800000)
  UInt32.ofNat (if negative then magnitude + 0x80000000 else magnitude)

def ofBits32 (bits : UInt32) : Option (Bool × Binary) :=
  let b := bits.toNat
  let negative := 0x80000000 ≤ b
  let field := b / 0x800000 % 0x100
  let fraction := b % 0x800000
  if field = 0xFF then none
  else if field = 0 then some (negative, ⟨fraction, -149⟩)
  else some (negative, ⟨fraction + 0x800000, (field : Int) - 150⟩)

end BipartiteBatch.Number
