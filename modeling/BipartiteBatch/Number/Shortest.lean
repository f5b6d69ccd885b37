import BipartiteBatch.Number.Binary

/-!
# The fewest digits that read back

A value is written with the fewest digits from which a given reader gets it back. For one digit, two
digits and so on, the two neighbours of the value on the decimal grid of that length are tried; of two
that read back the nearer one is taken, and the even one if they are equally near. If no grid up to
nine digits has one, the exact value is written.
-/

namespace BipartiteBatch.Number

def Binary.toDecimal (x : Binary) : Decimal :=
  if 0 ≤ x.exponent then ⟨x.mantissa <<< x.exponent.toNat, 0⟩
  else ⟨x.mantissa * Nat.pow 5 (-x.exponent).toNat, x.exponent⟩

/-- The fraction is below `10 ^ k`. -/
def belowPowerOfTen (num den : Nat) (k : Int) : Bool :=
  num * Nat.pow 10 (-k).toNat < den * Nat.pow 10 k.toNat

/-- The least power of ten above a positive binary number, from an estimate by its binary logarithm. -/
def Binary.scale (x : Binary) : Int :=
  let f := x.fraction
  let guess := ((x.mantissa.log2 : Int) + x.exponent) * 30103 / 100000
  if belowPowerOfTen f.1 f.2 guess then guess
  else if belowPowerOfTen f.1 f.2 (guess + 1) then guess + 1
  else guess + 2

/-- Remove trailing zeros of the digits, at most `fuel` of them. -/
def Decimal.strip : (fuel : Nat) → Decimal → Decimal
  | 0, d => d
  | fuel + 1, d =>
    if d.digits ≠ 0 ∧ d.digits % 10 = 0 then strip fuel ⟨d.digits / 10, d.exponent + 1⟩ else d

/-- The neighbours of a fraction on the grid of `10 ^ e`, the preferred one first. -/
def neighbours (num den : Nat) (e : Int) : List Decimal :=
  let n := num * Nat.pow 10 (-e).toNat
  let d := den * Nat.pow 10 e.toNat
  let q := n / d
  let r := n % d
  let low : Decimal := ⟨q, e⟩
  let high : Decimal := ⟨q + 1, e⟩
  if 2 * r < d then [low, high]
  else if d < 2 * r then [high, low]
  else if q % 2 = 0 then [low, high]
  else [high, low]

/-- The shortest decimal of a positive value that `reads` gives back. -/
def shortest (reads : Decimal → Option Binary) (x : Binary) : Decimal :=
  let f := x.fraction
  let scale := x.scale
  let found := (List.range 9).findSome? fun (n : Nat) =>
    (neighbours f.1 f.2 (scale - (n : Int) - 1)).find? fun d => reads d == some x
  (found.getD x.toDecimal).strip 200

end BipartiteBatch.Number
