import BipartiteBatch.Number.Binary
import BipartiteBatch.Number.Word

/-!
# Reading 32-bit floats

A float is written as an optional sign and then either `inf`, `infinity` or `nan` in any case, or
decimal digits with an optional point and an optional exponent; at least one digit stands before the
exponent. The value is the nearest one, and infinity beyond the largest.
-/

namespace BipartiteBatch

inductive FloatFault where
  | empty
  | invalid
deriving DecidableEq, Repr

namespace FloatFault

def message : FloatFault → String
  | empty => "cannot parse float from empty string"
  | invalid => "invalid float literal"

end FloatFault

namespace Number

def digitsValue (cs : List Char) : Nat := cs.foldl (fun n c => 10 * n + digitValue c) 0

/-- An exponent: an optional sign and at least one digit. -/
def readExponent : List Char → Option Int
  | '+' :: cs => unsigned cs
  | '-' :: cs => (unsigned cs).map (- ·)
  | cs => unsigned cs
where
  unsigned (cs : List Char) : Option Int :=
    if cs.isEmpty || !cs.all Char.isDigit then none else some (digitsValue cs)

def readDecimal (cs : List Char) : Option Decimal :=
  let (whole, rest) := cs.span Char.isDigit
  let (fraction, rest) :=
    match rest with
    | '.' :: rest => rest.span Char.isDigit
    | _ => ([], rest)
  if whole.isEmpty && fraction.isEmpty then none
  else
    let digits := digitsValue (whole ++ fraction)
    let places : Int := fraction.length
    match rest with
    | [] => some ⟨digits, -places⟩
    | c :: rest =>
      if c = 'e' ∨ c = 'E' then (readExponent rest).map fun e => ⟨digits, e - places⟩ else none

/-- The bits of infinity and of a NaN, by name. -/
def readSpecial (cs : List Char) : Option UInt32 :=
  let name := String.ofList (cs.map Char.toLower)
  if name = "inf" ∨ name = "infinity" then some 0x7F800000
  else if name = "nan" then some 0x7FC00000
  else none

def readMagnitude (cs : List Char) : Option UInt32 :=
  match readDecimal cs with
  | some d => some (toBits32 false (single.ofDecimal d))
  | none => readSpecial cs

def readFloat32 (s : String) : Except FloatFault Float32 :=
  let read (negative : Bool) (cs : List Char) : Except FloatFault Float32 :=
    match readMagnitude cs with
    | some bits => .ok (Float32.ofBits (if negative then bits ^^^ 0x80000000 else bits))
    | none => .error .invalid
  match s.toList with
  | [] => .error .empty
  | '+' :: cs => read false cs
  | '-' :: cs => read true cs
  | cs => read false cs

end Number

end BipartiteBatch
