/-!
# Reading whole numbers

A whole number is written with decimal digits after an optional plus sign. Digits are taken from the
left, and the first fault met decides: a character that is no digit, or a value beyond the largest
admitted one.

* `readNat` : the number, up to a given largest one;
* `readUInt64`, `readUInt16` : the same for machine words.
-/

namespace BipartiteBatch

inductive WordFault where
  | empty
  | invalidDigit
  | tooLarge
deriving DecidableEq, Repr

namespace WordFault

def message : WordFault → String
  | empty => "cannot parse integer from empty string"
  | invalidDigit => "invalid digit found in string"
  | tooLarge => "number too large to fit in target type"

end WordFault

namespace Number

def digitValue (c : Char) : Nat := c.toNat - '0'.toNat

/-- Continue the number `n` with the digits of a text. -/
def readDigits (largest : Nat) : (n : Nat) → List Char → Except WordFault Nat
  | n, [] => .ok n
  | n, c :: cs =>
    if c.isDigit then
      let n := 10 * n + digitValue c
      if n ≤ largest then readDigits largest n cs else .error .tooLarge
    else .error .invalidDigit

def readNat (largest : Nat) : List Char → Except WordFault Nat
  | [] => .error .empty
  | ['+'] => .error .invalidDigit
  | '+' :: cs => readDigits largest 0 cs
  | cs => readDigits largest 0 cs

def readUInt64 (s : String) : Except WordFault UInt64 :=
  (readNat 0xFFFFFFFFFFFFFFFF s.toList).map UInt64.ofNat

def readUInt16 (s : String) : Except WordFault UInt16 :=
  (readNat 0xFFFF s.toList).map UInt16.ofNat

end Number

end BipartiteBatch
