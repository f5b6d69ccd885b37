import BipartiteBatch.Json.Basic

/-!
# Writing JSON

Two layouts: `compact` has no blanks, `pretty` puts each item and member on a line of its own, two
blanks deeper than what holds it. Strings escape quotes, backslashes and the characters below the
space; all others are written as they are.
-/

namespace BipartiteBatch.Json

def Number.chars (n : Json.Number) : List Char :=
  let unit := Nat.pow 10 n.places
  let fraction := Nat.toDigits 10 (n.digits % unit)
  (if n.negative then ['-'] else []) ++ Nat.toDigits 10 (n.digits / unit)
    ++ (if n.places = 0 then [] else
      '.' :: List.replicate (n.places - fraction.length) '0' ++ fraction)
    ++ (match n.exponent with
      | none => []
      | some e => 'e' :: (if e < 0 then '-' else '+') :: Nat.toDigits 10 e.natAbs)

/-- The character `\u00xx` of a code point below 256. -/
def escapedUnit (n : Nat) : List Char :=
  ['\\', 'u', '0', '0', Nat.digitChar (n / 16), Nat.digitChar (n % 16)]

def escapedChar (c : Char) : List Char :=
  if c = '"' then ['\\', '"']
  else if c = '\\' then ['\\', '\\']
  else if 0x20 ≤ c.toNat then [c]
  else if c.toNat = 8 then ['\\', 'b']
  else if c.toNat = 9 then ['\\', 't']
  else if c.toNat = 10 then ['\\', 'n']
  else if c.toNat = 12 then ['\\', 'f']
  else if c.toNat = 13 then ['\\', 'r']
  else escapedUnit c.toNat

/-- A string in quotes. What has no text is written as a lone surrogate. -/
def stringChars : Option String → List Char
  | some s => '"' :: s.toList.flatMap escapedChar ++ ['"']
  | none => "\"\\ud800\"".toList

def boolChars (b : Bool) : List Char := if b then "true".toList else "false".toList

mutual

def chars : Json → List Char
  | .null => "null".toList
  | .bool b => boolChars b
  | .number n => n.chars
  | .string s => stringChars s
  | .array [] => ['[', ']']
  | .array (j :: js) => '[' :: chars j ++ itemChars js
  | .object [] => ['{', '}']
  | .object ((k, j) :: ms) => '{' :: stringChars k ++ ':' :: chars j ++ memberChars ms

/-- The items after the first, and the closing bracket. -/
def itemChars : List Json → List Char
  | [] => [']']
  | j :: js => ',' :: chars j ++ itemChars js

def memberChars : List (Option String × Json) → List Char
  | [] => ['}']
  | (k, j) :: ms => ',' :: stringChars k ++ ':' :: chars j ++ memberChars ms

end

def newline (depth : Nat) : List Char := '\n' :: List.replicate (2 * depth) ' '

mutual

/-- A value laid out over lines at a depth. -/
def prettyChars (depth : Nat) : Json → List Char
  | .null => "null".toList
  | .bool b => boolChars b
  | .number n => n.chars
  | .string s => stringChars s
  | .array [] => ['[', ']']
  | .array (j :: js) =>
    '[' :: newline (depth + 1) ++ prettyChars (depth + 1) j ++ prettyItems depth js
  | .object [] => ['{', '}']
  | .object ((k, j) :: ms) =>
    '{' :: newline (depth + 1) ++ stringChars k ++ ':' :: ' ' :: prettyChars (depth + 1) j
      ++ prettyMembers depth ms

def prettyItems (depth : Nat) : List Json → List Char
  | [] => newline depth ++ [']']
  | j :: js => ',' :: newline (depth + 1) ++ prettyChars (depth + 1) j ++ prettyItems depth js

def prettyMembers (depth : Nat) : List (Option String × Json) → List Char
  | [] => newline depth ++ ['}']
  | (k, j) :: ms =>
    ',' :: newline (depth + 1) ++ stringChars k ++ ':' :: ' ' :: prettyChars (depth + 1) j
      ++ prettyMembers depth ms

end

def compact (j : Json) : String := String.ofList j.chars

def pretty (j : Json) : String := String.ofList (j.prettyChars 0)

end BipartiteBatch.Json
