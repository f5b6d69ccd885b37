import BipartiteBatch.Json.Basic

/-!
# Reading values out of JSON

Each function gives a value of the wanted kind, or nothing if the JSON is of another kind or out of
range.

* `toNat?`, `toSize?`, `toUInt64?`, `toUInt16?`, `toFloat32?`, `toText?` : leaves;
* `toList?` : an array, item by item;
* `fields?` : a record with all its fields, as an object or as an array in field order;
* `options?` : the same where each field may be left out and no others may be given;
* `variant?` : one of several names, alone or as the only key of an object with value null.
-/

namespace BipartiteBatch.Json

/-- A whole number up to a largest one. -/
def toNat? (largest : Nat) : Json → Option Nat
  | .number n => n.toNat?.filter (· ≤ largest)
  | _ => none

/-- A size or position, which is a 64-bit number. -/
def toSize? (j : Json) : Option Nat := j.toNat? 0xFFFFFFFFFFFFFFFF

def toUInt64? (j : Json) : Option UInt64 := j.toSize?.map UInt64.ofNat

def toUInt16? (j : Json) : Option UInt16 := (j.toNat? 0xFFFF).map UInt16.ofNat

/-- A float, from any number that a 64-bit float can hold. -/
def toFloat32? : Json → Option Float32
  | .number n => n.toBits32?.map Float32.ofBits
  | _ => none

def toText? : Json → Option String
  | .string s => s
  | _ => none

def toList? {α : Type} (f : Json → Option α) : Json → Option (List α)
  | .array js => js.mapM f
  | _ => none

/-- The members of an object, each key being a text. -/
def members : List (Option String × Json) → Option (List (String × Json))
  | [] => some []
  | (none, _) :: _ => none
  | (some k, j) :: ms => (members ms).map ((k, j) :: ·)

/-- The value of a key that may stand once at most: `none` if it is repeated. -/
def once? (ms : List (String × Json)) (name : String) : Option (Option Json) :=
  match ms.filter fun m => m.1 == name with
  | [] => some none
  | [m] => some (some m.2)
  | _ => none

/-- The values of all fields of a record. Other members are ignored. -/
def fields? (names : List String) : Json → Option (List Json)
  | .array js => if js.length = names.length then some js else none
  | .object ms => do
    let ms ← members ms
    names.mapM fun name => (once? ms name).join
  | _ => none

/-- The values of those fields of a record that are given, in field order. Other members are refused,
and an array gives the first fields. -/
def options? (names : List String) : Json → Option (List (Option Json))
  | .array js =>
    if js.length ≤ names.length then
      some (js.map some ++ List.replicate (names.length - js.length) none)
    else none
  | .object ms => do
    let ms ← members ms
    if ms.all fun m => names.contains m.1 then names.mapM fun name => once? ms name else none
  | _ => none

def variant? {α : Type} (names : List (String × α)) : Json → Option α
  | .string (some s) => names.lookup s
  | .object [(some s, .null)] => names.lookup s
  | _ => none

mutual

/-- The value can be set aside until its kind is known: its strings are texts, its numbers are 64-bit
integers or within the range of a 64-bit float, and it is nested at most as deep as given. -/
def isHeld : (depth : Nat) → Json → Bool
  | _, .number n => n.toBits32?.isSome
  | _, .string s => s.isSome
  | 0, .array _ => false
  | 0, .object _ => false
  | depth + 1, .array js => areHeld depth js
  | depth + 1, .object ms => membersHeld depth ms
  | _, _ => true

def areHeld : (depth : Nat) → List Json → Bool
  | _, [] => true
  | depth, j :: js => isHeld depth j && areHeld depth js

def membersHeld : (depth : Nat) → List (Option String × Json) → Bool
  | _, [] => true
  | depth, (k, j) :: ms => k.isSome && isHeld depth j && membersHeld depth ms

end

end BipartiteBatch.Json
