import BipartiteBatch.Json.Number

/-!
# JSON values

A JSON text as a tree. An escape of a lone surrogate is grammatical but denotes no character, so a text
may be absent.

* `Json` : the tree;
* `Json.ofNat`, `Json.ofText`, `Json.ofFloat32` : the leaves that are written.
-/

namespace BipartiteBatch

open Number

/-- A JSON value. A string without a text holds a lone surrogate. -/
inductive Json where
  | null
  | bool (b : Bool)
  | number (n : Json.Number)
  | string (text : Option String)
  | array (items : List Json)
  | object (members : List (Option String × Json))

namespace Json

def ofNat (n : Nat) : Json := .number (.ofNat n)

def ofText (s : String) : Json := .string (some s)

/-- A float; those that are not finite are null. -/
def ofFloat32 (x : Float32) : Json :=
  match ofBits32 x.toBits with
  | some (negative, v) => .number (.ofBinary negative v)
  | none => .null

def ofList {α : Type} (f : α → Json) (xs : List α) : Json := .array (xs.map f)

def ofMembers (members : List (String × Json)) : Json :=
  .object (members.map fun m => (some m.1, m.2))

end Json

end BipartiteBatch
