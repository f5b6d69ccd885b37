import BipartiteBatch.Json.Decode
import BipartiteBatch.Json.Parser
import BipartiteBatch.Json.Printer

/-!
# Types with a form in JSON

A codec gives each value of a type its form in JSON, and reads values back. Reading admits more forms
than writing gives: a record may be an array of its fields, and may have further members.

* `JsonCodec` : the two directions;
* `ofJsonText?`, `toJsonText` : the same for texts.
-/

namespace BipartiteBatch

/-- A type whose values have a form in JSON. -/
class JsonCodec (α : Type) where
  /-- The form of a value. -/
  toJson : α → Json
  /-- The value that a JSON value is a form of. -/
  ofJson? : Json → Option α

namespace JsonCodec

variable {α : Type} [JsonCodec α]

def ofJsonText? (text : String) : Option α := (Json.parse? text).bind ofJson?

def toJsonText (a : α) : String := (toJson a).compact

def toJsonLines (a : α) : String := (toJson a).pretty

end JsonCodec

/-- A codec for finitely many values that go by names. -/
abbrev JsonCodec.ofNames {α : Type} (values : List α) (name : α → String) : JsonCodec α where
  toJson a := .ofText (name a)
  ofJson? j := j.variant? (values.map fun a => (name a, a))

end BipartiteBatch
