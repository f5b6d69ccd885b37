import BipartiteBatch.Event
import BipartiteBatch.Text.Blank

/-!
# Configurations in texts

A configuration text is a list of `key=value` items between semicolons or line ends. The items are
applied in order, and each is accepted as a whole or refused as a whole; the first refused one ends the
text, those before it stay in force.

* `Config.assign`, `Config.attempt` : one option changed in place, by name and by key;
* `Config.applyItem`, `Config.apply` : the option of an item, and the options of a text;
* `Config.check` : the ranges of all options together;
* `Config.ofText` : the configuration of a text, which must pass the check.
-/

namespace BipartiteBatch

open Number Text

namespace Setting

def readWord (s : Setting) (given : String) : Except ConfigError UInt64 :=
  match readUInt64 (trim given) with
  | .ok n => .ok n
  | .error fault => .error (.notNumber s given fault)

def readPositive (s : Setting) (given : String) : Except ConfigError UInt64 := do
  let n ← s.readWord given
  if n = 0 then throw (.notPositive s)
  return n

def readTag (s : Setting) (given : String) : Except ConfigError Tag :=
  match readUInt16 (trim given) with
  | .ok n => .ok n
  | .error fault => .error (.notNumber s given fault)

def readFlag (s : Setting) (given : String) : Except ConfigError Bool :=
  let text := trim given
  if text = "1" then .ok true
  else if text = "0" then .ok false
  else .error (.notFlag s text)

/-- The positive words given for an option, between commas. All are read before any is found to be
zero. -/
def readPositives (s : Setting) (given : String) : Except ConfigError (List UInt64) := do
  let items := ((splitAt (· == ',') given).map trim).filter fun item => !item.isEmpty
  let ns ← items.mapM s.readWord
  if ns.contains 0 then throw (.notPositive s)
  return ns

end Setting

namespace Config

/-- What applying a text gave: the configuration as far as it got, whether that was to the end, and a
report of each accepted item. -/
structure Applied where
  result : Except ConfigError Unit
  config : Config
  events : List Event

/-- What was done, and then, if it was done to the end, what is done next. -/
def Applied.andThen (first : Applied) (next : Config → Applied) : Applied :=
  match first.result with
  | .ok () =>
    let second := next first.config
    { second with events := first.events ++ second.events }
  | .error _ => first

/-- A change of a configuration in place. What was changed before a refusal stays changed. -/
abbrev Change := ExceptT ConfigError (StateM Config)

/-- Put the value given for an option in its place. It is read before anything changes. -/
def assign (s : Setting) (given : String) : Change Unit :=
  match s with
  | .batch => do
    let n ← s.readPositive given
    modify fun c => { c with batch := n }
  | .isTrain => do
    let flag ← s.readFlag given
    modify fun c => { c with isTrain := flag }
  | .numNeg => do
    let n ← s.readPositive given
    modify fun c => { c with numNeg := n }
  | .numNeighbors => do
    let ns ← s.readPositives given
    modify fun c => { c with numNeighbors := ns }
  | .useNeighFeat => do
    let flag ← s.readFlag given
    modify fun c => { c with useNeighFeat := flag }
  | .userTag => do
    let tag ← s.readTag given
    modify fun c => { c with userTag := tag }
  | .itemTag => do
    let tag ← s.readTag given
    modify fun c => { c with itemTag := tag }

/-- What giving a value to the option with a key did. -/
def attempt (c : Config) (key given : String) : Applied :=
  match Setting.ofKey? key with
  | none => ⟨.error (.unknownKey key given), c, []⟩
  | some s =>
    match (assign s given).run.run c with
    | (.ok (), c) => ⟨.ok (), c, [.settingAccepted key given]⟩
    | (.error e, c) => ⟨.error e, c, []⟩

def splitItem (item : String) : Except ConfigError (String × String) :=
  match splitOnce? (· == '=') item with
  | some (key, given) => .ok (trim key, trim given)
  | none => .error (.noEquals item)

def applyItem (c : Config) (item : String) : Applied :=
  match splitItem item with
  | .ok (key, given) => c.attempt key given
  | .error e => ⟨.error e, c, []⟩

def applyItems (c : Config) : List String → Applied
  | [] => ⟨.ok (), c, []⟩
  | item :: items => (c.applyItem item).andThen fun d => d.applyItems items

/-- The items of a text, trimmed, without the empty ones. -/
def items (text : String) : List String :=
  ((splitAt (fun ch => ch == ';' || ch == '\n') text).map trim).filter fun item => !item.isEmpty

def apply (c : Config) (text : String) : Applied := c.applyItems (items text)

/-- The numbers are positive, and the two groups have different tags. -/
def check (c : Config) : Except ConfigError Unit :=
  if c.batch = 0 then .error (.notPositive .batch)
  else if c.numNeg = 0 then .error (.notPositive .numNeg)
  else if c.numNeighbors.contains 0 then .error (.notPositive .numNeighbors)
  else if c.userTag = c.itemTag then .error (.sameTags c.userTag)
  else .ok ()

def checked (c : Config) : Except ConfigError Config := do
  c.check
  return c

/-- The configuration of a text on top of the defaults, and the reports of its items. -/
def ofText (text : String) : Except ConfigError Config × List Event :=
  let applied := ({} : Config).apply text
  (applied.result.bind fun _ => applied.config.checked, applied.events)

end Config

end BipartiteBatch
