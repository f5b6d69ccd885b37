import BipartiteBatch.Csr
import BipartiteBatch.Table

/-!
# Instances

An instance is what an encoder is handed: named slots, each with a value of one of five kinds, and the
number of records they were made from. One instance serves for all batches of a reader, which clears it
before it writes.

* `SlotValue`, `SlotKind` : the values of slots and their kinds;
* `Instance` : the slots and the batch size;
* `Instance.getOrInsert` : what a slot holds, as a value of a given kind, where a slot that is missing or of
  another kind is first set to the empty value;
* `Instance.update` : a slot changed through it, `Instance.update_eq_insert` : which sets that slot.
-/

namespace BipartiteBatch

inductive SlotKind where
  | csr
  | csrList
  | indices
  | nodes
  | labels
deriving DecidableEq, Repr

namespace SlotKind

def name : SlotKind → String
  | csr => "csr"
  | csrList => "csr_list"
  | indices => "indices"
  | nodes => "nodes"
  | labels => "labels"

def all : List SlotKind := [csr, csrList, indices, nodes, labels]

def ofName? (name : String) : Option SlotKind := all.find? fun kind => kind.name == name

abbrev Content : SlotKind → Type
  | csr => Csr
  | csrList => List Csr
  | indices => List Nat
  | nodes => List NodeId
  | labels => List Float32

def empty : (kind : SlotKind) → kind.Content
  | csr => .empty
  | csrList => []
  | indices => []
  | nodes => []
  | labels => []

end SlotKind

/-- The value of a slot: a block, a block per hop, indices, nodes or labels. -/
inductive SlotValue where
  | csr (block : Csr)
  | csrList (blocks : List Csr)
  | indices (items : List Nat)
  | nodes (items : List NodeId)
  | labels (items : List Float32)

namespace SlotValue

def kind : SlotValue → SlotKind
  | csr _ => .csr
  | csrList _ => .csrList
  | indices _ => .indices
  | nodes _ => .nodes
  | labels _ => .labels

def size : SlotValue → Nat
  | csr block => block.rowCount
  | csrList blocks => blocks.length
  | indices items => items.length
  | nodes items => items.length
  | labels items => items.length

def ofContent : (kind : SlotKind) → kind.Content → SlotValue
  | .csr => csr
  | .csrList => csrList
  | .indices => indices
  | .nodes => nodes
  | .labels => labels

def csr? : SlotValue → Option Csr
  | csr block => some block
  | _ => none

def csrList? : SlotValue → Option (List Csr)
  | csrList blocks => some blocks
  | _ => none

def indices? : SlotValue → Option (List Nat)
  | indices items => some items
  | _ => none

def nodes? : SlotValue → Option (List NodeId)
  | nodes items => some items
  | _ => none

def labels? : SlotValue → Option (List Float32)
  | labels items => some items
  | _ => none

def content? (value : SlotValue) : (kind : SlotKind) → Option kind.Content
  | .csr => value.csr?
  | .csrList => value.csrList?
  | .indices => value.indices?
  | .nodes => value.nodes?
  | .labels => value.labels?

theorem content?_eq_some {value : SlotValue} {kind : SlotKind} {content : kind.Content} :
    value.content? kind = some content ↔ value = ofContent kind content := by
  cases value <;> cases kind <;>
    simp [content?, ofContent, csr?, csrList?, indices?, nodes?, labels?]

end SlotValue

/-- Named slots, and the number of records they were made from. -/
structure Instance where
  slots : Table SlotValue := .empty
  batchSize : Nat := 0

namespace Instance

def empty : Instance := {}

def get? (inst : Instance) (name : String) : Option SlotValue := inst.slots.get? name

def contains (inst : Instance) (name : String) : Bool := inst.slots.contains name

def insert (inst : Instance) (name : String) (value : SlotValue) : Instance :=
  { inst with slots := inst.slots.insert name value }

def erase (inst : Instance) (name : String) : Instance :=
  { inst with slots := inst.slots.erase name }

def names (inst : Instance) : List String := inst.slots.names

def size (inst : Instance) : Nat := inst.slots.size

def isEmpty (inst : Instance) : Bool := inst.size == 0

def withBatchSize (inst : Instance) (size : Nat) : Instance := { inst with batchSize := size }

def csr? (inst : Instance) (name : String) : Option Csr := (inst.get? name).bind SlotValue.csr?

def csrList? (inst : Instance) (name : String) : Option (List Csr) :=
  (inst.get? name).bind SlotValue.csrList?

def indices? (inst : Instance) (name : String) : Option (List Nat) :=
  (inst.get? name).bind SlotValue.indices?

def nodes? (inst : Instance) (name : String) : Option (List NodeId) :=
  (inst.get? name).bind SlotValue.nodes?

def labels? (inst : Instance) (name : String) : Option (List Float32) :=
  (inst.get? name).bind SlotValue.labels?

/-- What a slot holds, and the instance in which it holds that. A slot that there is not, or that holds a
value of another kind, is first set to the empty value of the kind. -/
def getOrInsert (inst : Instance) (name : String) (kind : SlotKind) : kind.Content × Instance :=
  match (inst.get? name).bind fun value => value.content? kind with
  | some content => (content, inst)
  | none => (kind.empty, inst.insert name (.ofContent kind kind.empty))

/-- Change what a slot holds, as a value of a kind. -/
def update (inst : Instance) (name : String) (kind : SlotKind) (f : kind.Content → kind.Content) :
    Instance :=
  let (content, inst) := inst.getOrInsert name kind
  inst.insert name (.ofContent kind (f content))

theorem get?_insert (inst : Instance) (name other : String) (value : SlotValue) :
    (inst.insert name value).get? other = if name = other then some value else inst.get? other :=
  Table.get?_insert inst.slots name other value

@[simp] theorem get?_empty (name : String) : empty.get? name = none := rfl

@[simp] theorem get?_withBatchSize (inst : Instance) (size : Nat) (name : String) :
    (inst.withBatchSize size).get? name = inst.get? name := rfl

theorem ext_get? {a b : Instance} (hs : ∀ name, a.get? name = b.get? name)
    (hb : a.batchSize = b.batchSize) : a = b := by
  obtain ⟨s, n⟩ := a
  obtain ⟨t, m⟩ := b
  obtain rfl : s = t := Table.ext_get? hs
  obtain rfl : n = m := hb
  rfl

theorem insert_insert (inst : Instance) (name : String) (first second : SlotValue) :
    (inst.insert name first).insert name second = inst.insert name second :=
  congrArg (fun slots => { inst with slots }) (Table.insert_insert inst.slots name first second)

section Access
variable (inst : Instance) (name : String) (kind : SlotKind)

/-- The slot then holds a value of the kind, whatever it held. -/
theorem get?_getOrInsert :
    (inst.getOrInsert name kind).2.get? name = some (.ofContent kind (inst.getOrInsert name kind).1) := by
  unfold getOrInsert
  split
  · next content h =>
    obtain ⟨value, hvalue, hcontent⟩ := Option.bind_eq_some_iff.1 h
    rw [hvalue, SlotValue.content?_eq_some.1 hcontent]
  · rw [get?_insert, if_pos rfl]

/-- Setting a slot that was made to hold a value of a kind is setting it as it was. -/
theorem getOrInsert_insert (value : SlotValue) :
    (inst.getOrInsert name kind).2.insert name value = inst.insert name value := by
  unfold getOrInsert
  split
  · rfl
  · exact insert_insert _ _ _ _

theorem update_eq_insert (f : kind.Content → kind.Content) :
    inst.update name kind f = inst.insert name (.ofContent kind (f (inst.getOrInsert name kind).1)) :=
  getOrInsert_insert inst name kind _

end Access

end Instance

end BipartiteBatch
