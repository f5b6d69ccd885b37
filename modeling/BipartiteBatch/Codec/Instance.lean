import BipartiteBatch.Instance
import BipartiteBatch.Json.Codec
import BipartiteBatch.SlotNames

/-!
# Instances in JSON

A slot value is an object of its kind and its data, in either order, or an array of the two; other
members are ignored. In an array the kind must be a plain name. Data that come before their kind have to
be set aside until it is known, which puts a bound on their nesting. The slots of an instance are the
members of an object; of slots with the same name the last one counts.

* `SlotValue.ofKindAndData?` : the value of a kind that the data stand for;
* `SlotValue.ofJsonWithin?` : the value inside a number of enclosing brackets.
-/

namespace BipartiteBatch

open JsonCodec

instance : JsonCodec EncoderSlots where
  toJson s :=
    .ofMembers
      [("node_feature", .ofText s.nodeFeature), ("neigh_feature", .ofText s.neighborFeature),
        ("self_block", .ofText s.selfBlock), ("neigh_block", .ofText s.neighborBlock)]
  ofJson? j := do
    let [nodeFeature, neighborFeature, selfBlock, neighborBlock] ←
      j.fields? ["node_feature", "neigh_feature", "self_block", "neigh_block"] | none
    return ⟨← nodeFeature.toText?, ← neighborFeature.toText?, ← selfBlock.toText?,
      ← neighborBlock.toText?⟩

instance : JsonCodec SlotNames where
  toJson s :=
    .ofMembers
      [("user", toJson s.user), ("item", toJson s.item), ("src_id", .ofText s.srcId),
        ("dst_id", .ofText s.dstId), ("label", .ofText s.label),
        ("predict_node", .ofText s.predictNode)]
  ofJson? j := do
    let [user, item, srcId, dstId, label, predictNode] ←
      j.fields? ["user", "item", "src_id", "dst_id", "label", "predict_node"] | none
    return ⟨← ofJson? user, ← ofJson? item, ← srcId.toText?, ← dstId.toText?, ← label.toText?,
      ← predictNode.toText?⟩

instance : JsonCodec Csr where
  toJson csr :=
    .ofMembers
      [("row_offset", .ofList Json.ofNat csr.rowOffset.toList),
        ("col", .ofList (fun c => Json.ofNat c.toNat) csr.col.toList),
        ("value", .ofList Json.ofFloat32 csr.value.toList)]
  ofJson? j := do
    let [rowOffset, col, value] ← j.fields? ["row_offset", "col", "value"] | none
    return ⟨(← rowOffset.toList? Json.toSize?).toArray, (← col.toList? Json.toUInt64?).toArray,
      (← value.toList? Json.toFloat32?).toArray⟩

instance : JsonCodec SlotKind := .ofNames SlotKind.all SlotKind.name

namespace SlotValue

def dataJson : SlotValue → Json
  | csr block => toJson block
  | csrList blocks => .ofList toJson blocks
  | indices items => .ofList Json.ofNat items
  | nodes items => .ofList (fun n => Json.ofNat n.toNat) items
  | labels items => .ofList Json.ofFloat32 items

def ofKindAndData? (kind : SlotKind) (data : Json) : Option SlotValue :=
  match kind with
  | .csr => (ofJson? data).map csr
  | .csrList => (data.toList? ofJson?).map csrList
  | .indices => (data.toList? Json.toSize?).map indices
  | .nodes => (data.toList? Json.toUInt64?).map nodes
  | .labels => (data.toList? Json.toFloat32?).map labels

/-- The nesting that a text may have where values are set aside. -/
def nestingLimit : Nat := 127

/-- The value that stands inside `outer` brackets of a text. -/
def ofJsonWithin? (outer : Nat) : Json → Option SlotValue
  | .array [.string (some name), data] => do ofKindAndData? (← SlotKind.ofName? name) data
  | .object ms => do
    match (← Json.members ms).filter fun m => m.1 == "kind" || m.1 == "data" with
    | [("kind", kind), ("data", data)] => ofKindAndData? (← ofJson? kind) data
    | [("data", data), ("kind", kind)] =>
      if data.isHeld (nestingLimit - (outer + 1)) then ofKindAndData? (← ofJson? kind) data
      else none
    | _ => none
  | _ => none

end SlotValue

instance : JsonCodec SlotValue where
  toJson value := .ofMembers [("kind", .ofText value.kind.name), ("data", value.dataJson)]
  ofJson? := SlotValue.ofJsonWithin? 0

namespace Instance

def slotsOfJson? : Json → Option (Table SlotValue)
  | .object ms => do
    let ms ← Json.members ms
    let entries ← ms.mapM fun m => (SlotValue.ofJsonWithin? 2 m.2).map fun value => (m.1, value)
    return .ofList entries
  | _ => none

end Instance

instance : JsonCodec Instance where
  toJson inst :=
    .ofMembers
      [("slots", .ofMembers (inst.slots.entries.map fun e => (e.1, toJson e.2))),
        ("batch_size", .ofNat inst.batchSize)]
  ofJson? j := do
    let [slots, batchSize] ← j.fields? ["slots", "batch_size"] | none
    return ⟨← Instance.slotsOfJson? slots, ← batchSize.toSize?⟩

end BipartiteBatch
