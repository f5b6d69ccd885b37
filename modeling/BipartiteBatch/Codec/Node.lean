import BipartiteBatch.Graph.Client
import BipartiteBatch.Input.Record
import BipartiteBatch.Json.Codec

/-!
# Nodes, records and neighbors in JSON

Groups are named; tags, records and neighbors are records with the names of their fields.
-/

namespace BipartiteBatch

open JsonCodec

instance : JsonCodec Group := .ofNames Group.all Group.name

instance : JsonCodec GroupTags where
  toJson tags :=
    .ofMembers [("user", .ofNat tags.user.toNat), ("item", .ofNat tags.item.toNat)]
  ofJson? j := do
    let [user, item] ← j.fields? ["user", "item"] | none
    return ⟨← user.toUInt16?, ← item.toUInt16?⟩

instance : JsonCodec EdgeRecord where
  toJson r := .ofMembers [("src", .ofNat r.src.toNat), ("dst", .ofNat r.dst.toNat)]
  ofJson? j := do
    let [src, dst] ← j.fields? ["src", "dst"] | none
    return ⟨← src.toUInt64?, ← dst.toUInt64?⟩

instance : JsonCodec NodeRecord where
  toJson r := .ofMembers [("node", .ofNat r.node.toNat)]
  ofJson? j := do
    let [node] ← j.fields? ["node"] | none
    return ⟨← node.toUInt64?⟩

instance : JsonCodec Neighbor where
  toJson n := .ofMembers [("node", .ofNat n.node.toNat), ("weight", .ofFloat32 n.weight)]
  ofJson? j := do
    let [node, weight] ← j.fields? ["node", "weight"] | none
    return ⟨← node.toUInt64?, ← weight.toFloat32?⟩

end BipartiteBatch
