import BipartiteBatch.Config.Text
import BipartiteBatch.Json.Codec
import BipartiteBatch.Negative.Settings
import BipartiteBatch.Reader.Kind
import BipartiteBatch.Reader.Stats

/-!
# Settings and totals in JSON

The options of a reader may be left out of its JSON form, and then have their default values; an option
that is not known is refused. Totals and the settings of a sampler must be complete.

* `Config.ofJsonText` : the configuration of a JSON text, which must pass the check.
-/

namespace BipartiteBatch

open JsonCodec

instance : JsonCodec SelfExclusion := .ofNames SelfExclusion.all SelfExclusion.name

instance : JsonCodec Strategy := .ofNames Strategy.all Strategy.name

instance : JsonCodec SamplingSettings where
  toJson s :=
    .ofMembers
      [("strategy", toJson s.strategy), ("temperature", .ofFloat32 s.temperature),
        ("self_exclusion", toJson s.selfExclusion), ("seed", .ofNat s.seed.toNat)]
  ofJson? j := do
    let [strategy, temperature, selfExclusion, seed] ←
      j.fields? ["strategy", "temperature", "self_exclusion", "seed"] | none
    return ⟨← ofJson? strategy, ← temperature.toFloat32?, ← ofJson? selfExclusion,
      ← seed.toUInt64?⟩

instance : JsonCodec Stats where
  toJson s :=
    .ofMembers
      [("batches", .ofNat s.batches.toNat), ("records", .ofNat s.records.toNat),
        ("rows", .ofNat s.rows.toNat), ("invalid_nodes", .ofNat s.invalidNodes.toNat),
        ("self_negatives", .ofNat s.selfNegatives.toNat)]
  ofJson? j := do
    let [batches, records, rows, invalidNodes, selfNegatives] ←
      j.fields? ["batches", "records", "rows", "invalid_nodes", "self_negatives"] | none
    return ⟨← batches.toUInt64?, ← records.toUInt64?, ← rows.toUInt64?, ← invalidNodes.toUInt64?,
      ← selfNegatives.toUInt64?⟩

instance : JsonCodec ReaderKind where
  toJson kind := .ofText kind.name
  ofJson? j := j.variant? (ReaderKind.names)

namespace Config

/-- The flag that a truth value, zero or one stands for. -/
def flagOfJson? : Json → Option Bool
  | .bool b => some b
  | .number n =>
    match n.toNat? with
    | some 0 => some false
    | some 1 => some true
    | _ => none
  | _ => none

/-- The value of an option, its default if it is not given. -/
def option? {α : Type} (default : α) (read : Json → Option α) : Option Json → Option α
  | none => some default
  | some j => read j

end Config

instance : JsonCodec Config where
  toJson c :=
    .ofMembers
      [(Setting.batch.key, .ofNat c.batch.toNat), (Setting.isTrain.key, .bool c.isTrain),
        (Setting.numNeg.key, .ofNat c.numNeg.toNat),
        (Setting.numNeighbors.key, .ofList (fun n => Json.ofNat n.toNat) c.numNeighbors),
        (Setting.useNeighFeat.key, .bool c.useNeighFeat),
        (Setting.userTag.key, .ofNat c.userTag.toNat),
        (Setting.itemTag.key, .ofNat c.itemTag.toNat)]
  ofJson? j := do
    let [batch, isTrain, numNeg, numNeighbors, useNeighFeat, userTag, itemTag] ←
      j.options? (Setting.all.map Setting.key) | none
    let c : Config := {}
    return {
      batch := ← Config.option? c.batch Json.toUInt64? batch
      isTrain := ← Config.option? c.isTrain Config.flagOfJson? isTrain
      numNeg := ← Config.option? c.numNeg Json.toUInt64? numNeg
      numNeighbors := ← Config.option? c.numNeighbors (Json.toList? Json.toUInt64?) numNeighbors
      useNeighFeat := ← Config.option? c.useNeighFeat Config.flagOfJson? useNeighFeat
      userTag := ← Config.option? c.userTag Json.toUInt16? userTag
      itemTag := ← Config.option? c.itemTag Json.toUInt16? itemTag }

def Config.ofJsonText (text : String) : Except BatchError Config :=
  match JsonCodec.ofJsonText? (α := Config) text with
  | none => .error .json
  | some c => c.checked.mapError .config

end BipartiteBatch
