import BipartiteBatch.Node

/-!
# Reader configuration

How many records make a batch, whether batches are for training or for prediction, how many negatives
accompany an edge, how many neighbors are sampled per hop, and which tags mark the two groups.

* `Config` : the options, with their defaults;
* `Setting` : the options by name;
* `Config.mode`, `Config.tags` : what the options select.
-/

namespace BipartiteBatch

inductive Mode where
  | train
  | predict
deriving DecidableEq, Repr

structure Config where
  batch : UInt64 := 256
  isTrain : Bool := true
  numNeg : UInt64 := 5
  numNeighbors : List UInt64 := []
  useNeighFeat : Bool := false
  userTag : Tag := 0
  itemTag : Tag := 1
deriving DecidableEq, Repr

/-- An option by name. -/
inductive Setting where
  | batch
  | isTrain
  | numNeg
  | numNeighbors
  | useNeighFeat
  | userTag
  | itemTag
deriving DecidableEq, Repr

namespace Setting

def key : Setting → String
  | batch => "batch"
  | isTrain => "is_train"
  | numNeg => "num_neg"
  | numNeighbors => "num_neighbors"
  | useNeighFeat => "use_neigh_feat"
  | userTag => "user_ns_id"
  | itemTag => "item_ns_id"

/-- All options, in the order in which they are written. -/
def all : List Setting :=
  [batch, isTrain, numNeg, numNeighbors, useNeighFeat, userTag, itemTag]

def ofKey? (key : String) : Option Setting := all.find? fun s => s.key == key

end Setting

namespace Mode

def name : Mode → String
  | train => "Train"
  | predict => "Predict"

end Mode

namespace Config

def mode (c : Config) : Mode := if c.isTrain then .train else .predict

def tags (c : Config) : GroupTags := ⟨c.userTag, c.itemTag⟩

end Config

end BipartiteBatch
