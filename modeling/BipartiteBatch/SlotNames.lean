import BipartiteBatch.Node

/-!
# Slot names

Each of the two encoders has four slots, named by what they hold and by the encoder; four more slots
belong to the batch as a whole.

* `EncoderSlots.ofEncoder` : the slots of an encoder;
* `SlotNames` : all slots of a reader, with their default names;
* `SlotNames.encoder` : the slots of the encoder of a group.
-/

namespace BipartiteBatch

structure EncoderSlots where
  nodeFeature : String
  neighborFeature : String
  selfBlock : String
  neighborBlock : String
deriving DecidableEq, Repr

def EncoderSlots.ofEncoder (name : String) : EncoderSlots where
  nodeFeature := "node_feature" ++ name
  neighborFeature := "neigh_feature" ++ name
  selfBlock := "self_block" ++ name
  neighborBlock := "neigh_block" ++ name

structure SlotNames where
  user : EncoderSlots := .ofEncoder "USER_ENCODER_NAME"
  item : EncoderSlots := .ofEncoder "ITEM_ENCODER_NAME"
  srcId : String := "src_id"
  dstId : String := "dst_id"
  label : String := "Y"
  predictNode : String := "predict_node"
deriving DecidableEq, Repr

namespace SlotNames

/-- The slots for two encoders, those of the batch having their default names. -/
def ofEncoders (user item : String) : SlotNames :=
  { user := .ofEncoder user, item := .ofEncoder item }

def encoder (slots : SlotNames) : Group → EncoderSlots
  | .user => slots.user
  | .item => slots.item

end SlotNames

end BipartiteBatch
