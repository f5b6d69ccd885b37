import BipartiteBatch.Config.Text
import BipartiteBatch.Input.Reader
import BipartiteBatch.Reader.Stats
import BipartiteBatch.SlotNames

/-!
# Readers

A reader makes the records of an input into batches. Between two batches it consists of its
configuration, the names of the slots it writes, the rest of the input and its totals. A reader can only
be created with a configuration that passes the check.
-/

namespace BipartiteBatch

structure Reader where
  config : Config
  slots : SlotNames
  input : LineReader
  stats : Stats := {}

namespace Reader

/-- A reader of an input, and the report of its creation. -/
def create (config : Config) (slots : SlotNames) (input : LineReader) :
    Except BatchError (Reader × List Event) :=
  match config.check with
  | .ok () => .ok ({ config, slots, input }, [.readerCreated config])
  | .error e => .error (.config e)

end Reader

end BipartiteBatch
