import BipartiteBatch.Error

/-!
# Events

What is worth telling an operator while batches are read, each with its level and its text. Functions
give the events they cause as a list, in order.
-/

namespace BipartiteBatch

inductive Level where
  | info
  | warn
  | error
deriving DecidableEq, Repr

inductive Event where
  | inputOpened (path : String)
  | inputClosed (lines skipped : Nat)
  | lineSkipped (line : Nat) (fault : LineFault)
  | settingAccepted (key value : String)
  | readerCreated (config : Config)
  | unknownNode (node : NodeId) (tags : GroupTags)
  | selfNegatives (count edges : Nat)
  | inputExhausted (batches records : UInt64)
  | graphLoaded (path : String) (nodes edges : Nat)
  | scanStarted (reader : String) (inputs : Nat)
  | batchWritten (path : String)
  | scanFinished (batches records rows : UInt64)
deriving DecidableEq, Repr

namespace Level

def name : Level → String
  | info => "INFO"
  | warn => "WARN"
  | error => "ERROR"

end Level

namespace Event

def level : Event → Level
  | lineSkipped _ _ => .warn
  | selfNegatives _ _ => .warn
  | unknownNode _ _ => .error
  | _ => .info

def bracketed (ns : List UInt64) : String :=
  "[" ++ String.intercalate ", " (ns.map toString) ++ "]"

def message : Event → String
  | inputOpened path => s!"Open input file: {path}"
  | inputClosed lines skipped => s!"Close input after {lines} line(s), {skipped} skipped"
  | lineSkipped line fault => s!"Skip line {line}: {fault.message}"
  | settingAccepted key value => s!"Instance reader argument: {key} = {value}."
  | readerCreated c =>
    s!"Create bipartite reader: mode {c.mode.name}, batch {c.batch}, num_neg {c.numNeg}, "
      ++ s!"num_neighbors {bracketed c.numNeighbors}, "
      ++ s!"user_ns_id {c.userTag}, item_ns_id {c.itemTag}"
  | unknownNode node tags => (NodeError.unknownGroup node tags).message ++ "."
  | selfNegatives count edges =>
    s!"{count} negative(s) equal their positive destination in a batch of {edges} edge(s)"
  | inputExhausted batches records =>
    s!"Input exhausted after {batches} batch(es), {records} record(s)"
  | graphLoaded path nodes edges => s!"Load graph {path}: {nodes} node(s), {edges} edge(s)"
  | scanStarted reader inputs => s!"Reader: {reader}, inputs: {inputs}"
  | batchWritten path => s!"Wrote first batch to {Text.quoted path}"
  | scanFinished batches records rows =>
    s!"Scan finished: {batches} batch(es), {records} record(s), {rows} row(s)"

end Event

end BipartiteBatch
