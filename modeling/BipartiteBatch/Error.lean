import BipartiteBatch.Config.Basic
import BipartiteBatch.Csr
import BipartiteBatch.Number.Float
import BipartiteBatch.Text.Quoted

/-!
# Errors and aborts

An error is an answer: the caller can go on. An abort ends everything: a buffer cannot be laid out in
the address space, a weight total is not finite, or a row has impossible bounds. A failure is either.

* `LineFault`, `ReadFault`, `ConfigError`, `GraphError`, `SamplingError` : causes by subject;
* `BatchError` : any of them, with its text `message` and, outermost first, its `chain`;
* `Abort`, `Failure` : what ends everything, and what ends a call;
* `fits` : a buffer has room in the address space.
-/

namespace BipartiteBatch

open Text

inductive LineFault where
  | edgeFields (count : Nat)
  | weightedFields (count : Nat)
  | noNode
  | nodeId (field : String) (fault : WordFault)
  | weight (field : String) (fault : FloatFault)
deriving DecidableEq, Repr

/-- Why a file or a stream could not be read or written. -/
inductive ReadFault where
  | notText
  | notFound
  | isDirectory
  | notDirectory
  | nameTooLong
  | nulCharacter
deriving DecidableEq, Repr

inductive ConfigError where
  | notPositive (setting : Setting)
  | notFlag (setting : Setting) (given : String)
  | notNumber (setting : Setting) (given : String) (fault : WordFault)
  | unknownKey (key value : String)
  | noEquals (item : String)
  | sameTags (tag : Tag)
  | unknownReader (name : String)
deriving DecidableEq, Repr

inductive GraphError where
  | refused (message : String)
  | listCount (lists nodes : Nat)
  | featureRows (slot : String) (rows nodes : Nat)
  | depth (levels maps indexings : Nat)
  | notIndexed (node : NodeId) (level : Nat)
  | edgeLengths (src dst negatives : Nat)
deriving DecidableEq, Repr

inductive SamplingError where
  | refused (message : String)
  | emptyPopulation (count queries : Nat)
  | listCount (lists destinations : Nat)
  | listLength (length count : Nat) (node : NodeId)
deriving DecidableEq, Repr

/-- Why a batch, a graph or a configuration could not be had. -/
inductive BatchError where
  | read (fault : ReadFault)
  | json
  | line (number : Nat) (fault : LineFault)
  | config (error : ConfigError)
  | graph (error : GraphError)
  | sampling (error : SamplingError)
  | node (error : NodeError)
deriving DecidableEq, Repr

/-- What ends everything. -/
inductive Abort where
  | capacity (count : Nat)
  | weightTotal
  | rowBounds (bounds : RowBounds)
deriving DecidableEq, Repr

/-- A buffer for `count` items of `width` bytes can be laid out in the address space. -/
def fits (count width : Nat) : Bool := count * width < 0x8000000000000000

/-- What ends a call. -/
inductive Failure where
  | error (error : BatchError)
  | abort (abort : Abort)
deriving DecidableEq, Repr

/-! ## Texts -/

def LineFault.message : LineFault → String
  | edgeFields count => s!"expected `src dst`, got {count} field(s)"
  | weightedFields count => s!"expected `src dst [weight]`, got {count} field(s)"
  | noNode => "expected `node`"
  | nodeId field fault => s!"invalid node id {quoted field}: {fault.message}"
  | weight field fault => s!"invalid weight {quoted field}: {fault.message}"

/-- The text of a read fault. -/
def ReadFault.message : ReadFault → String
  | notText => "stream did not contain valid UTF-8"
  | notFound => "No such file or directory (os error 2)"
  | isDirectory => "Is a directory (os error 21)"
  | notDirectory => "Not a directory (os error 20)"
  | nameTooLong => "File name too long (os error 36)"
  | nulCharacter => "file name contained an unexpected NUL byte"

def ConfigError.message : ConfigError → String
  | notPositive .numNeighbors => "num_neighbors entries must be positive"
  | notPositive setting => s!"{setting.key} must be positive"
  | notFlag setting given => s!"{setting.key} must be 0 or 1, got {quoted given}"
  | notNumber setting given fault =>
    s!"invalid {setting.key} {quoted given}: {fault.message}"
  | unknownKey key value => s!"Unexpected config: {key} = {value}."
  | noEquals item => s!"expected key=value, got {quoted item}"
  | sameTags tag => s!"user_ns_id and item_ns_id must differ, both are {tag}"
  | unknownReader name => s!"unknown reader kind: {name}"

def GraphError.message : GraphError → String
  | refused message => message
  | listCount lists nodes => s!"sampled {lists} neighbor list(s) for {nodes} node(s)"
  | featureRows slot rows nodes =>
    s!"slot {slot}: graph returned {rows} feature row(s) for {nodes} node(s)"
  | depth levels maps indexings =>
    s!"inconsistent subgraph: {levels} level(s), {maps} neighbor map(s), {indexings} indexing(s)"
  | notIndexed node level => s!"node {node} is missing from the level {level} indexing"
  | edgeLengths src dst negatives =>
    s!"edge arrays differ in length: {src} src, {dst} dst, {negatives} negative list(s)"

def SamplingError.message : SamplingError → String
  | refused message => message
  | emptyPopulation count queries =>
    s!"cannot draw {count} negative(s) for {queries} queries from an empty population"
  | listCount lists destinations =>
    s!"sampler returned {lists} negative list(s) for {destinations} destination(s)"
  | listLength length count node =>
    s!"sampler returned {length} of {count} negative(s) for node {node}"

def BatchError.message : BatchError → String
  | read fault => s!"I/O error: {fault.message}"
  | json => "JSON parse error"
  | line number fault => s!"parse error at line {number}: {fault.message}"
  | config error => s!"configuration error: {error.message}"
  | graph error => s!"graph error: {error.message}"
  | sampling error => s!"negative sampling error: {error.message}"
  | node error => error.message

/-- The texts of an error and of what caused it, outermost first. -/
def BatchError.chain : BatchError → List String
  | read fault => [(read fault).message, fault.message]
  | e => [e.message]

end BipartiteBatch
