import BipartiteBatch.Codec.Instance
import BipartiteBatch.Codec.Settings
import BipartiteBatch.Graph.Text
import BipartiteBatch.Input.Rewritten
import BipartiteBatch.Reader.Batch
import BipartiteBatch.Scan.Arguments
import BipartiteBatch.Scan.Failure
import BipartiteBatch.Scan.Files

/-!
# Scans

A scan reads every batch of its inputs and sums up what the readers produced. Each input has a reader of
its own; all readers ask the same graph and the same sampler, one input after the other. The first batch
of the first input can be kept as a file. The first failure ends the scan.

* `Summary` : the result of a scan;
* `Arguments.readerConfig` : the configuration that the arguments describe;
* `run` : the scan.
-/

namespace BipartiteBatch.Scan

structure ShardSummary where
  input : String
  stats : Stats
deriving DecidableEq, Repr

structure Summary where
  reader : ReaderKind
  shards : List ShardSummary
  total : Stats
deriving DecidableEq, Repr

/-- What a scan works on, and the events it has caused. -/
structure State where
  files : Files
  graph : Graph := .empty
  sampler : Sampler := ({} : SamplingSettings).build
  events : List Event := []

abbrev Scanning (α : Type) := ExceptT ScanFailure (StateM State) α

def tell (events : List Event) : Scanning Unit :=
  modify fun s => { s with events := s.events ++ events }

def result {ε α : Type} (failure : ε → ScanFailure) (r : Except ε α) : Scanning α :=
  MonadExcept.ofExcept (r.mapError failure)

def Arguments.baseConfig (args : Arguments) (files : Files) : Except ScanFailure Config :=
  match args.configFile with
  | none => .ok {}
  | some path => do
    let text ← (files.text path).mapError (.ofFile (.readingConfig path))
    (Config.ofJsonText text).mapError (.inContext (.acceptingConfig path))

/-- The configuration that the arguments describe, and the reports of its items: the options given as a
text are applied to the configuration file, and the outcome must pass the check. -/
def Arguments.readerConfig (args : Arguments) (files : Files) :
    Except ScanFailure Config × List Event :=
  match args.baseConfig files with
  | .error e => (.error e, [])
  | .ok base =>
    let applied := base.apply args.config
    let result := do
      applied.result.mapError fun e => .inContext .applyingOption (.config e)
      applied.config.checked.mapError fun e => .bare (.config e)
    (result, applied.events)

def Arguments.samplingSettings (args : Arguments) : SamplingSettings where
  strategy := args.strategy
  temperature := args.temperature
  selfExclusion := if args.allowSelfNegatives then .allow else .excludeQuery
  seed := args.seed

def loadGraph (args : Arguments) : Scanning Unit := do
  let context := Context.loadingGraph args.graph
  let files := (← get).files
  let lines ← result (fun fault => .inContext context (.read fault)) (files.lines args.graph)
  let graph ← result (.inContext context) (Graph.ofLines (!args.directed) lines)
  tell [.graphLoaded args.graph graph.numNodes graph.numEdges]
  modify fun s => { s with graph := graph.withSeed args.seed }

/-- Keep a batch as a file, and give where that stands. -/
def dump (path : String) (inst : Instance) : Scanning Location := do
  let files := (← get).files
  let (files, location) ←
    result (.ofFile (.creatingDump path)) (files.create path (JsonCodec.toJsonLines inst))
  modify fun s => { s with files }
  tell [.batchWritten path]
  return location

def fillBatch (path : String) (number : Nat) (reader : Reader) :
    Scanning (Option (Reader × Instance)) := do
  let s ← get
  let (r, a) := Reader.fill ⟨reader, s.graph, s.sampler, .empty, []⟩
  modify fun s => { s with graph := a.graph, sampler := a.sampler, events := s.events ++ a.events }
  let filled ← result (.ofFailure (.fillingBatch number path)) r
  return if filled then some (a.reader, a.inst) else none

/-- Read all batches of a reader from the one with a number on. There are at most as many batches as
lines, so `lines` bounds those that are left. -/
def readBatches (path : String) (lines number : Nat) (reader : Reader) : Scanning Reader := do
  match ← fillBatch path number reader with
  | none => return reader
  | some (reader, _) =>
    match lines with
    | 0 => return reader
    | lines + 1 => readBatches path lines (number + 1) reader

/-- Keep the first batch of an input. If that writes to the input itself, the reader goes on with what
the file holds now. -/
def keep (out : String) (location : Location) (place : Place) (inst : Instance) (reader : Reader) :
    Scanning Reader := do
  let written ← dump out inst
  match place, (← get).files.place? location with
  | .file old, some (.file new) =>
    return if written = location then { reader with input := reader.input.rewritten old new }
      else reader
  | _, _ => return reader

def readShard (config : Config) (path : String) (dumpPath : Option String) :
    Scanning ShardSummary := do
  let files := (← get).files
  let (location, place) ←
    result (fun fault => .inContext (.openingInput path) (.read fault)) (files.find path)
  tell [.inputOpened path]
  let (reader, events) ← result .bare (Reader.create config {} (.ofLines place.lines))
  tell events
  match ← fillBatch path 0 reader with
  | none => return ⟨path, reader.stats⟩
  | some (reader, inst) =>
    let reader ←
      match dumpPath with
      | none => pure reader
      | some out => keep out location place inst reader
    let reader ← readBatches path (reader.input.rest.getD []).length 1 reader
    return ⟨path, reader.stats⟩

/-- Read inputs one after the other. A batch is kept of the first one only. -/
def readShards (config : Config) : (paths : List String) → (dumpPath : Option String) →
    Scanning (List ShardSummary)
  | [], _ => return []
  | path :: paths, dumpPath => do
    let shard ← readShard config path dumpPath
    let shards ← readShards config paths none
    return shard :: shards

def scan (args : Arguments) : Scanning Summary := do
  let kind ← result .bare (ReaderKind.ofName args.reader)
  let (config, events) := args.readerConfig (← get).files
  tell events
  let config ← result id config
  tell [.scanStarted kind.name args.inputs.length]
  loadGraph args
  modify fun s => { s with sampler := args.samplingSettings.build }
  let shards ← readShards config args.inputs args.dumpFirst
  let total := shards.foldl (fun total shard => total.merge shard.stats) {}
  tell [.scanFinished total.batches total.records total.rows]
  return ⟨kind, shards, total⟩

/-- Run a scan on some files: its result, and the files and events after it. -/
def run (args : Arguments) (files : Files) : Except ScanFailure Summary × State :=
  (scan args).run { files }

end BipartiteBatch.Scan
