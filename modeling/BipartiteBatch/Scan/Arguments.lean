import BipartiteBatch.Negative.Settings
import BipartiteBatch.Number.Float
import BipartiteBatch.Reader.Kind

/-!
# The command line

The one command is `scan`. Its options are long, `--graph g` or `--graph=g`, and some are short too,
`-g g`, `-gg` or `-g=g`. The value of an option that stands in a word of its own is looked at only when
the next option or the end is reached; a word that belongs to no option refuses the command line before
that.

* `Refusal` : why a command line makes no scan;
* `Opt` : the options, `Word` : the forms of a word;
* `Arguments.ofWords` : the arguments of a scan.
-/

namespace BipartiteBatch.Scan

open Number

/-- Why a command line makes no scan: it asks for something else, or has a fault. -/
inductive Refusal where
  | help
  | version
  | noCommand
  | unknownCommand
  | unknownArgument
  | missingArgument
  | repeated
  | needlessValue
  | invalidValue
  | invalidNumber
deriving DecidableEq, Repr

inductive Opt where
  | graph
  | directed
  | input
  | config
  | configFile
  | reader
  | sampler
  | temperature
  | allowSelfNegatives
  | seed
  | workers
  | dumpFirst
  | help
  | version
deriving DecidableEq, Repr

namespace Opt

def longNames : List (String × Opt) :=
  [("graph", graph), ("directed", directed), ("input", input), ("config", config),
    ("config-file", configFile), ("reader", reader), ("sampler", sampler),
    ("temperature", temperature), ("allow-self-negatives", allowSelfNegatives), ("seed", seed),
    ("workers", workers), ("dump-first", dumpFirst), ("help", help), ("version", version)]

def shortNames : List (Char × Opt) :=
  [('g', graph), ('i', input), ('c', config), ('w', workers), ('h', help), ('V', version)]

def isFlag : Opt → Bool
  | directed | allowSelfNegatives | help | version => true
  | _ => false

end Opt

inductive Word where
  | escape
  | long (name : String) (value : Option String)
  | short (chars : List Char)
  | plain (text : String)

def Word.ofLong (cs : List Char) : Word :=
  match cs.span (· ≠ '=') with
  | (name, []) => .long (String.ofList name) none
  | (name, _ :: value) => .long (String.ofList name) (some (String.ofList value))

def Word.ofText (text : String) : Word :=
  match text.toList with
  | ['-', '-'] => .escape
  | '-' :: '-' :: cs => .ofLong cs
  | ['-'] => .plain text
  | '-' :: cs => .short cs
  | _ => .plain text

/-- What the words so far have given. -/
structure Given where
  graph : Option String := none
  directed : Bool := false
  inputs : List String := []
  config : Option String := none
  configFile : Option String := none
  reader : Option String := none
  strategy : Option Strategy := none
  temperature : Option Float32 := none
  allowSelfNegatives : Bool := false
  seed : Option UInt64 := none
  workers : Option UInt64 := none
  dumpFirst : Option String := none

structure Arguments where
  graph : String
  directed : Bool
  inputs : List String
  config : String
  configFile : Option String
  reader : String
  strategy : Strategy
  temperature : Float32
  allowSelfNegatives : Bool
  seed : UInt64
  workers : UInt64
  dumpFirst : Option String

/-! ## Values -/

namespace Value

def path (text : String) : Except Refusal String :=
  if text.isEmpty then .error .invalidValue else .ok text

def strategy (text : String) : Except Refusal Strategy :=
  match Strategy.all.find? fun s => s.name == text with
  | some s => .ok s
  | none => .error .invalidValue

def number {ε α : Type} (read : String → Except ε α) (text : String) : Except Refusal α :=
  (read text).mapError fun _ => .invalidNumber

def once {α : Type} (before : Option α) (read : String → Except Refusal α) :
    Option String → Except Refusal (Option α)
  | none => .error .invalidValue
  | some text => if before.isSome then .error .repeated else (read text).map some

def onceFlag (before : Bool) : Except Refusal Bool :=
  if before then .error .repeated else .ok true

end Value

namespace Given

def add (g : Given) (opt : Opt) (value : Option String) : Except Refusal Given :=
  match opt with
  | .graph => return { g with graph := ← Value.once g.graph Value.path value }
  | .directed => return { g with directed := ← Value.onceFlag g.directed }
  | .input => do
    let path ← Value.once none Value.path value
    return { g with inputs := g.inputs ++ path.toList }
  | .config => return { g with config := ← Value.once g.config .ok value }
  | .configFile => return { g with configFile := ← Value.once g.configFile Value.path value }
  | .reader => return { g with reader := ← Value.once g.reader .ok value }
  | .sampler => return { g with strategy := ← Value.once g.strategy Value.strategy value }
  | .temperature =>
    return { g with temperature := ← Value.once g.temperature (Value.number readFloat32) value }
  | .allowSelfNegatives =>
    return { g with allowSelfNegatives := ← Value.onceFlag g.allowSelfNegatives }
  | .seed => return { g with seed := ← Value.once g.seed (Value.number readUInt64) value }
  | .workers => return { g with workers := ← Value.once g.workers (Value.number readUInt64) value }
  | .dumpFirst => return { g with dumpFirst := ← Value.once g.dumpFirst Value.path value }
  | .help => .error .help
  | .version => .error .version

/-- The arguments, with a graph from the environment if none is given, and defaults. -/
def complete (g : Given) (graphOfEnvironment : Option String) : Except Refusal Arguments := do
  let graph ←
    match g.graph with
    | some path => pure (some path)
    | none => graphOfEnvironment.mapM Value.path
  match graph, g.inputs with
  | some graph, _ :: _ =>
    return {
      graph
      directed := g.directed
      inputs := g.inputs
      config := g.config.getD ""
      configFile := g.configFile
      reader := g.reader.getD ReaderKind.bipartite.name
      strategy := g.strategy.getD .uniform
      temperature := g.temperature.getD 1.0
      allowSelfNegatives := g.allowSelfNegatives
      seed := g.seed.getD 0
      workers := g.workers.getD 1
      dumpFirst := g.dumpFirst }
  | _, _ => throw .missingArgument

end Given

/-! ## Words -/

/-- An option that has not been taken in yet, with its value once that is read. -/
structure Pending where
  opt : Opt
  value : Option String := none

structure Progress where
  given : Given := {}
  pending : Option Pending := none

namespace Progress

def settle (p : Progress) : Except Refusal Given :=
  match p.pending with
  | some ⟨opt, value⟩ => p.given.add opt value
  | none => .ok p.given

/-- Read an option with a value in the same word, or with none. -/
def option (p : Progress) (opt : Opt) (value : Option String) : Except Refusal Progress :=
  match opt.isFlag, value with
  | true, some _ => .error .needlessValue
  | true, none => do return { given := ← (← p.settle).add opt none }
  | false, some _ => do return { given := ← (← p.settle).add opt value }
  | false, none => do return { given := ← p.settle, pending := some ⟨opt, none⟩ }

/-- Read short options. What follows one that takes a value is its value. -/
def shorts (p : Progress) : List Char → Except Refusal Progress
  | [] => .ok p
  | c :: cs =>
    match Opt.shortNames.lookup c with
    | none => .error .unknownArgument
    | some opt =>
      if opt.isFlag then do shorts (← p.option opt none) cs
      else
        match cs with
        | [] => p.option opt none
        | '=' :: cs => p.option opt (some (String.ofList cs))
        | cs => p.option opt (some (String.ofList cs))

/-- Read a word that is no option: the value of the one that waits for it. -/
def plain (p : Progress) (text : String) : Except Refusal Progress :=
  match p.pending with
  | some ⟨opt, none⟩ => .ok { p with pending := some ⟨opt, some text⟩ }
  | _ => .error .unknownArgument

/-- Read words to the end. No word may follow `--`. -/
def words (p : Progress) : List String → Except Refusal Given
  | [] => p.settle
  | text :: rest =>
    match Word.ofText text with
    | .escape => if rest.isEmpty then p.settle else .error .unknownArgument
    | .long name value =>
      match Opt.longNames.lookup name with
      | none => .error .unknownArgument
      | some opt => do words (← p.option opt value) rest
    | .short cs => do words (← p.shorts cs) rest
    | .plain text => do words (← p.plain text) rest

end Progress

/-- The commands by name. -/
def commands : List String := ["scan", "help"]

/-- Why a command line that does not begin with a command makes no scan. -/
def refuse : List String → Refusal
  | [] => .noCommand
  | text :: rest =>
    match Word.ofText text, rest with
    | .escape, [] => .noCommand
    | .escape, next :: _ => if commands.contains next then .unknownArgument else .unknownCommand
    | .long "help" value, _ => if value.isSome then .needlessValue else .help
    | .long "version" value, _ => if value.isSome then .needlessValue else .version
    | .long _ _, _ => .unknownArgument
    | .short ('h' :: _), _ => .help
    | .short ('V' :: _), _ => .version
    | .short _, _ => .unknownArgument
    | .plain _, _ => .unknownCommand

/-- The arguments of the scan that the words of a command line ask for. -/
def Arguments.ofWords (graphOfEnvironment : Option String) : List String → Except Refusal Arguments
  | "scan" :: rest => do (← ({} : Progress).words rest).complete graphOfEnvironment
  | ["help"] => .error .help
  | ["help", command] => .error (if commands.contains command then .help else .unknownCommand)
  | "help" :: _ => .error .unknownCommand
  | words => .error (refuse words)

end BipartiteBatch.Scan
