import BipartiteBatch.Codec.Summary

/-!
# The program

Reads the files that the command line names, scans them, prints the events and the summary, and writes
the first batch if it is to be kept. All that is decided is decided by `Scan.run`.
-/

namespace BipartiteBatch.Scan

def usage : String :=
  "usage: scan --graph FILE --input FILE [--input FILE] [--config OPTIONS] [--config-file FILE]\n"
    ++ "  [--reader KIND] [--sampler uniform|frequency] [--temperature T] [--seed N] [--workers N]\n"
    ++ "  [--directed] [--allow-self-negatives] [--dump-first FILE]"

def Refusal.message : Refusal → String
  | help => usage
  | version => "bipartite-batch 0.1.0"
  | noCommand => usage
  | unknownCommand => "unknown command"
  | unknownArgument => "unexpected argument"
  | missingArgument => "a graph and an input are required"
  | repeated => "an argument is given more than once"
  | needlessValue => "a flag takes no value"
  | invalidValue => "a value is missing or not admitted"
  | invalidNumber => "a value is no number in range"

/-- The command line asks for a text and not for a scan. -/
def Refusal.isAnswer : Refusal → Bool
  | help | version => true
  | _ => false

def Arguments.paths (args : Arguments) : List String :=
  args.configFile.toList ++ args.graph :: args.inputs ++ args.dumpFirst.toList

def directoryOf (path : String) : String :=
  String.ofList (path.toList.reverse.dropWhile (· ≠ '/')).reverse

def stands (path : String) : IO Bool := do
  match ← (IO.FS.realPath path).toBaseIO with
  | .ok _ => return true
  | .error _ => return false

/-- What stands under the paths, and the directories that they name something in. -/
def readFiles (paths : List String) : IO Files := do
  let mut files : Files := {}
  for path in paths do
    match ← (IO.FS.readBinFile path).toBaseIO with
    | .ok bytes => files := files.putAt path bytes
    | .error _ =>
      if ← stands path then files := files.putDirectory path
      else if ← stands (directoryOf path) then files := files.putDirectory (directoryOf path)
  return files

/-- Write the batch that is to be kept, if there was one. -/
def writeDump (args : Arguments) (state : State) : IO Unit := do
  match args.dumpFirst with
  | none => pure ()
  | some path =>
    match state.files.text path with
    | .ok text => if state.events.contains (.batchWritten path) then IO.FS.writeFile path text
    | .error _ => pure ()

def report (args : Arguments) : IO UInt32 := do
  let (result, state) := run args (← readFiles args.paths)
  for event in state.events do
    IO.eprintln s!"{event.level.name} {event.message}"
  writeDump args state
  match result with
  | .ok summary =>
    IO.println summary.render
    return 0
  | .error (.error e) =>
    IO.eprintln (String.intercalate ": " e.chain)
    return 1
  | .error (.abort _) =>
    IO.eprintln "the scan cannot go on"
    return 101

end BipartiteBatch.Scan

open BipartiteBatch.Scan in
def main (words : List String) : IO UInt32 := do
  match Arguments.ofWords (← IO.getEnv "BIPARTITE_BATCH_GRAPH") words with
  | .ok args => report args
  | .error refusal =>
    if refusal.isAnswer then
      IO.println refusal.message
      return 0
    else
      IO.eprintln refusal.message
      return 2
