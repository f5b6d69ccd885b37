import BipartiteBatch.Error

/-!
# Failures of a scan

A scan fails for a cause and, for most causes, in the context of a file, an option or a batch.

* `Context` : what was being done, `Cause` : what went wrong;
* `ScanError.chain` : the texts of both, and of what is behind the cause;
* `ScanFailure` : what ends a scan.
-/

namespace BipartiteBatch.Scan

open Text

inductive Context where
  | readingConfig (path : String)
  | acceptingConfig (path : String)
  | applyingOption
  | loadingGraph (path : String)
  | openingInput (path : String)
  | fillingBatch (number : Nat) (path : String)
  | creatingDump (path : String)
deriving DecidableEq, Repr

def Context.message : Context → String
  | readingConfig path => s!"Failed to read config file {quoted path}"
  | acceptingConfig path => s!"Invalid config file {quoted path}"
  | applyingOption => "Invalid --config"
  | loadingGraph path => s!"Failed to load graph {quoted path}"
  | openingInput path => s!"Failed to open input {quoted path}"
  | fillingBatch number path => s!"Batch {number} of {quoted path} failed"
  | creatingDump path => s!"Failed to create dump file {quoted path}"

inductive Cause where
  | batch (error : BatchError)
  | file (fault : ReadFault)
deriving DecidableEq, Repr

def Cause.chain : Cause → List String
  | batch error => error.chain
  | file fault => [fault.message]

structure ScanError where
  context : Option Context
  cause : Cause
deriving DecidableEq, Repr

/-- The texts of an error, outermost first. -/
def ScanError.chain (e : ScanError) : List String :=
  e.context.toList.map Context.message ++ e.cause.chain

inductive ScanFailure where
  | error (error : ScanError)
  | abort (abort : Abort)
deriving DecidableEq, Repr

namespace ScanFailure

def inContext (context : Context) (e : BatchError) : ScanFailure := .error ⟨some context, .batch e⟩

def bare (e : BatchError) : ScanFailure := .error ⟨none, .batch e⟩

def ofFile (context : Context) (fault : ReadFault) : ScanFailure :=
  .error ⟨some context, .file fault⟩

def ofFailure (context : Context) : Failure → ScanFailure
  | .error e => inContext context e
  | .abort a => .abort a

end ScanFailure

end BipartiteBatch.Scan
