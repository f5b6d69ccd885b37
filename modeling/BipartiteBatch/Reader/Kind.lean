import BipartiteBatch.Error

/-!
# Kinds of readers

A reader is asked for by the name of its kind. There is one kind, with a name of its own and an older
one.
-/

namespace BipartiteBatch

inductive ReaderKind where
  | bipartite
deriving DecidableEq, Repr

namespace ReaderKind

def name : ReaderKind → String
  | bipartite => "unsup_bipartite_graphsage"

def names : List (String × ReaderKind) :=
  [("unsup_bipartite_graphsage", bipartite), ("UnsupBipartiteInstReader", bipartite)]

def ofName (name : String) : Except BatchError ReaderKind :=
  match names.lookup name with
  | some kind => .ok kind
  | none => .error (.config (.unknownReader name))

end ReaderKind

end BipartiteBatch
