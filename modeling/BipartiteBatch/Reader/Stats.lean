/-!
# Reader totals

What a reader has produced so far, in 64-bit counters: batches, the records in them, their training or
prediction rows, nodes of no group among their records, and negatives equal to their destination.
-/

namespace BipartiteBatch

structure Stats where
  batches : UInt64 := 0
  records : UInt64 := 0
  rows : UInt64 := 0
  invalidNodes : UInt64 := 0
  selfNegatives : UInt64 := 0
deriving DecidableEq, Repr

namespace Stats

def merge (a b : Stats) : Stats where
  batches := a.batches + b.batches
  records := a.records + b.records
  rows := a.rows + b.rows
  invalidNodes := a.invalidNodes + b.invalidNodes
  selfNegatives := a.selfNegatives + b.selfNegatives

def addBatch (s : Stats) (records rows invalid : Nat) : Stats :=
  { s with
    batches := s.batches + 1
    records := s.records + UInt64.ofNat records
    rows := s.rows + UInt64.ofNat rows
    invalidNodes := s.invalidNodes + UInt64.ofNat invalid }

def addSelfNegatives (s : Stats) (count : Nat) : Stats :=
  { s with selfNegatives := s.selfNegatives + UInt64.ofNat count }

end Stats

end BipartiteBatch
