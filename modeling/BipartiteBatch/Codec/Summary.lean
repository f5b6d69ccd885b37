import BipartiteBatch.Codec.Settings
import BipartiteBatch.Scan.Run

/-!
# Summaries in JSON

The summary of a scan is written as a record of the kind of reader, the totals of each input and the
totals of all.
-/

namespace BipartiteBatch.Scan

def ShardSummary.toJson (s : ShardSummary) : Json :=
  .ofMembers [("input", .ofText s.input), ("stats", JsonCodec.toJson s.stats)]

def Summary.toJson (s : Summary) : Json :=
  .ofMembers
    [("reader", .ofText s.reader.name), ("shards", .ofList ShardSummary.toJson s.shards),
      ("total", JsonCodec.toJson s.total)]

def Summary.render (s : Summary) : String := s.toJson.pretty

end BipartiteBatch.Scan
