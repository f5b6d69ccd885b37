import BipartiteBatch.Codec.Node
import BipartiteBatch.Codec.Summary
import BipartiteBatch.Graph.Replay
import BipartiteBatch.Main
import BipartiteBatch.Negative.Replay
import BipartiteBatch.Proofs.FirstSeen
import BipartiteBatch.Proofs.Levels
import BipartiteBatch.Proofs.Rows
import BipartiteBatch.Proofs.Adjacency
import BipartiteBatch.Proofs.FlatIndices
import BipartiteBatch.Proofs.EdgeRows
import BipartiteBatch.Proofs.FeatureRows
import BipartiteBatch.Proofs.Encoders
import BipartiteBatch.Proofs.Slots
import BipartiteBatch.Proofs.Fills
import BipartiteBatch.Proofs.Answers
import BipartiteBatch.Proofs.Training
import BipartiteBatch.Proofs.Alignment
import BipartiteBatch.Proofs.Input
import BipartiteBatch.Proofs.Runs
import BipartiteBatch.Proofs.Completeness
import BipartiteBatch.Proofs.Lines
import BipartiteBatch.Proofs.Calls
import BipartiteBatch.Proofs.Exhaustion
import BipartiteBatch.Proofs.Failures
import BipartiteBatch.Proofs.Statistics
import BipartiteBatch.Proofs.LineBatches
import BipartiteBatch.Proofs.Lookup
import BipartiteBatch.Proofs.SelfNegatives
import BipartiteBatch.Proofs.Advance
import BipartiteBatch.Proofs.Shards
import BipartiteBatch.Proofs.Scans
import BipartiteBatch.Proofs.Totals
import BipartiteBatch.Proofs.Layout
import BipartiteBatch.Proofs.Aborts
import BipartiteBatch.Proofs.Numerals
import BipartiteBatch.Proofs.JsonTexts
import BipartiteBatch.Proofs.JsonRecords
import BipartiteBatch.Proofs.InstanceTexts
import BipartiteBatch.Proofs.Pieces
import BipartiteBatch.Proofs.Choices
import BipartiteBatch.Proofs.Layers
import BipartiteBatch.Proofs.NeighborSamples
import BipartiteBatch.Proofs.Candidates
import BipartiteBatch.Proofs.UniformNegatives
import BipartiteBatch.Proofs.Rounding
import BipartiteBatch.Proofs.Magnitudes
import BipartiteBatch.Proofs.FrequencyNegatives
import BipartiteBatch.Proofs.LoadedBlocks
import BipartiteBatch.Proofs.Reach
import BipartiteBatch.Proofs.EdgeRecords
import BipartiteBatch.Proofs.ConfigForms
import BipartiteBatch.Proofs.SplitRequests
import BipartiteBatch.Proofs.BuiltBlocks
import BipartiteBatch.Proofs.BuiltIndexings
import BipartiteBatch.Proofs.LineNumbers
import BipartiteBatch.Proofs.Occurrences
import BipartiteBatch.Proofs.NodeFields
