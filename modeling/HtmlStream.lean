import HtmlStream.Buffer.View
import HtmlStream.Chunk.Random
import HtmlStream.LineDiff
import HtmlStream.Main
import HtmlStream.Snapshot
import HtmlStream.Proofs.Utf8.Lossy
import HtmlStream.Proofs.Decoding
import HtmlStream.Proofs.Machine.Surroundings
import HtmlStream.Proofs.Machine.Progress
import HtmlStream.Proofs.Machine.Runs
import HtmlStream.Proofs.Machine.Emission
import HtmlStream.Proofs.Machine.Halting
import HtmlStream.Proofs.Machine.Nulls
import HtmlStream.Proofs.Delivery
import HtmlStream.Proofs.Surfaces
import HtmlStream.Proofs.Chunking
import HtmlStream.Proofs.Nulls
import HtmlStream.Proofs.Script.Standard
import HtmlStream.Proofs.Script.Scene
import HtmlStream.Proofs.Script.Simulation
import HtmlStream.Proofs.Machine.Pose
import HtmlStream.Proofs.Markup
import HtmlStream.Proofs.Stream
import HtmlStream.Proofs.Reading.Text
import HtmlStream.Proofs.Reading.Tag
import HtmlStream.Proofs.Reading.Comment
import HtmlStream.Proofs.Reading.Doctype
import HtmlStream.Proofs.RoundTrip
import HtmlStream.Proofs.Buffers.Counts
import HtmlStream.Proofs.Clean.Actions
import HtmlStream.Proofs.Machine.Reading
import HtmlStream.Proofs.Clean.Steps
import HtmlStream.Proofs.Clean.Calls
import HtmlStream.Proofs.Guarded.Input
import HtmlStream.Proofs.Guarded.Decoding
import HtmlStream.Proofs.Guarded.Delivery
import HtmlStream.Proofs.Guarded.Steps
import HtmlStream.Proofs.Guarded.Session
import HtmlStream.Proofs.Guarded.Scanning
import HtmlStream.Proofs.Carryover
import HtmlStream.Proofs.Messages
import HtmlStream.Proofs.Counters
import HtmlStream.Proofs.Lifecycle
import HtmlStream.Proofs.Buffers.Retention
import HtmlStream.Proofs.Names
import HtmlStream.Proofs.Checking
import HtmlStream.Proofs.Writing
import HtmlStream.Proofs.UnknownNames
import HtmlStream.Proofs.Machine.Acts
import HtmlStream.Proofs.Machine.Attributes
import HtmlStream.Proofs.Lines.Written
import HtmlStream.Proofs.Lines.Words
import HtmlStream.Proofs.Lines.Json
import HtmlStream.Proofs.Lines.Heard
import HtmlStream.Proofs.Lines.Output
import HtmlStream.Proofs.Lines.Snapshot
import HtmlStream.Proofs.Arguments
import HtmlStream.Proofs.ChunkPlans
import HtmlStream.Proofs.Program
import HtmlStream.Proofs.References.Named
import HtmlStream.Proofs.References.Numeric
import HtmlStream.Proofs.RawText.Conservation
import HtmlStream.Proofs.RawText.EndTag
import HtmlStream.Proofs.Chunks.Partition
import HtmlStream.Proofs.Chunks.Sizes
import HtmlStream.Proofs.Chunks.Randomness
import HtmlStream.Proofs.LineDiffs
import HtmlStream.Proofs.Comments
import HtmlStream.Proofs.Doctypes
import HtmlStream.Proofs.Tags.Attributes
import HtmlStream.Proofs.Machine.Construction
import HtmlStream.Proofs.Machine.Keeping
