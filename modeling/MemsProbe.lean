import MemsProbe.Actuation
import MemsProbe.Actuator
import MemsProbe.Arguments
import MemsProbe.Binary32
import MemsProbe.Binary32.Text
import MemsProbe.Client
import MemsProbe.Command
import MemsProbe.Console
import MemsProbe.Console.CommandByte
import MemsProbe.Console.ResponseBuffer
import MemsProbe.Diagnostics
import MemsProbe.Failure
import MemsProbe.Frame
import MemsProbe.Journal
import MemsProbe.Link
import MemsProbe.Link.Scripted
import MemsProbe.Main
import MemsProbe.Outcome
import MemsProbe.Program
import MemsProbe.ReadCount
import MemsProbe.Reading
import MemsProbe.Reading.Report
import MemsProbe.Settings
import MemsProbe.Settings.Bounds
import MemsProbe.Settings.File
import MemsProbe.Sink
import MemsProbe.Text.Blank
import MemsProbe.Text.Glyph
import MemsProbe.Text.Hex
import MemsProbe.Text.Lines
import MemsProbe.Text.Numeral
import MemsProbe.Text.Path
import MemsProbe.Text.Placeholder
import MemsProbe.Text.Quoted
import MemsProbe.Toml.Blank
import MemsProbe.Toml.Document
import MemsProbe.Toml.Scalar
import MemsProbe.Toml.Text
import MemsProbe.Toml.Value
import MemsProbe.Usage
import MemsProbe.Proofs.Exchange
import MemsProbe.Proofs.Listening
import MemsProbe.Proofs.Script
import MemsProbe.Proofs.WireLanguage
import MemsProbe.Proofs.Replies
import MemsProbe.Proofs.Operations
import MemsProbe.Proofs.Answering
import MemsProbe.Proofs.Sessions
import MemsProbe.Proofs.Chunking
import MemsProbe.Proofs.Disconnected
import MemsProbe.Proofs.Watched
import MemsProbe.Proofs.Mirrors
import MemsProbe.Proofs.Onlooker
import MemsProbe.Proofs.Sinks
import MemsProbe.Proofs.Stopping
import MemsProbe.Proofs.StoppedRuns
import MemsProbe.Proofs.Truncation
import MemsProbe.Proofs.TruncatedRuns
import MemsProbe.Proofs.Delivery
import MemsProbe.Proofs.Showing
import MemsProbe.Proofs.Handling
import MemsProbe.Proofs.Layers
import MemsProbe.Proofs.Allowance
import MemsProbe.Proofs.Settling
import MemsProbe.Proofs.BoundedRuns
import MemsProbe.Proofs.Driving
import MemsProbe.Proofs.RepeatedReads
import MemsProbe.Proofs.Meaning
import MemsProbe.Proofs.Steps
import MemsProbe.Proofs.Switching
import MemsProbe.Proofs.Numerals
import MemsProbe.Proofs.Trimming
import MemsProbe.Proofs.TypedBytes
import MemsProbe.Proofs.HexPolicies
import MemsProbe.Proofs.Counting
import MemsProbe.Proofs.Placeholders
import MemsProbe.Proofs.ReplyText
import MemsProbe.Proofs.Pieces
import MemsProbe.Proofs.Dumps
import MemsProbe.Proofs.Decimals
import MemsProbe.Proofs.Readings
import MemsProbe.Proofs.RawFrames
import MemsProbe.Proofs.Asides
import MemsProbe.Proofs.Buffering
import MemsProbe.Proofs.Paths
import MemsProbe.Proofs.Starting
