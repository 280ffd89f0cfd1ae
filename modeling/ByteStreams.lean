import ByteStreams.EncodedPipe.Basic
import ByteStreams.Main
import ByteStreams.Pipe.Ends
import ByteStreams.Pipe.Pattern
import ByteStreams.Pipe.Transfer
import ByteStreams.RunLength.Buffer
import ByteStreams.Proofs.Channel.Faultless
import ByteStreams.Proofs.RunLength.Optimality
import ByteStreams.Proofs.RunLength.StreamEncoding
import ByteStreams.Proofs.RunLength.StreamDecoding
import ByteStreams.Proofs.Channel.Loops
import ByteStreams.Proofs.Number.TwosComplement
import ByteStreams.Proofs.Text.Utf8
import ByteStreams.Proofs.Value.RoundTrip
import ByteStreams.Proofs.RunLength.Relaying
import ByteStreams.Proofs.Pipe.Steps
import ByteStreams.Proofs.Pipe.Passage
import ByteStreams.Proofs.Pipe.Programs
import ByteStreams.Proofs.EncodedPipe.RoundTrip
import ByteStreams.Proofs.RunLength.Grammar
import ByteStreams.Proofs.Pipe.Schedules
import ByteStreams.Proofs.Pipe.Closing
import ByteStreams.Proofs.Pipe.Transfer
import ByteStreams.Proofs.Value.Streams
import ByteStreams.Proofs.RunLength.CutWrites
import ByteStreams.Proofs.Channel.Yielding
import ByteStreams.Proofs.RunLength.FailingSinks
import ByteStreams.Proofs.Channel.Pulls
import ByteStreams.Proofs.RunLength.FailingSources
import ByteStreams.Proofs.Pipe.Traces
import ByteStreams.Proofs.RunLength.FailingRelays
import ByteStreams.Proofs.Value.Failures
import ByteStreams.Proofs.Pipe.Ends
import ByteStreams.Proofs.EncodedPipe.Visibility
import ByteStreams.Proofs.Command.Transcoding
import ByteStreams.Proofs.Command.Files
import ByteStreams.Proofs.Command.EndToEnd
import ByteStreams.Proofs.RunLength.Feeding
import ByteStreams.Proofs.RunLength.RunLayout
import ByteStreams.Proofs.RunLength.EncoderInvariant
import ByteStreams.Proofs.Pipe.PatternTransfer
import ByteStreams.Proofs.Command.BenchThreads
import ByteStreams.Proofs.Command.BenchVerdict
import ByteStreams.Proofs.RunLength.Teardown
import ByteStreams.Proofs.RunLength.LookAhead
import ByteStreams.Proofs.Pipe.SendAnswers
import ByteStreams.Proofs.Value.Accounting
import ByteStreams.Proofs.Channel.Fetching
import ByteStreams.Proofs.Value.Skipping
import ByteStreams.Proofs.Number.SignExtension
import ByteStreams.Proofs.Value.NarrowIntegers
import ByteStreams.Proofs.Value.Staging
import ByteStreams.Proofs.Value.Content
import ByteStreams.Proofs.Text.Numerals
import ByteStreams.Proofs.Command.Operands
import ByteStreams.Proofs.Pipe.Emissions
import ByteStreams.Proofs.Pipe.OrderCheck
import ByteStreams.Proofs.Channel.Reporting
import ByteStreams.Proofs.Pipe.Hearing
import ByteStreams.Proofs.RunLength.Reporting
import ByteStreams.Proofs.EncodedPipe.Reporting
