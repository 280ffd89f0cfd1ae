import ByteStreams.Channel.Sink
import ByteStreams.Command.Exit
import ByteStreams.Command.Session
import ByteStreams.RunLength.Encoder
import ByteStreams.RunLength.Progress

/-!
The commands that encode and decode.

Both work piece by piece on a source and a sink. What was decoded before a fault in
the code stays in the output.
-/

namespace ByteStreams

namespace Command

open Channel (PathFault Sink Source)
open RunLength (Encoder Decoder Frame)

/-- The most bytes that one step of the codec takes in or hands out: 64 KiB. -/
def pieceSize : Nat := 64 * 1024

/-! ## Steps -/

structure Tally where
  bytesIn : Nat
  bytesOut : Nat
deriving DecidableEq, Repr

/-- Encode what a source gives; `taken` bytes were encoded before. The bytes put out
are those that the sink counts. -/
def encodeFrom (encoder : Encoder) (taken : Nat) (source : Source) (sink : Sink) :
    Except Refusal Tally × Sink :=
  match _call : source.pull pieceSize with
  | (.error failure, _) =>
      (.error (.ofChannel "read failed" failure), (encoder.drop.run sink).2)
  | (.ok [], _) =>
      match encoder.finish.run sink with
      | (.error failure, sink) => (.error (.ofRunLength "encode failed" failure), sink)
      | (.ok (), sink) => (.ok ⟨taken, sink.count⟩, sink)
  | (.ok (byte :: more), rest) =>
      match (encoder.encode (byte :: more)).run sink with
      | ((.error failure, encoder), sink) =>
          (.error (.ofRunLength "encode failed" failure), (encoder.drop.run sink).2)
      | ((.ok (), encoder), sink) => encodeFrom encoder (taken + (more.length + 1)) rest sink
termination_by source.left
decreasing_by
  have counted := source.left_pull pieceSize _call
  simp only [List.length_cons] at counted
  omega

/-- Decode what a source gives; `given` bytes were put out before. The bytes taken
in are those that the decoder consumed. -/
def decodeFrom (decoder : Decoder) (given : Nat) (source : Source) (sink : Sink) :
    Except Refusal Tally × Sink :=
  match _call : (decoder.decode pieceSize).run source with
  | ((.error failure, _), _) =>
      (.error (.ofRunLength "decode failed" failure), sink.flush.2)
  | ((.ok [], decoder), _) =>
      match sink.flush with
      | (.error failure, sink) => (.error (.ofChannel "write failed" failure), sink)
      | (.ok (), sink) => (.ok ⟨decoder.consumed, given⟩, sink)
  | ((.ok (byte :: more), decoder), rest) =>
      match sink.writeAll (byte :: more) with
      | (.error failure, sink) => (.error (.ofChannel "write failed" failure), sink)
      | (.ok (), sink) => decodeFrom decoder (given + (more.length + 1)) rest sink
termination_by (decoder.buffered.length + source.left, decoder.owed)
decreasing_by
  have progress := Decoder.decode_measure _ source pieceSize _call
  simp only [Prod.lex_def]
  omega

def Direction.transcode (direction : Direction) (signal : UInt8) (source : Source)
    (sink : Sink) : Except Refusal Tally × Sink :=
  match direction with
  | .encode => encodeFrom (.new signal) 0 source sink
  | .decode => decodeFrom (.new signal) 0 source sink

/-! ## Delivery

An output holds back what it is given until that would not fit its buffer, or until
the end. So a run whose output cannot be delivered goes on until the buffer is full,
and what it meets before comes first. -/

def bufferSize : Nat := 8192

/-- How many bytes of these sizes an output was given when it first had to deliver any,
if it had to before the end; `held` bytes are held back before them. -/
def firstDelivery? (held : Nat) : (sizes : List Nat) → Option Nat
  | [] => none
  | size :: sizes =>
      if bufferSize < held + size ∨ bufferSize ≤ size then some (held + size)
      else firstDelivery? (held + size) sizes

def firstDeliveryOf? (sink : Sink) : Option Nat :=
  firstDelivery? 0 (sink.journal.reverse.map fun event => event.taken.length)

/-- A full buffer is not overfull, but bytes that alone fill one are not held back. -/
example : firstDelivery? 0 [4096, 4096] = none ∧ firstDelivery? 0 [4096, 4096, 1] = some 8193 ∧
    firstDelivery? 0 [1, 8192] = some 8193 ∧ firstDelivery? 0 [8192] = some 8192 := by
  decide

def Direction.delivering : Direction → String
  | .encode => "encode failed"
  | .decode => "write failed"

def Direction.delivered (direction : Direction) (sink : Sink) (outcome : Except Refusal Tally)
    (answer : Except PathFault Unit) : Except Refusal Tally :=
  match answer with
  | .ok () => outcome
  | .error fault =>
      match outcome, firstDeliveryOf? sink with
      | .error refusal, none => .error refusal
      | _, _ => .error (.ofChannel direction.delivering (.path fault))

/-- How many bytes were given to an output before the run came to its end. -/
def givenBefore (sink : Sink) : Except PathFault Unit → Nat
  | .ok () => sink.count
  | .error _ => (firstDeliveryOf? sink).getD sink.count

/-! ## Log -/

def runEntry (value : UInt8) (count offset : Nat) : LogEntry where
  level := .trace
  message := "decoded run"
  fields := [("value", .number value.toNat), ("count", .number count),
    ("offset", .number offset)]

/-- The entries for the runs that `given` bytes came of, in code that begins at an
offset, after the entries already made (last one first). -/
def runEntriesAfter (signal : UInt8) (found : List LogEntry) (offset given : Nat)
    (code : Bytes) : List LogEntry :=
  if given = 0 then
    found.reverse
  else
    match _whole : Frame.parse signal code with
    | .frame (.literal _) size rest =>
        runEntriesAfter signal found (offset + size) (given - 1) rest
    | .frame (.run value count) size rest =>
        runEntriesAfter signal (runEntry value count offset :: found) (offset + size)
          (given - count) rest
    | .incomplete | .malformed _ => found.reverse
termination_by code.length
decreasing_by all_goals exact Frame.length_lt_of_parse _whole

def Direction.entriesWithin (direction : Direction) (signal : UInt8) (given : Nat)
    (code : Bytes) : List LogEntry :=
  match direction with
  | .encode => []
  | .decode => runEntriesAfter signal [] 0 given code

def Direction.entriesAtEnd (report : CodecReport) : List LogEntry :=
  match report.direction with
  | .encode => [⟨.debug, "encode finished", [("ratio", .decimal report.ratio)]⟩]
  | .decode => []

def CodecReport.entry (report : CodecReport) : LogEntry where
  level := .info
  message := match report.direction with
    | .encode => "encoded"
    | .decode => "decoded"
  fields := [("bytes_in", .number report.bytesIn), ("bytes_out", .number report.bytesOut)]

/-! ## The commands -/

structure CodecOrder where
  direction : Direction
  input : Place
  output : Place
  signal : UInt8
deriving DecidableEq, Repr

namespace CodecOrder

/-- Tell how a codec run came out. The standard output belongs to the data, so a
report goes there only if the data does not. -/
def conclude (order : CodecOrder) (form : ReportForm) (threshold : LogLevel)
    (report : CodecReport) : Session (Except Refusal Unit) :=
  .noteAll threshold (Direction.entriesAtEnd report)
    (match order.output with
    | .standard => .noteAll threshold [report.entry] (.done (.ok ()))
    | .path _ => .print (report.line form) (.done (.ok ())))

/-- Run the codec between its open input and output. Zeros without end are an empty run at
once, or code without end. -/
def transcode (order : CodecOrder) (form : ReportForm) (threshold : LogLevel) :
    Session (Except Refusal Unit) :=
  .clock fun started =>
    .receive order.input fun feed =>
      let source := feed.front
      let (outcome, sink) := order.direction.transcode order.signal source .accepting
      .deliver order.output sink.accepted fun answer =>
        .noteAll threshold
          (order.direction.entriesWithin order.signal (givenBefore sink answer) source.remaining)
          (match order.direction.delivered sink outcome answer with
          | .error refusal => .done (.error refusal)
          | .ok tally =>
              if feed.isEndless then .forever
              else
                .clock fun stopped =>
                  order.conclude form threshold
                    ⟨order.direction, order.signal, tally.bytesIn, tally.bytesOut,
                      Span.milliseconds ⟨stopped.nanoseconds - started.nanoseconds⟩⟩)

def opening (input : Place) (next : Session (Except Refusal Unit)) :
    Session (Except Refusal Unit) :=
  match input with
  | .standard => next
  | .path path =>
      .openInput path fun
        | .error fault => .done (.error (.ofChannel s!"failed opening {path}" (.path fault)))
        | .ok () => next

def creating (output : Place) (next : Session (Except Refusal Unit)) :
    Session (Except Refusal Unit) :=
  match output with
  | .standard => next
  | .path path =>
      .openOutput path fun
        | .error fault => .done (.error (.ofChannel s!"failed creating {path}" (.path fault)))
        | .ok () => next

/-- Carry out a codec command. The input is opened before the output is made, so an
input that cannot be opened leaves no output behind. -/
def carryOut (order : CodecOrder) (form : ReportForm) (threshold : LogLevel) :
    Session (Except Refusal Unit) :=
  opening order.input (creating order.output (order.transcode form threshold))

end CodecOrder

end Command

end ByteStreams
