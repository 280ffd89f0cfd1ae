import ByteStreams.Channel.Writing
import ByteStreams.RunLength.Whole

/-!
The streaming encoder.

The encoder holds back the run at the end of what it was given, because later bytes
may lengthen it. Frames of runs that are over are staged, and staged frames go to
the sink when a stage is full and at the end of every operation. Every operation is
a program that writes to the sink below, so the encoder works on any sink.
-/

namespace ByteStreams

namespace RunLength

open Channel (Writing)

/-- A stage that holds this many bytes goes to the sink. -/
def stageLimit : Nat := 8192

inductive Pending
  | idle
  /-- `count` copies of `value` were given and are not encoded yet. -/
  | holding (value : UInt8) (count : Nat)
deriving DecidableEq, Repr

structure Encoder where
  signal : UInt8
  pending : Pending
  /-- Frames that are due at the sink. -/
  staged : Array UInt8
  /-- Whether the encoder still has its sink. -/
  isOpen : Bool
deriving DecidableEq, Repr

namespace Encoder

def new (signal : UInt8) : Encoder := ⟨signal, .idle, #[], true⟩

/-- Add the code of a run that one frame can describe to the stage. -/
def stageRun (encoder : Encoder) (value : UInt8) (count : Nat) :
    Except Fault Unit × Encoder :=
  match encodeRun encoder.signal value count with
  | .error fault => (.error fault, encoder)
  | .ok code => (.ok (), { encoder with staged := encoder.staged ++ code })

/-- Stage the run that is held back. It is given up even if it cannot be staged. -/
def stagePending (encoder : Encoder) : Except Fault Unit × Encoder :=
  match encoder.pending with
  | .idle => (.ok (), encoder)
  | .holding value count => stageRun { encoder with pending := .idle } value count

/-- Stage the longest runs of a value until no more than one frame's worth is left,
which is held back: `held` copies were held before, and `more` come. -/
def stageLongest (encoder : Encoder) (value : UInt8) (held more : Nat) :
    Except Fault Unit × Encoder :=
  if longestRun < held + more then
    match encoder.stageRun value longestRun with
    | (.error fault, encoder) => (.error fault, encoder)
    | (.ok (), encoder) => encoder.stageLongest value 0 (more - (longestRun - held))
  else
    (.ok (), { encoder with pending := .holding value (held + more) })
termination_by held + more
decreasing_by
  unfold longestRun at *
  omega

/-- Lengthen the run that is held back, or begin another one after it. -/
def extend (encoder : Encoder) (run : Run) : Except Fault Unit × Encoder :=
  match encoder.pending with
  | .idle => encoder.stageLongest run.value 0 run.count
  | .holding value count =>
      if value = run.value then
        encoder.stageLongest run.value count run.count
      else
        match encoder.stagePending with
        | (.error fault, encoder) => (.error fault, encoder)
        | (.ok (), encoder) =>
            encoder.stageLongest run.value 0 run.count

/-- Pass the staged frames to the sink. They leave the stage even if the sink does
not take them. -/
def passStaged (encoder : Encoder) : Writing (Except Failure Unit × Encoder) :=
  if encoder.staged.isEmpty then
    .done (.ok (), encoder)
  else if encoder.isOpen then
    .writeAll encoder.staged.toList fun answer =>
      .done (answer.mapError Failure.channel, { encoder with staged := #[] })
  else
    .done (.error (.fault .closed), encoder)

def absorb (encoder : Encoder) : List Run → Writing (Except Failure Unit × Encoder)
  | [] => encoder.passStaged
  | run :: rest =>
      match encoder.extend run with
      | (.error fault, encoder) => .done (.error (.fault fault), encoder)
      | (.ok (), encoder) =>
          if stageLimit ≤ encoder.staged.size then
            encoder.passStaged.bind fun
              | (.error failure, encoder) => .done (.error failure, encoder)
              | (.ok (), encoder) => encoder.absorb rest
          else
            encoder.absorb rest

def encode (encoder : Encoder) (data : Bytes) : Writing (Except Failure Unit × Encoder) :=
  if encoder.isOpen then encoder.absorb (runs data)
  else .done (.error (.fault .closed), encoder)

/-- Encode the run that is held back and pass all frames to the sink. -/
def flushRun (encoder : Encoder) : Writing (Except Failure Unit × Encoder) :=
  match encoder.stagePending with
  | (.error fault, encoder) => .done (.error (.fault fault), encoder)
  | (.ok (), encoder) => encoder.passStaged

/-- Encode the run that is held back, and ask the sink to pass everything on. -/
def flush (encoder : Encoder) : Writing (Except Failure Unit × Encoder) :=
  encoder.flushRun.bind fun
    | (.error failure, encoder) => .done (.error failure, encoder)
    | (.ok (), encoder) =>
        if encoder.isOpen then
          .settle fun answer => .done (answer.mapError Failure.channel, encoder)
        else
          .done (.error (.fault .closed), encoder)

/-- Encode the run that is held back and give the sink up, flushed. An encoder
without a sink stays as it is. The sink is given up even if it cannot be flushed,
but not if it does not take the run. -/
def close (encoder : Encoder) : Writing (Except Failure Unit × Encoder) :=
  if encoder.isOpen then
    encoder.flushRun.bind fun
      | (.error failure, encoder) => .done (.error failure, encoder)
      | (.ok (), encoder) =>
          .settle fun answer =>
            .release (.done (answer.mapError Failure.channel, { encoder with isOpen := false }))
  else
    .done (.ok (), encoder)

/-- Encode the run that is held back as far as the sink allows, and give the sink
up without flushing it. -/
def drop (encoder : Encoder) : Writing Unit :=
  if encoder.isOpen then
    encoder.flushRun.bind fun _ => .release (.done ())
  else
    .done ()

/-- Encode the run that is held back and hand the sink back, flushed. If that
fails the encoder is dropped, and the sink with it. -/
def finish (encoder : Encoder) : Writing (Except Failure Unit) :=
  encoder.flushRun.bind fun
    | (.error failure, encoder) => encoder.drop.map fun _ => .error failure
    | (.ok (), encoder) =>
        if encoder.isOpen then
          .settle fun
            | .ok () => .done (.ok ())
            | .error failure => .release (.done (.error (.channel failure)))
        else
          .done (.error (.fault .closed))

/-! ## The encoder as a sink -/

/-- The answer that the layer above gets. -/
def answer (outcome : Except Failure Unit) : Except Channel.Failure Unit :=
  outcome.mapError Failure.toChannel

/-- Run a program against the encoder as its sink. The encoder takes all it is
offered. Its own calls already try again after interruptions, so single and
repeated calls of the layer above are the same. -/
def relay {α : Type} : Writing α → Encoder → Writing (α × Encoder)
  | .done result, encoder => .done (result, encoder)
  | .write data next, encoder =>
      (encoder.encode data).bind fun (outcome, encoder) =>
        relay (next ((answer outcome).map fun _ => data.length)) encoder
  | .writeAll data next, encoder =>
      if data.isEmpty then
        relay (next (.ok ())) encoder
      else
        (encoder.encode data).bind fun (outcome, encoder) =>
          relay (next (answer outcome)) encoder
  | .flush next, encoder =>
      encoder.flush.bind fun (outcome, encoder) => relay (next (answer outcome)) encoder
  | .settle next, encoder =>
      encoder.flush.bind fun (outcome, encoder) => relay (next (answer outcome)) encoder
  | .release next, encoder =>
      encoder.drop.bind fun _ => relay next { encoder with pending := .idle, isOpen := false }

/-! ## Text -/

def description (encoder : Encoder) : String :=
  let state := match encoder.pending with
    | .idle => "Idle"
    | .holding value count => s!"Buffering \x7b last: {value}, count: {count} \x7d"
  s!"RleWriter \x7b config: RleConfig \x7b signal: {encoder.signal} \x7d, " ++
    s!"state: {state}, staged: {encoder.staged.size}, closed: {!encoder.isOpen} \x7d"

end Encoder

end RunLength

end ByteStreams
