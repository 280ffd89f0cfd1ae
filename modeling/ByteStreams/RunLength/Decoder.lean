import ByteStreams.Channel.Reading
import ByteStreams.RunLength.Whole

/-!
The streaming decoder.

The decoder buffers what it pulled from its source and did not decode yet, and owes
the rest of a run that did not fit the caller's buffer. It hands out what it can
without asking the source, and asks the source only when it has nothing to hand out
and no whole frame. What is wrong with the code is reported by a call that hands
out nothing, so no decoded byte is lost.
-/

namespace ByteStreams

namespace RunLength

open Channel (Reading)

def pullLimit : Nat := 8192

structure Decoder where
  signal : UInt8
  /-- Code that was pulled from the source and not decoded yet. -/
  buffered : Bytes
  /-- The value of the run that was decoded last. -/
  value : UInt8
  /-- How many bytes of that run are still to be handed out. -/
  owed : Nat
  /-- How many bytes of code were decoded. -/
  consumed : Nat
deriving DecidableEq, Repr

namespace Decoder

def new (signal : UInt8) : Decoder := ⟨signal, [], 0, 0, 0⟩

/-- Hand out up to `want` bytes without asking the source. The bytes handed out so
far are kept last one first. -/
def drainAfter (decoder : Decoder) (found : Bytes) (want : Nat) : Bytes × Decoder :=
  if want = 0 then
    (found.reverse, decoder)
  else if 0 < decoder.owed then
    let count := min decoder.owed want
    drainAfter { decoder with owed := decoder.owed - count }
      (List.replicate count decoder.value ++ found) (want - count)
  else
    match _whole : Frame.parse decoder.signal decoder.buffered with
    | .frame (.literal byte) size rest =>
        drainAfter { decoder with buffered := rest, consumed := decoder.consumed + size }
          (byte :: found) (want - 1)
    | .frame (.run value count) size rest =>
        drainAfter { decoder with
            buffered := rest
            value := value
            owed := count
            consumed := decoder.consumed + size }
          found want
    | .incomplete | .malformed _ => (found.reverse, decoder)
termination_by decoder.buffered.length + want
decreasing_by
  · omega
  · have shorter := Frame.length_lt_of_parse _whole
    omega
  · have shorter := Frame.length_lt_of_parse _whole
    omega

def drain (decoder : Decoder) (want : Nat) : Except Failure Bytes × Decoder :=
  let (bytes, decoder) := decoder.drainAfter [] want
  (.ok bytes, decoder)

def atEnd (decoder : Decoder) : Except Failure Bytes :=
  if decoder.buffered.isEmpty then
    .ok []
  else
    .error (.fault (.truncated (Frame.missingPart decoder.buffered) decoder.consumed))

/-- Hand out at least one and at most `want` bytes, or none at the end of the
source. -/
def decode (decoder : Decoder) (want : Nat) : Reading (Except Failure Bytes × Decoder) :=
  if want = 0 then
    .done (.ok [], decoder)
  else if 0 < decoder.owed then
    .done (decoder.drain want)
  else
    match _start : Frame.parse decoder.signal decoder.buffered with
    | .frame _ _ _ => .done (decoder.drain want)
    | .malformed fault => .done (.error (.fault fault), decoder)
    | .incomplete =>
        .pull pullLimit fun
          | .error failure => .done (.error (.channel failure), decoder)
          | .ok [] => .done (decoder.atEnd, decoder)
          | .ok (byte :: more) =>
              decode { decoder with buffered := decoder.buffered ++ byte :: more } want
termination_by 5 - decoder.buffered.length
decreasing_by
  have few := Frame.length_lt_of_parse_incomplete _start
  simp only [List.length_append, List.length_cons]
  omega

/-! ## The decoder as a source -/

/-- Run a program against the decoder as its source. Its own calls already try
again after interruptions, so both kinds of calls of the layer above are the
same. -/
def relay {α : Type} : Reading α → Decoder → Reading (α × Decoder)
  | .done result, decoder => .done (result, decoder)
  | .read limit next, decoder | .pull limit next, decoder =>
      (decoder.decode limit).bind fun (outcome, decoder) =>
        relay (next (outcome.mapError Failure.toChannel)) decoder

/-! ## Text -/

def description (decoder : Decoder) : String :=
  s!"RleReader \x7b config: RleConfig \x7b signal: {decoder.signal} \x7d, " ++
    s!"buffered: {decoder.buffered.length}, remaining: {decoder.owed}, " ++
    s!"consumed: {decoder.consumed} \x7d"

end Decoder

end RunLength

end ByteStreams
