import ByteStreams.EncodedPipe.Failure
import ByteStreams.Pipe.Ends
import ByteStreams.RunLength.Decoder
import ByteStreams.RunLength.Encoder
import ByteStreams.Value.Reader
import ByteStreams.Value.Writer

/-!
Encoded pipes: typed values over run-length code over a pipe.

The layers are stacked by relaying: a program that writes values becomes one that
writes code, and that one a program of sends. Both ends use the same signal and the
same settings, so what is written is read back.
-/

namespace ByteStreams

namespace EncodedPipe

open Channel (Writing Reading)

structure Settings where
  capacity : Option Nat
  sendLimit : Option Span
  receiveLimit : Option Span
  signal : UInt8
  values : Value.Settings
deriving DecidableEq, Repr

def Settings.default : Settings :=
  ⟨some Pipe.defaultCapacity, none, none, RunLength.defaultSignal, .default⟩

/-- The layers above the sending end. -/
structure Writer where
  values : Value.Settings
  encoder : RunLength.Encoder
deriving DecidableEq, Repr

structure Reader where
  values : Value.Settings
  decoder : RunLength.Decoder
deriving DecidableEq, Repr

def create (settings : Settings) : Except Failure (PipeEnds × Writer × Reader) :=
  match PipeEnds.create settings.capacity settings.sendLimit settings.receiveLimit with
  | .error fault => .error (.pipe fault)
  | .ok ends =>
      .ok (ends, ⟨settings.values, .new settings.signal⟩,
        ⟨settings.values, .new settings.signal⟩)

namespace Writer

def relay {α : Type} (writer : Writer) (program : Writing α) : Writing (α × Writer) :=
  (writer.encoder.relay program).map fun (result, encoder) =>
    (result, { writer with encoder := encoder })

/-- Encode what is held back and close the pipe under the writer. -/
def close (writer : Writer) : Writing (Except RunLength.Failure Unit × Writer) :=
  writer.encoder.close.map fun (outcome, encoder) =>
    (outcome, { writer with encoder := encoder })

/-- Encode what is held back and close the pipe. The writer is gone, even if that
fails. -/
def finish (writer : Writer) : Writing (Except Failure Unit) :=
  writer.encoder.finish.bind fun
    | .ok () => .release (.done (.ok ()))
    | .error failure => .done (.error (.runLength failure))

/-- Encode what is held back as far as possible, and close the pipe. -/
def drop (writer : Writer) : Writing Unit := writer.encoder.drop

end Writer

namespace Reader

def relay {α : Type} (reader : Reader) (program : Reading α) : Reading (α × Reader) :=
  (reader.decoder.relay program).map fun (result, decoder) =>
    (result, { reader with decoder := decoder })

end Reader

end EncodedPipe

end ByteStreams
