import ByteStreams.Pipe.Task

/-!
Both ends of a pipe in the hands of one thread.

No other thread can end a wait, so a call that has to wait answers when its time
limit passes, or never.
-/

namespace ByteStreams

structure PipeEnds where
  pipe : Pipe
  sendLimit : Option Span
  receiveLimit : Option Span
deriving DecidableEq, Repr

namespace PipeEnds

open Pipe (Sending Receiving)

def create (capacity : Option Nat) (sendLimit receiveLimit : Option Span) :
    Except Pipe.Fault PipeEnds :=
  (Pipe.create capacity).map fun pipe => ⟨pipe, sendLimit, receiveLimit⟩

/-- Queue data. There is no answer if the call waits for ever. -/
def send (ends : PipeEnds) (data : Bytes) : Option (Except Pipe.Fault Nat × PipeEnds) :=
  let stretch := ends.pipe.sendStretch data 0 ends.sendLimit (Pipe.mayExpire ends.sendLimit)
  match stretch.finish with
  | .answers answer => some (answer, { ends with pipe := stretch.pipe })
  | .waits _ _ => none

def receive (ends : PipeEnds) (wanted : Nat) : Option (Except Pipe.Fault Bytes × PipeEnds) :=
  let stretch := ends.pipe.receiveStretch wanted ends.receiveLimit
    (Pipe.mayExpire ends.receiveLimit)
  match stretch.finish with
  | .answers answer => some (answer, { ends with pipe := stretch.pipe })
  | .waits => none

def close (ends : PipeEnds) : PipeEnds := { ends with pipe := ends.pipe.close }

def runSending {α : Type} : Sending α → PipeEnds → Option (α × PipeEnds)
  | .done result, ends => some (result, ends)
  | .send data next, ends =>
      match ends.send data with
      | some (answer, ends) => runSending (next answer) ends
      | none => none
  | .close next, ends => runSending next ends.close

def runReceiving {α : Type} : Receiving α → PipeEnds → Option (α × PipeEnds)
  | .done result, ends => some (result, ends)
  | .receive wanted next, ends =>
      match ends.receive wanted with
      | some (answer, ends) => runReceiving (next answer) ends
      | none => none
  | .close next, ends => runReceiving next ends.close

def runWriting {α : Type} (program : Channel.Writing α) (ends : PipeEnds) :
    Option (α × PipeEnds) :=
  runSending program.toSending ends

def runReading {α : Type} (program : Channel.Reading α) (ends : PipeEnds) :
    Option (α × PipeEnds) :=
  runReceiving program.toReceiving ends

end PipeEnds

end ByteStreams
