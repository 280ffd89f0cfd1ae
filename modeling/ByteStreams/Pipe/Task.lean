import ByteStreams.Channel.Reading
import ByteStreams.Channel.Writing
import ByteStreams.Pipe.Basic

/-!
Tasks, what a thread does with its end of a pipe.

A task shows its next call and how it goes on after each answer. Programs are tasks
that end; other tasks may go on for ever. A writing program becomes a program of
sends, a reading program one of receives.
-/

namespace ByteStreams

namespace Pipe

open Channel (Writing Reading)

/-! ## Tasks -/

inductive SendCall (σ : Type)
  /-- The task is over. -/
  | done
  | send (data : Bytes) (next : Except Fault Nat → σ)
  | close (next : σ)

inductive ReceiveCall (ρ : Type)
  /-- The task is over. -/
  | done
  | receive (wanted : Nat) (next : Except Fault Bytes → ρ)
  | close (next : ρ)

class SendTask (σ : Type) where
  call : σ → SendCall σ

class ReceiveTask (ρ : Type) where
  call : ρ → ReceiveCall ρ

/-! ## Programs -/

inductive Sending (α : Type) where
  | done (result : α)
  | send (data : Bytes) (next : Except Fault Nat → Sending α)
  | close (next : Sending α)

inductive Receiving (α : Type) where
  | done (result : α)
  | receive (wanted : Nat) (next : Except Fault Bytes → Receiving α)
  | close (next : Receiving α)

instance (α : Type) : SendTask (Sending α) where
  call
    | .done _ => .done
    | .send data next => .send data next
    | .close next => .close next

instance (α : Type) : ReceiveTask (Receiving α) where
  call
    | .done _ => .done
    | .receive wanted next => .receive wanted next
    | .close next => .close next

def Sending.result? {α : Type} : Sending α → Option α
  | .done result => some result
  | _ => none

def Receiving.result? {α : Type} : Receiving α → Option α
  | .done result => some result
  | _ => none

/-! ## Channels over a pipe -/

/-- Send data until all of it is queued, and go on. A send that queues nothing
fails. -/
def sendAll {α : Type} (data : Bytes) (next : Except Channel.Failure Unit → Sending α) :
    Sending α :=
  if data.isEmpty then
    next (.ok ())
  else
    .send data fun
      | .error fault => next (.error (.pipe fault))
      | .ok 0 => next (.error .writeZero)
      | .ok (more + 1) => sendAll (data.drop (more + 1)) next
termination_by data.length
decreasing_by
  rename_i some'
  have positive : 0 < data.length := by
    simpa [List.length_pos_iff] using some'
  simp only [List.length_drop]
  omega

end Pipe

open Pipe (Sending Receiving)

/-- A writing program, run with the sending end of a pipe as its sink. A pipe passes
everything on at once, so there is nothing to flush; giving the sink up closes the
pipe. -/
def Channel.Writing.toSending {α : Type} : Channel.Writing α → Sending α
  | .done result => .done result
  | .write data next => .send data fun answer => (next (answer.mapError .pipe)).toSending
  | .writeAll data next => Pipe.sendAll data fun answer => (next answer).toSending
  | .flush next | .settle next => (next (.ok ())).toSending
  | .release next => .close next.toSending

/-- A reading program, run with the receiving end of a pipe as its source. No fault of
a pipe is an interruption, so no call is tried again. -/
def Channel.Reading.toReceiving {α : Type} : Channel.Reading α → Receiving α
  | .done result => .done result
  | .read limit next | .pull limit next =>
      .receive limit fun answer => (next (answer.mapError .pipe)).toReceiving

end ByteStreams
