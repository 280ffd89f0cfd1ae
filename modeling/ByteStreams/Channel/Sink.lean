import ByteStreams.Channel.Writing

/-!
Sinks that follow a script.

The script says how each coming call goes; a sink whose script is used up takes
everything. The sink keeps a journal of what was asked of it, so that both the
bytes it took and the calls that brought them can be read off.
-/

namespace ByteStreams

namespace Channel

inductive Reply
  /-- It takes at most so many of them. -/
  | accept (most : Nat)
  | refuse (failure : Failure)
deriving DecidableEq, Repr

inductive Event
  /-- Of so many bytes offered it took these. -/
  | accepted (offered : Nat) (taken : Bytes)
  | refused (offered : Nat) (failure : Failure)
  | flushed
  | flushRefused (failure : Failure)
  | released
deriving DecidableEq, Repr

def Event.taken : Event → Bytes
  | .accepted _ taken => taken
  | _ => []

/-- A sink with a script and a journal. -/
structure Sink where
  /-- The answers to the next offers. -/
  replies : List Reply
  /-- The answers to the next requests to pass everything on; `none` is success. -/
  flushReplies : List (Option Failure)
  /-- What happened, last event first. -/
  journal : List Event
deriving DecidableEq, Repr

namespace Sink

def accepting : Sink := ⟨[], [], []⟩

def accepted (sink : Sink) : Bytes := sink.journal.reverse.flatMap Event.taken

def count (sink : Sink) : Nat :=
  sink.journal.foldr (fun event total => event.taken.length + total) 0

def write (sink : Sink) (data : Bytes) : Except Failure Nat × Sink :=
  match sink.replies with
  | [] =>
      (.ok data.length,
        { sink with journal := .accepted data.length data :: sink.journal })
  | .accept most :: replies =>
      let taken := data.take most
      (.ok taken.length,
        { sink with
          replies := replies
          journal := .accepted data.length taken :: sink.journal })
  | .refuse failure :: replies =>
      (.error failure,
        { sink with
          replies := replies
          journal := .refused data.length failure :: sink.journal })

def writeAllUnder (sink : Sink) (data : Bytes) : List Reply → Except Failure Unit × Sink
  | [] =>
      if data.isEmpty then
        (.ok (), { sink with replies := [] })
      else
        (.ok (),
          { sink with
            replies := []
            journal := .accepted data.length data :: sink.journal })
  | reply :: replies =>
      if data.isEmpty then
        (.ok (), { sink with replies := reply :: replies })
      else
        match reply with
        | .accept most =>
            let taken := data.take most
            let noted := { sink with
              replies := replies
              journal := .accepted data.length taken :: sink.journal }
            if most = 0 then (.error .writeZero, noted)
            else writeAllUnder noted (data.drop most) replies
        | .refuse failure =>
            let noted := { sink with
              replies := replies
              journal := .refused data.length failure :: sink.journal }
            if failure.isInterruption then writeAllUnder noted data replies
            else (.error failure, noted)

/-- Offer bytes until all are taken. Without bytes, no offer is made. -/
def writeAll (sink : Sink) (data : Bytes) : Except Failure Unit × Sink :=
  writeAllUnder sink data sink.replies

def flush (sink : Sink) : Except Failure Unit × Sink :=
  match sink.flushReplies with
  | [] => (.ok (), { sink with journal := .flushed :: sink.journal })
  | none :: replies =>
      (.ok (), { sink with flushReplies := replies, journal := .flushed :: sink.journal })
  | some failure :: replies =>
      (.error failure,
        { sink with
          flushReplies := replies
          journal := .flushRefused failure :: sink.journal })

def settleUnder (sink : Sink) : List (Option Failure) → Except Failure Unit × Sink
  | [] => (.ok (), { sink with flushReplies := [], journal := .flushed :: sink.journal })
  | none :: replies =>
      (.ok (), { sink with flushReplies := replies, journal := .flushed :: sink.journal })
  | some failure :: replies =>
      let noted := { sink with
        flushReplies := replies
        journal := .flushRefused failure :: sink.journal }
      if failure.isInterruption then settleUnder noted replies else (.error failure, noted)

/-- Ask that everything be passed on, again after every interruption. -/
def settle (sink : Sink) : Except Failure Unit × Sink := settleUnder sink sink.flushReplies

def release (sink : Sink) : Sink := { sink with journal := .released :: sink.journal }

end Sink

def Writing.run {α : Type} : Writing α → Sink → α × Sink
  | .done result, sink => (result, sink)
  | .write data next, sink =>
      let (answer, sink) := sink.write data
      (next answer).run sink
  | .writeAll data next, sink =>
      let (answer, sink) := sink.writeAll data
      (next answer).run sink
  | .flush next, sink =>
      let (answer, sink) := sink.flush
      (next answer).run sink
  | .settle next, sink =>
      let (answer, sink) := sink.settle
      (next answer).run sink
  | .release next, sink => next.run sink.release

theorem Writing.run_bind {α β : Type} (program : Writing α) (andThen : α → Writing β)
    (sink : Sink) :
    (program.bind andThen).run sink =
      (andThen (program.run sink).1).run (program.run sink).2 := by
  induction program generalizing sink with
  | done => rfl
  | write data next induction => simp [Writing.bind, Writing.run, induction]
  | writeAll data next induction => simp [Writing.bind, Writing.run, induction]
  | flush next induction => simp [Writing.bind, Writing.run, induction]
  | settle next induction => simp [Writing.bind, Writing.run, induction]
  | release next induction => simp [Writing.bind, Writing.run, induction]

theorem Sink.count_eq (sink : Sink) : sink.count = sink.accepted.length := by
  obtain ⟨replies, flushReplies, journal⟩ := sink
  induction journal with
  | nil => rfl
  | cons event journal induction =>
      simp only [Sink.count, Sink.accepted, List.foldr_cons, List.reverse_cons,
        List.flatMap_append, List.flatMap_singleton, List.length_append] at induction ⊢
      omega

/-- One byte at a time, with an interruption between. -/
example :
    let sink : Sink := ⟨[.accept 1, .refuse (.bare .interrupted)], [], []⟩
    (sink.writeAll [1, 2]).1.isOk = true ∧
      (sink.writeAll [1, 2]).2.accepted = [1, 2] := by
  decide +kernel

end Channel

end ByteStreams
