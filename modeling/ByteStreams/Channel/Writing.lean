import ByteStreams.Channel.Failure

/-!
Programs that write to a sink.

A program is the tree of its calls: each call names what it asks of the sink and
how the program goes on for every answer. The same program runs against a scripted
sink, against another layer or against a pipe that two threads share, and the tree
says nothing about which of them answers.

Calls that try again after an interruption are calls of their own, because only
the sink knows how often it interrupts.
-/

namespace ByteStreams

namespace Channel

inductive Writing (α : Type) where
  | done (result : α)
  /-- Offer bytes once. The answer is how many the sink took. -/
  | write (data : Bytes) (next : Except Failure Nat → Writing α)
  /-- Offer bytes until the sink has taken all of them, trying again after an
  interruption. A sink that takes nothing fails. -/
  | writeAll (data : Bytes) (next : Except Failure Unit → Writing α)
  /-- Ask once that everything taken be passed on. -/
  | flush (next : Except Failure Unit → Writing α)
  /-- Ask that everything taken be passed on, trying again after an
  interruption. -/
  | settle (next : Except Failure Unit → Writing α)
  | release (next : Writing α)

namespace Writing

def bind {α β : Type} : Writing α → (α → Writing β) → Writing β
  | .done result, andThen => andThen result
  | .write data next, andThen => .write data fun answer => (next answer).bind andThen
  | .writeAll data next, andThen => .writeAll data fun answer => (next answer).bind andThen
  | .flush next, andThen => .flush fun answer => (next answer).bind andThen
  | .settle next, andThen => .settle fun answer => (next answer).bind andThen
  | .release next, andThen => .release (next.bind andThen)

def map {α β : Type} (change : α → β) (program : Writing α) : Writing β :=
  program.bind fun result => .done (change result)

theorem bind_done {α : Type} (program : Writing α) : program.bind .done = program := by
  induction program with
  | done => rfl
  | write data next induction => simp [bind, induction]
  | writeAll data next induction => simp [bind, induction]
  | flush next induction => simp [bind, induction]
  | settle next induction => simp [bind, induction]
  | release next induction => simp [bind, induction]

theorem bind_bind {α β γ : Type} (program : Writing α) (second : α → Writing β)
    (third : β → Writing γ) :
    (program.bind second).bind third =
      program.bind fun result => (second result).bind third := by
  induction program with
  | done => rfl
  | write data next induction => simp [bind, induction]
  | writeAll data next induction => simp [bind, induction]
  | flush next induction => simp [bind, induction]
  | settle next induction => simp [bind, induction]
  | release next induction => simp [bind, induction]

end Writing

end Channel

end ByteStreams
