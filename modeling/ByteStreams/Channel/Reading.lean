import ByteStreams.Channel.Failure

/-!
Programs that read from a source.

Like a writing program, a reading program is the tree of its calls. An answer
without bytes means that the source has ended, at least for now.

`gather`, `skip` and `readToEnd` are the loops that readers of every layer share.
-/

namespace ByteStreams

namespace Channel

/-- A program that reads from a source and then has a result. -/
inductive Reading (α : Type) where
  | done (result : α)
  /-- Ask once for at most `limit` bytes. -/
  | read (limit : Nat) (next : Except Failure Bytes → Reading α)
  /-- Ask for at most `limit` bytes, trying again after an interruption. -/
  | pull (limit : Nat) (next : Except Failure Bytes → Reading α)

namespace Reading

def bind {α β : Type} : Reading α → (α → Reading β) → Reading β
  | .done result, andThen => andThen result
  | .read limit next, andThen => .read limit fun answer => (next answer).bind andThen
  | .pull limit next, andThen => .pull limit fun answer => (next answer).bind andThen

def map {α β : Type} (change : α → β) (program : Reading α) : Reading β :=
  program.bind fun result => .done (change result)

theorem bind_done {α : Type} (program : Reading α) : program.bind .done = program := by
  induction program with
  | done => rfl
  | read limit next induction => simp [bind, induction]
  | pull limit next induction => simp [bind, induction]

theorem bind_bind {α β γ : Type} (program : Reading α) (second : α → Reading β)
    (third : β → Reading γ) :
    (program.bind second).bind third =
      program.bind fun result => (second result).bind third := by
  induction program with
  | done => rfl
  | read limit next induction => simp [bind, induction]
  | pull limit next induction => simp [bind, induction]

/-! ## Loops -/

inductive Ending
  | complete
  | ended
  | failed (failure : Failure)
deriving DecidableEq, Repr

/-- Read until `want` more bytes have come. The pieces read so far are kept last
one first. -/
def gatherAfter (found : List Bytes) (want : Nat) : Reading (Bytes × Ending) :=
  if want = 0 then
    .done (Bytes.join found, .complete)
  else
    .pull want fun
      | .error failure => .done (Bytes.join found, .failed failure)
      | .ok [] => .done (Bytes.join found, .ended)
      | .ok (byte :: more) =>
          gatherAfter ((byte :: more) :: found) (want - (more.length + 1))
termination_by want

/-- Read `want` bytes, unless the source ends or fails before. The bytes that came
until then are kept. -/
def gather (want : Nat) : Reading (Bytes × Ending) := gatherAfter [] want

def skipLimit : Nat := 8192

/-- Read and discard until `left` more bytes have come; `skipped` have come
already. -/
def skipAfter (skipped left : Nat) : Reading (Nat × Ending) :=
  if left = 0 then
    .done (skipped, .complete)
  else
    .pull (min left skipLimit) fun
      | .error failure => .done (skipped, .failed failure)
      | .ok [] => .done (skipped, .ended)
      | .ok (_ :: more) =>
          skipAfter (skipped + (more.length + 1)) (left - (more.length + 1))
termination_by left

def skip (count : Nat) : Reading (Nat × Ending) := skipAfter 0 count

def readExactly (want : Nat) : Reading (Except Failure Bytes) :=
  (gather want).map fun
    | (bytes, .complete) => .ok bytes
    | (_, .ended) => .error .shortRead
    | (_, .failed failure) => .error failure

def pieceLimit : Nat := 8192

/-- Read until the source ends or fails, in at most so many calls. The pieces read
so far are kept last one first. -/
def readToEndAfter (found : List Bytes) : (calls : Nat) → Reading (Bytes × Option Failure)
  | 0 => .done (Bytes.join found, none)
  | calls + 1 =>
      .pull pieceLimit fun
        | .error failure => .done (Bytes.join found, some failure)
        | .ok [] => .done (Bytes.join found, none)
        | .ok (byte :: more) => readToEndAfter ((byte :: more) :: found) calls

/-- Read until the source ends or fails. The bytes that came until then are kept. No
buffer holds more bytes than there are calls, and every call but the last brings at
least one. -/
def readToEnd : Reading (Bytes × Option Failure) := readToEndAfter [] Bytes.longestBuffer

end Reading

end Channel

end ByteStreams
