import ByteStreams.Bytes
import ByteStreams.Channel.Failure

/-!
How a command ends: exit codes, and the messages that go with those of failures.

A program that cannot have the memory that it asks for ends suddenly: it breaks down if
it asks for more than there can be, and is stopped if it asks for more than there is.
-/

namespace ByteStreams

namespace Command

inductive Exit
  | success
  | failure
  /-- The arguments make no command. -/
  | badArguments
  /-- The data that was read is not what it should be. -/
  | dataInvalid
  /-- The command was asked for something that makes no sense. -/
  | usage
  /-- A wait was too long. -/
  | timeout
  | internal
  /-- The program broke down. -/
  | brokenDown
  /-- The program was stopped. The number is the one that shells show for it. -/
  | stopped
deriving DecidableEq, Repr

def Exit.code : Exit → Nat
  | .success => 0
  | .failure => 1
  | .badArguments => 2
  | .dataInvalid => 60
  | .usage => 64
  | .timeout => 124
  | .internal => 125
  | .brokenDown => 101
  | .stopped => 134

/-- Whether a program ends without a complaint of its own. -/
def Exit.isSudden : Exit → Bool
  | .brokenDown | .stopped => true
  | _ => false

structure Refusal where
  exit : Exit
  message : String
deriving DecidableEq, Repr

def exitOfKind : Channel.Kind → Exit
  | .timedOut | .wouldBlock => .timeout
  | .invalidData => .dataInvalid
  | .notFound | .permissionDenied | .brokenPipe => .failure
  | _ => .internal

namespace Refusal

def usage (message : String) : Refusal := ⟨.usage, message⟩

/-- A thread asked for more bytes than a buffer can have. -/
def overflow : Refusal := ⟨.brokenDown, "capacity overflow"⟩

def outOfMemory (size : Nat) : Refusal := ⟨.stopped, s!"memory allocation of {size} bytes failed"⟩

/-- Why a thread gets no buffer of so many bytes, if it gets none; `granted` tells whether
there is memory for them. -/
def ofBuffer? (size : Nat) (granted : Bool) : Option Refusal :=
  if Bytes.longestBuffer < size then some overflow
  else if granted then none
  else some (outOfMemory size)

def about (context : String) (exit : Exit) (message : String) : Refusal :=
  ⟨exit, context ++ ": " ++ message⟩

def ofChannel (context : String) (failure : Channel.Failure) : Refusal :=
  about context (exitOfKind failure.kind) failure.message

def ofPipe (context : String) (fault : Pipe.Fault) : Refusal :=
  let exit := match fault with
    | .timeout _ => .timeout
    | .invalidCapacity _ => .usage
    | .closed => .failure
  about context exit fault.message

def ofRunLength (context : String) : RunLength.Failure → Refusal
  | .channel failure => ofChannel context failure
  | .fault fault =>
      let exit := match fault with
        | .truncated _ _ | .reservedIndicator _ | .emptyRun => .dataInvalid
        | .closed => .failure
        | .invalidRunLength _ _ => .internal
      about context exit fault.message

end Refusal

end Command

end ByteStreams
