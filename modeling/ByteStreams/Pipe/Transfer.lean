import ByteStreams.Pipe.Exchange

/-!
Moving blocks of bytes through a pipe.

The sender sends its blocks one by one and then closes the pipe; it stops at the
first fault. The receiver takes bytes until the pipe ends, a fault arises or it has
as many as it wants, and then closes the pipe.
-/

namespace ByteStreams

namespace Pipe

inductive BlockSender
  /-- These blocks are left, and so many bytes were queued. -/
  | sending (blocks : List Bytes) (sent : Nat)
  /-- All blocks were sent and the pipe was closed. -/
  | complete (sent : Nat)
  | stopped (fault : Fault)
deriving DecidableEq, Repr

def BlockSender.afterSend (blocks : List Bytes) (sent : Nat) :
    Except Fault Nat → BlockSender
  | .ok more => .sending blocks (sent + more)
  | .error fault => .stopped fault

instance : SendTask BlockSender where
  call
    | .sending [] sent => .close (.complete sent)
    | .sending (block :: rest) sent => .send block (BlockSender.afterSend rest sent)
    | .complete _ | .stopped _ => .done

inductive CollectorEnd
  /-- The pipe ended. -/
  | ended
  /-- It has as many bytes as it wants. -/
  | satisfied
  | failed (fault : Fault)
deriving DecidableEq, Repr

structure Collector where
  /-- The most bytes that one call asks for. -/
  piece : Nat
  /-- How many bytes are wanted in all; `none` is all there are. -/
  goal : Option Nat
  /-- The pieces that came, last one first. -/
  pieces : List Bytes
  count : Nat
  /-- Why no more are taken, once that is so. -/
  finish : Option CollectorEnd
  /-- Whether the pipe was closed after that. -/
  closed : Bool
deriving DecidableEq, Repr

namespace Collector

def new (piece : Nat) (goal : Option Nat) : Collector := ⟨piece, goal, [], 0, none, false⟩

def received (collector : Collector) : Bytes := Bytes.join collector.pieces

/-- How many bytes the next call asks for; none once the goal is reached. -/
def wanted (collector : Collector) : Nat :=
  match collector.goal with
  | some goal => min collector.piece (goal - collector.count)
  | none => collector.piece

def afterReceive (collector : Collector) : Except Fault Bytes → Collector
  | .ok [] => { collector with finish := some .ended }
  | .ok bytes =>
      { collector with
        pieces := bytes :: collector.pieces
        count := collector.count + bytes.length }
  | .error fault => { collector with finish := some (.failed fault) }

def isSatisfied (collector : Collector) : Bool :=
  match collector.goal with
  | some goal => goal ≤ collector.count
  | none => false

instance : ReceiveTask Collector where
  call collector :=
    if collector.closed then .done
    else if collector.finish.isSome then .close { collector with closed := true }
    else if collector.isSatisfied then
      .close { collector with finish := some .satisfied, closed := true }
    else .receive collector.wanted collector.afterReceive

end Collector

end Pipe

end ByteStreams
