import ByteStreams.Pipe.Task

/-!
Two threads and a pipe between them.

One thread runs a task with the sending end, the other one with the receiving end.
A step is one stretch of one thread, or a wake-up that nobody asked for. Every
stretch that changes the pipe wakes both threads. A thread whose task is over drops
its end, which closes the pipe. A schedule is a list of steps, and the reachable
systems are those that some schedule leads to.
-/

namespace ByteStreams

namespace Pipe

/-! ## States -/

inductive SenderState (σ : Type) where
  | ready (task : σ)
  /-- In a send that is about to take the lock again. -/
  | awake (left : Bytes) (queued : Nat) (next : Except Fault Nat → σ)
  | parked (left : Bytes) (queued : Nat) (next : Except Fault Nat → σ)
  /-- Its task is over and its end dropped. -/
  | finished (task : σ)

inductive ReceiverState (ρ : Type) where
  | ready (task : ρ)
  /-- In a receive that is about to take the lock again. -/
  | awake (wanted : Nat) (next : Except Fault Bytes → ρ)
  | parked (wanted : Nat) (next : Except Fault Bytes → ρ)
  /-- Its task is over and its end dropped. -/
  | finished (task : ρ)

def SenderState.wake {σ : Type} : SenderState σ → SenderState σ
  | .parked left queued next => .awake left queued next
  | state => state

def ReceiverState.wake {ρ : Type} : ReceiverState ρ → ReceiverState ρ
  | .parked wanted next => .awake wanted next
  | state => state

def SenderState.isParked {σ : Type} : SenderState σ → Bool
  | .parked _ _ _ => true
  | _ => false

def ReceiverState.isParked {ρ : Type} : ReceiverState ρ → Bool
  | .parked _ _ => true
  | _ => false

def SenderState.finished? {σ : Type} : SenderState σ → Option σ
  | .finished task => some task
  | _ => none

def ReceiverState.finished? {ρ : Type} : ReceiverState ρ → Option ρ
  | .finished task => some task
  | _ => none

structure Exchange (σ ρ : Type) where
  pipe : Pipe
  sendLimit : Option Span
  receiveLimit : Option Span
  sender : SenderState σ
  receiver : ReceiverState ρ

namespace Exchange

variable {σ ρ : Type}

/-- Two tasks that are about to begin. -/
def start (pipe : Pipe) (sendLimit receiveLimit : Option Span) (sender : σ) (receiver : ρ) :
    Exchange σ ρ :=
  ⟨pipe, sendLimit, receiveLimit, .ready sender, .ready receiver⟩

def wakeAll (exchange : Exchange σ ρ) : Exchange σ ρ :=
  { exchange with sender := exchange.sender.wake, receiver := exchange.receiver.wake }

def close (exchange : Exchange σ ρ) : Exchange σ ρ :=
  if exchange.pipe.closed then exchange
  else { exchange with pipe := exchange.pipe.close }.wakeAll

/-! ## Steps -/

inductive Event
  /-- The sending thread runs a stretch; `expired` tells whether its time limit has
  passed. -/
  | sender (expired : Bool)
  /-- The receiving thread runs a stretch; `expired` tells whether its time limit has
  passed. -/
  | receiver (expired : Bool)
  /-- The sending thread wakes without a reason. -/
  | wakeSender
  /-- The receiving thread wakes without a reason. -/
  | wakeReceiver
deriving DecidableEq, Repr

structure Stepped (σ ρ : Type) where
  exchange : Exchange σ ρ
  queued : Bytes
  delivered : Bytes

def Stepped.still (exchange : Exchange σ ρ) : Stepped σ ρ := ⟨exchange, [], []⟩

/-- Run a stretch of a send: what it queued wakes the receiver before the sender
itself may wait. -/
def runSend (exchange : Exchange σ ρ) (left : Bytes) (queued : Nat)
    (next : Except Fault Nat → σ) (expired : Bool) : Stepped σ ρ :=
  let stretch := exchange.pipe.sendStretch left queued exchange.sendLimit expired
  let receiver :=
    if stretch.pushed.isEmpty then exchange.receiver else exchange.receiver.wake
  let sender := match stretch.finish with
    | .answers answer => .ready (next answer)
    | .waits left queued => .parked left queued next
  ⟨{ exchange with pipe := stretch.pipe, sender := sender, receiver := receiver },
    stretch.pushed, []⟩

/-- Run a stretch of a receive: what it took wakes the sender. -/
def runReceive (exchange : Exchange σ ρ) (wanted : Nat) (next : Except Fault Bytes → ρ)
    (expired : Bool) : Stepped σ ρ :=
  let stretch := exchange.pipe.receiveStretch wanted exchange.receiveLimit expired
  let sender := if stretch.taken.isEmpty then exchange.sender else exchange.sender.wake
  let receiver := match stretch.finish with
    | .answers answer => .ready (next answer)
    | .waits => .parked wanted next
  ⟨{ exchange with pipe := stretch.pipe, sender := sender, receiver := receiver },
    [], stretch.taken⟩

/-- Let an event happen, if it can. A thread that waits or has finished runs no
stretch, and a time limit passes only where there is one. -/
def step? [SendTask σ] [ReceiveTask ρ] (exchange : Exchange σ ρ) :
    Event → Option (Stepped σ ρ)
  | .sender expired =>
      if expired && !mayExpire exchange.sendLimit then none
      else
        match exchange.sender with
        | .ready task =>
            match SendTask.call task with
            | .done => some (.still { exchange.close with sender := .finished task })
            | .send data next => some (exchange.runSend data 0 next expired)
            | .close next => some (.still { exchange.close with sender := .ready next })
        | .awake left queued next => some (exchange.runSend left queued next expired)
        | .parked _ _ _ | .finished _ => none
  | .receiver expired =>
      if expired && !mayExpire exchange.receiveLimit then none
      else
        match exchange.receiver with
        | .ready task =>
            match ReceiveTask.call task with
            | .done => some (.still { exchange.close with receiver := .finished task })
            | .receive wanted next => some (exchange.runReceive wanted next expired)
            | .close next => some (.still { exchange.close with receiver := .ready next })
        | .awake wanted next => some (exchange.runReceive wanted next expired)
        | .parked _ _ | .finished _ => none
  | .wakeSender =>
      if exchange.sender.isParked then
        some (.still { exchange with sender := exchange.sender.wake })
      else none
  | .wakeReceiver =>
      if exchange.receiver.isParked then
        some (.still { exchange with receiver := exchange.receiver.wake })
      else none

/-- Follow a schedule. There is no end if one of its events cannot happen. -/
def follow? [SendTask σ] [ReceiveTask ρ] (exchange : Exchange σ ρ) :
    List Event → Option (Stepped σ ρ)
  | [] => some (.still exchange)
  | event :: events =>
      (exchange.step? event).bind fun first =>
        (first.exchange.follow? events).map fun rest =>
          ⟨rest.exchange, first.queued ++ rest.queued, first.delivered ++ rest.delivered⟩

/-! ## A fair schedule -/

/-- The next event of a schedule in which the sender runs whenever it can, no time
limit passes and nobody wakes without a reason. -/
def nextEvent [SendTask σ] [ReceiveTask ρ] (exchange : Exchange σ ρ) : Option (Stepped σ ρ) :=
  (exchange.step? (.sender false)).or (exchange.step? (.receiver false))

structure Settled (σ ρ : Type) where
  exchange : Exchange σ ρ
  /-- The most bytes that the pipe held after any step. -/
  peak : Nat

/-- Run an exchange until neither thread can, in at most so many steps. `peak` is the
most bytes that the pipe held before. -/
def settleWithin [SendTask σ] [ReceiveTask ρ] (peak : Nat) (exchange : Exchange σ ρ) :
    (steps : Nat) → Settled σ ρ
  | 0 => ⟨exchange, peak⟩
  | steps + 1 =>
      match exchange.nextEvent with
      | some stepped =>
          settleWithin (max peak stepped.exchange.pipe.available) stepped.exchange steps
      | none => ⟨exchange, peak⟩

/-- More steps than any run takes in practice. -/
def patience : Nat := 0x4000000000000000

def settle [SendTask σ] [ReceiveTask ρ] (exchange : Exchange σ ρ) : Settled σ ρ :=
  settleWithin exchange.pipe.available exchange patience

end Exchange

end Pipe

end ByteStreams
