import ByteStreams.Command.Exit
import ByteStreams.Command.Session
import ByteStreams.Pipe.Pattern

/-!
The command that moves data through a pipe between two threads.

One thread sends a pattern, the other one checks that it arrives in order. If both
fail, what the checker met comes first, because a checker that stops makes the
sender fail as well. Each of them asks for a buffer of a chunk's size before it
moves anything. The checker is the thread of the program itself, so the program
breaks down with it, and a thread that is stopped stops the other one too.
-/

namespace ByteStreams

namespace Command

open Pipe (PatternSender PatternChecker)

structure BenchOrder where
  capacity : Nat
  size : Nat
  /-- The most bytes of one send and of one receive. -/
  chunk : Nat
  limit : Span
deriving DecidableEq, Repr

namespace BenchOrder

def dataFault (message : String) : Refusal := ⟨.dataInvalid, message⟩

/-- How many bytes were moved, if the two threads that have finished found nothing
wrong. -/
def verdict (order : BenchOrder) (sender : PatternSender) (checker : PatternChecker) :
    Except Refusal Nat :=
  match checker.finish with
  | some (.failed fault) => .error (.ofPipe "read failed" fault)
  | some (.mismatch position) =>
      .error (dataFault s!"byte at position {position} arrived out of order")
  | some .matched | none =>
      match sender.finish with
      | some (.error fault) => .error (.ofPipe "write failed" fault)
      | some (.ok ()) | none =>
          if checker.position = order.size then .ok checker.position
          else .error (dataFault s!"received {checker.position} of {order.size} bytes")

/-! ## Threads -/

inductive Buffer
  | wanted
  | held
  /-- The thread broke down when it asked for it. -/
  | lost
deriving DecidableEq, Repr

structure Threads where
  exchange : Pipe.Exchange PatternSender PatternChecker
  senderBuffer : Buffer
  checkerBuffer : Buffer

def exchange (order : BenchOrder) (pipe : Pipe) :
    Pipe.Exchange PatternSender PatternChecker :=
  .start pipe (some order.limit) (some order.limit) (.new order.size order.chunk)
    (.new order.chunk)

def threads (order : BenchOrder) (pipe : Pipe) : Threads :=
  ⟨order.exchange pipe, .wanted, .wanted⟩

/-- The sender asks for its buffer. If it breaks down, its end of the pipe is dropped. -/
def senderAsks (order : BenchOrder) (threads : Threads) (granted : Bool) :
    Except Refusal Threads :=
  match Refusal.ofBuffer? order.chunk granted with
  | none => .ok { threads with senderBuffer := .held }
  | some refusal =>
      if refusal.exit = .brokenDown then
        .ok { threads with exchange := threads.exchange.close, senderBuffer := .lost }
      else .error refusal

def checkerAsks (order : BenchOrder) (threads : Threads) (granted : Bool) :
    Except Refusal Threads :=
  match Refusal.ofBuffer? order.chunk granted with
  | none => .ok { threads with checkerBuffer := .held }
  | some refusal => .error refusal

inductive Event
  /-- The sender asks for its buffer; `granted` tells whether there is memory for it. -/
  | senderAsks (granted : Bool)
  /-- The checker asks for its buffer; `granted` tells whether there is memory for it. -/
  | checkerAsks (granted : Bool)
  | exchange (event : Pipe.Exchange.Event)
deriving DecidableEq, Repr

def Threads.holds (threads : Threads) : Pipe.Exchange.Event → Bool
  | .sender _ | .wakeSender => threads.senderBuffer = .held
  | .receiver _ | .wakeReceiver => threads.checkerBuffer = .held

/-- Let an event happen, if it can. It may be the end of the program. -/
def step? (order : BenchOrder) (threads : Threads) : Event → Option (Except Refusal Threads)
  | .senderAsks granted =>
      if threads.senderBuffer = .wanted then some (order.senderAsks threads granted) else none
  | .checkerAsks granted =>
      if threads.checkerBuffer = .wanted then some (order.checkerAsks threads granted) else none
  | .exchange event =>
      if threads.holds event then
        (threads.exchange.step? event).map fun stepped =>
          .ok { threads with exchange := stepped.exchange }
      else none

/-- Follow a schedule. Nothing happens after the end of the program. -/
def follow? (order : BenchOrder) (threads : Threads) :
    List Event → Option (Except Refusal Threads)
  | [] => some (.ok threads)
  | event :: events =>
      match order.step? threads event with
      | none => none
      | some (.error refusal) => if events.isEmpty then some (.error refusal) else none
      | some (.ok next) => order.follow? next events

/-- How a transfer came out, once it has. A checker that has finished waits for the sender. -/
def outcome? (order : BenchOrder) : Except Refusal Threads → Option (Except Refusal Nat)
  | .error refusal => some (.error refusal)
  | .ok threads =>
      match threads.exchange.receiver.finished? with
      | none => none
      | some checker =>
          if threads.senderBuffer = .lost then
            some (.error ⟨.internal, "producer thread panicked"⟩)
          else
            threads.exchange.sender.finished?.map fun sender => order.verdict sender checker

def begin (order : BenchOrder) (pipe : Pipe) (senderGranted checkerGranted : Bool) :
    Except Refusal Threads :=
  match order.senderAsks (order.threads pipe) senderGranted with
  | .error refusal => .error refusal
  | .ok threads => order.checkerAsks threads checkerGranted

/-- How a transfer comes out in which no time limit passes. -/
def settled? (order : BenchOrder) (pipe : Pipe) (senderGranted checkerGranted : Bool) :
    Option (Except Refusal Nat) :=
  order.outcome? ((order.begin pipe senderGranted checkerGranted).map fun threads =>
    { threads with exchange := threads.exchange.settle.exchange })

def move (order : BenchOrder) (pipe : Pipe) : Session (Except Refusal Nat) :=
  .memory order.chunk fun senderGranted =>
    .memory order.chunk fun checkerGranted =>
      match order.settled? pipe senderGranted checkerGranted with
      | none => .forever
      | some transfer => .done transfer

/-! ## The command -/

def conclude (order : BenchOrder) (form : ReportForm) (threshold : LogLevel) (moved : Nat)
    (elapsed : Span) : Session (Except Refusal Unit) :=
  let report : BenchReport :=
    ⟨order.capacity, order.chunk, moved, elapsed.milliseconds,
      BenchReport.throughputOf moved elapsed, true⟩
  .noteAll threshold
    [⟨.debug, "pipe-bench finished",
      [("received", .number moved), ("elapsed_ms", .number elapsed.milliseconds)]⟩]
    (.print (report.line form) (.done (.ok ())))

/-- Carry out an order, with the threads brought to their ends in some way. -/
def carryOutBy (order : BenchOrder) (moveBy : Pipe → Session (Except Refusal Nat))
    (form : ReportForm) (threshold : LogLevel) : Session (Except Refusal Unit) :=
  if order.chunk = 0 then
    .done (.error (.usage "--chunk must be greater than zero"))
  else
    match Pipe.create (some order.capacity) with
    | .error fault => .done (.error (.ofPipe "failed creating pipe" fault))
    | .ok pipe =>
        .clock fun started =>
          (moveBy pipe).bind fun
            | .error refusal => .done (.error refusal)
            | .ok moved =>
                .clock fun stopped =>
                  order.conclude form threshold moved
                    ⟨stopped.nanoseconds - started.nanoseconds⟩

def carryOut (order : BenchOrder) (form : ReportForm) (threshold : LogLevel) :
    Session (Except Refusal Unit) :=
  order.carryOutBy order.move form threshold

end BenchOrder

end Command

end ByteStreams
