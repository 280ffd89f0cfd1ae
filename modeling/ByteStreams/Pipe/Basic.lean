import ByteStreams.Pipe.ChunkQueue
import ByteStreams.Pipe.Fault

/-!
Pipes: byte queues of bounded size between a sender and a receiver.

A pipe is guarded by a lock. What a call does while it holds the lock is a stretch:
it ends with the call's answer, or with a wait that gives the lock up. The stretches
here are pure functions of the pipe, so they serve one thread and two alike.

A call with a time limit gives up when it is about to wait and the limit has passed;
whether it has passed is an input of the stretch.
-/

namespace ByteStreams

structure Pipe where
  chunks : ChunkQueue
  /-- How many bytes are in the queue. -/
  available : Nat
  /-- How many bytes the queue may hold; `none` is any number. -/
  capacity : Option Nat
  /-- Whether an end has closed the pipe. -/
  closed : Bool
deriving DecidableEq, Repr

namespace Pipe

def defaultCapacity : Nat := 64 * 1024

def empty (capacity : Option Nat) : Pipe := ⟨.empty, 0, capacity, false⟩

/-- A new pipe, unless it could never hold a byte. -/
def create (capacity : Option Nat) : Except Fault Pipe :=
  if capacity = some 0 then .error (.invalidCapacity 0) else .ok (empty capacity)

/-- Cut data into what the pipe has room for and what it has not. -/
def fit (pipe : Pipe) (data : Bytes) : Bytes × Bytes :=
  match pipe.capacity with
  | some capacity => data.splitAt (capacity - pipe.available)
  | none => (data, [])

/-- So few chunks are never merged. -/
def fewChunks : Nat := 100

/-- More chunks than this are always merged. -/
def manyChunks : Nat := 1000

/-- Chunks are small if they hold fewer bytes than this on average. -/
def smallAverage : Nat := 128

def isFragmented (pipe : Pipe) : Bool :=
  let count := pipe.chunks.count
  manyChunks < count || (fewChunks < count && pipe.available / count < smallAverage)

def compact (pipe : Pipe) : Pipe :=
  if pipe.isFragmented then { pipe with chunks := pipe.chunks.merge } else pipe

/-- Put data into the queue, as a chunk of its own unless the queue becomes fragmented. -/
def push (pipe : Pipe) (data : Bytes) : Pipe :=
  compact
    { pipe with chunks := pipe.chunks.push data, available := pipe.available + data.length }

def drain (pipe : Pipe) (limit : Nat) : Bytes × Pipe :=
  let (taken, chunks) := pipe.chunks.take limit
  (taken, { pipe with chunks := chunks, available := pipe.available - taken.length })

def close (pipe : Pipe) : Pipe := { pipe with closed := true }

/-! ## Time limits -/

/-- A clock cannot reach so many seconds. A longer limit never passes. -/
def clockRange : Nat := 0x8000000000000000

def mayExpire : Option Span → Bool
  | some span => span.seconds < clockRange
  | none => false

/-! ## Sending -/

inductive SendEnd
  /-- The call answers: so many bytes of its data were queued by it. -/
  | answers (answer : Except Fault Nat)
  /-- The call waits for room: these bytes of its data are left, and so many were
  queued by it. -/
  | waits (left : Bytes) (queued : Nat)

structure SendStretch where
  pipe : Pipe
  pushed : Bytes
  finish : SendEnd

def awaitRoom (left : Bytes) (queued : Nat) (limit : Option Span) (expired : Bool) : SendEnd :=
  if expired then
    if 0 < queued then .answers (.ok queued)
    else .answers (.error (.timeout (limit.getD ⟨0⟩)))
  else
    .waits left queued

/-- Queue as much as fits of the bytes that are left of a send, of which `queued`
were queued before. -/
def sendStretch (pipe : Pipe) (left : Bytes) (queued : Nat) (limit : Option Span)
    (expired : Bool) : SendStretch :=
  if left.isEmpty then
    ⟨pipe, [], .answers (.ok queued)⟩
  else if pipe.closed then
    ⟨pipe, [], .answers (.error .closed)⟩
  else
    let (part, rest) := pipe.fit left
    if part.isEmpty then
      ⟨pipe, [], awaitRoom left queued limit expired⟩
    else
      let queued := queued + part.length
      if rest.isEmpty then
        ⟨pipe.push part, part, .answers (.ok queued)⟩
      else
        ⟨pipe.push part, part, awaitRoom rest queued limit expired⟩

/-! ## Receiving -/

inductive ReceiveEnd
  /-- The call answers with bytes; no bytes mean that none will come. -/
  | answers (answer : Except Fault Bytes)
  | waits

structure ReceiveStretch where
  pipe : Pipe
  taken : Bytes
  finish : ReceiveEnd

def receiveStretch (pipe : Pipe) (wanted : Nat) (limit : Option Span) (expired : Bool) :
    ReceiveStretch :=
  if wanted = 0 then
    ⟨pipe, [], .answers (.ok [])⟩
  else if pipe.available = 0 then
    if pipe.closed then
      ⟨pipe, [], .answers (.ok [])⟩
    else if expired then
      ⟨pipe, [], .answers (.error (.timeout (limit.getD ⟨0⟩)))⟩
    else
      ⟨pipe, [], .waits⟩
  else
    let (taken, pipe) := pipe.drain wanted
    ⟨pipe, taken, .answers (.ok taken)⟩

/-! ## Text -/

def description (pipe : Pipe) : String :=
  let capacity := match pipe.capacity with
    | some capacity => s!"Some({capacity})"
    | none => "None"
  s!"\x7b available: {pipe.available}, capacity: {capacity}, closed: {pipe.closed} \x7d"

def senderDescription (pipe : Pipe) : String := "PipeWriter " ++ pipe.description

def receiverDescription (pipe : Pipe) : String := "PipeReader " ++ pipe.description

end Pipe

end ByteStreams
