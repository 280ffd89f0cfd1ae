import ByteStreams.Pipe.Exchange

/-!
A pattern of bytes that goes through a pipe and is checked where it comes out.

The byte at a position depends on the position only. Its period is a prime number,
so blocks of one size that arrive in another order are noticed, unless the size is a
multiple of the period: such blocks are all alike.
-/

namespace ByteStreams

namespace Pipe

def patternPeriod : Nat := 251

def patternByte (position : Nat) : UInt8 := UInt8.ofNat (position % patternPeriod)

/-- Some bytes of the pattern before others, the first of them at `position`. -/
def patternBefore (position : Nat) : (count : Nat) → (others : Bytes) → Bytes
  | 0, others => others
  | count + 1, others => patternBefore position count (patternByte (position + count) :: others)

def pattern (position count : Nat) : Bytes := patternBefore position count []

theorem pattern_eq (position count : Nat) :
    pattern position count = (List.range' position count).map patternByte := by
  have before (count : Nat) (others : Bytes) : patternBefore position count others =
      (List.range' position count).map patternByte ++ others := by
    induction count generalizing others with
    | zero => rfl
    | succ count induction =>
        rw [patternBefore, induction, List.range'_concat]
        simp
  simp [pattern, before]

@[simp] theorem length_pattern (position count : Nat) :
    (pattern position count).length = count := by
  simp [pattern_eq]

def firstMismatch? : (position : Nat) → Bytes → Option Nat
  | _, [] => none
  | position, byte :: rest =>
      if byte = patternByte position then firstMismatch? (position + 1) rest
      else some position

example : firstMismatch? 250 [250, 0, 1, 3] = some 253 := by decide

/-! ## Sending the pattern -/

/-- A thread that sends the first `size` bytes of the pattern in chunks and then
closes the pipe. What a send leaves over of a chunk is sent again before the next
chunk. -/
structure PatternSender where
  size : Nat
  chunk : Nat
  /-- How many bytes were queued. -/
  position : Nat
  /-- Whether the thread closed the pipe, or why it stopped before. -/
  finish : Option (Except Fault Unit)

namespace PatternSender

def new (size chunk : Nat) : PatternSender := ⟨size, chunk, 0, none⟩

/-- Where the chunk ends that the position lies in. Every chunk but the last begins
and ends at a multiple of the chunk size. -/
def chunkEnd (sender : PatternSender) : Nat :=
  min sender.size ((sender.position / sender.chunk + 1) * sender.chunk)

def unsent (sender : PatternSender) : Bytes :=
  pattern sender.position (sender.chunkEnd - sender.position)

def afterSend (sender : PatternSender) : Except Fault Nat → PatternSender
  | .ok queued => { sender with position := sender.position + queued }
  | .error fault => { sender with finish := some (.error fault) }

instance : SendTask PatternSender where
  call sender :=
    if sender.finish.isSome then .done
    else if sender.position < sender.size then .send sender.unsent sender.afterSend
    else .close { sender with finish := some (.ok ()) }

end PatternSender

/-! ## Checking the pattern -/

inductive CheckEnd
  /-- The pipe ended, and all bytes were those of the pattern. -/
  | matched
  /-- The byte at a position was not that of the pattern. -/
  | mismatch (position : Nat)
  | failed (fault : Fault)
deriving DecidableEq, Repr

/-- A thread that takes bytes out of a pipe and compares them with the pattern. It
closes the pipe when it is done. -/
structure PatternChecker where
  /-- The most bytes that one call asks for. -/
  chunk : Nat
  /-- How many bytes came and were those of the pattern. -/
  position : Nat
  /-- What was found, once no more bytes are taken. -/
  finish : Option CheckEnd
  /-- Whether the pipe was closed after that. -/
  closed : Bool
deriving DecidableEq, Repr

namespace PatternChecker

def new (chunk : Nat) : PatternChecker := ⟨chunk, 0, none, false⟩

def afterReceive (checker : PatternChecker) : Except Fault Bytes → PatternChecker
  | .ok [] => { checker with finish := some .matched }
  | .ok bytes =>
      match firstMismatch? checker.position bytes with
      | some position => { checker with finish := some (.mismatch position) }
      | none => { checker with position := checker.position + bytes.length }
  | .error fault => { checker with finish := some (.failed fault) }

instance : ReceiveTask PatternChecker where
  call checker :=
    if checker.closed then .done
    else if checker.finish.isSome then .close { checker with closed := true }
    else .receive checker.chunk checker.afterReceive

end PatternChecker

end Pipe

end ByteStreams
