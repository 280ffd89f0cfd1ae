import ByteStreams.Time.Span

/-! What can go wrong at a pipe. -/

namespace ByteStreams

namespace Pipe

inductive Fault
  /-- One of its ends has closed the pipe. -/
  | closed
  /-- A wait was longer than the end allows. -/
  | timeout (allowed : Span)
  /-- A pipe of this capacity could not hold any data. -/
  | invalidCapacity (capacity : Nat)
deriving DecidableEq, Repr

def Fault.message : Fault → String
  | .closed => "pipe closed"
  | .timeout allowed => s!"pipe operation timed out after {allowed.text}"
  | .invalidCapacity capacity =>
      s!"invalid pipe capacity {capacity} (must be at least 1 byte)"

end Pipe

end ByteStreams
