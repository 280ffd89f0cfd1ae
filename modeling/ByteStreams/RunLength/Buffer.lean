import ByteStreams.RunLength.Frame

/-!
Frames on a buffer.

A buffer grows at its end, by code that arrives or by runs that are encoded, and frames
are taken off its front. What fails, or finds no whole frame, leaves the buffer as it is.
-/

namespace ByteStreams

namespace RunLength

/-- Add the code of a run to a buffer, unless no single frame describes the run. -/
def putRun (signal value : UInt8) (count : Nat) (buffer : Bytes) : Except Fault Unit × Bytes :=
  match encodeRun signal value count with
  | .error fault => (.error fault, buffer)
  | .ok code => (.ok (), buffer ++ code)

/-- Take the frame at the front of a buffer off it, if there is a whole one. -/
def takeFrame (signal : UInt8) (buffer : Bytes) : Except Fault (Option Frame) × Bytes :=
  match Frame.parse signal buffer with
  | .frame frame _ rest => (.ok (some frame), rest)
  | .incomplete => (.ok none, buffer)
  | .malformed fault => (.error fault, buffer)

example : takeFrame 0xE2 [0xE2, 0x05, 0x41, 0x42] = (.ok (some (.run 0x41 5)), [0x42]) := by
  cbv

end RunLength

end ByteStreams
