import ByteStreams.Bytes

/-! What can be wrong with run-length frames, and with what is asked of their
encoder. -/

namespace ByteStreams

namespace RunLength

inductive Part
  | indicator
  | lengthExtension
  | runValue
deriving DecidableEq, Repr

def Part.name : Part → String
  | .indicator => "block indicator"
  | .lengthExtension => "run length extension"
  | .runValue => "run value"

inductive Fault
  /-- The bytes end where this part of the frame at `offset` is due. -/
  | truncated (part : Part) (offset : Nat)
  /-- An indicator announces three extension bytes, which no frame has. -/
  | reservedIndicator (indicator : UInt8)
  /-- A frame describes a run of no bytes. -/
  | emptyRun
  /-- No single frame describes a run of `count` bytes. -/
  | invalidRunLength (count longest : Nat)
  /-- The encoder has given up its sink. -/
  | closed
deriving DecidableEq, Repr

def Fault.message : Fault → String
  | .truncated part offset =>
      s!"truncated frame: input ended while reading the {part.name} of the frame at offset {offset}"
  | .reservedIndicator indicator =>
      s!"reserved block indicator 0x{Bytes.hexDigits indicator}"
  | .emptyRun => "run header declares an empty run"
  | .invalidRunLength count longest =>
      s!"invalid run length {count} (must be 1..={longest})"
  | .closed => "encoder closed"

end RunLength

end ByteStreams
