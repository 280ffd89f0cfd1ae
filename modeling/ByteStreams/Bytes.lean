/-! Byte strings, the data that every stream of this library carries. -/

namespace ByteStreams

abbrev Bytes := List UInt8

namespace Bytes

def longestBuffer : Nat := 0x7FFFFFFFFFFFFFFF

/-- The bytes of pieces, last piece first. A piece alone is taken as it is. -/
def join : (pieces : List Bytes) → Bytes
  | [piece] => piece
  | pieces => pieces.reverse.flatten

theorem join_eq (pieces : List Bytes) : join pieces = pieces.reverse.flatten := by
  unfold join
  split
  · simp
  · rfl

def hexDigits (byte : UInt8) : String :=
  String.ofList [Nat.digitChar (byte.toNat / 16), Nat.digitChar (byte.toNat % 16)]

example : hexDigits 0xE2 = "e2" := by decide +kernel

end Bytes

end ByteStreams
