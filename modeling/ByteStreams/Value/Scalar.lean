import ByteStreams.Number.TwosComplement

/-!
Values of a fixed width.

A scalar is written as the number that its bits form. Signed numbers are two's
complement, and floating-point numbers are kept as their bits, so that no payload of
a NaN is lost.
-/

namespace ByteStreams

namespace Value

inductive ScalarKind
  | uint8 | int8 | uint16 | int16 | uint32 | int32 | uint64 | int64
  | bool | binary32 | binary64
deriving DecidableEq, Repr

def ScalarKind.width : ScalarKind → Nat
  | .uint8 | .int8 | .bool => 1
  | .uint16 | .int16 => 2
  | .uint32 | .int32 | .binary32 => 4
  | .uint64 | .int64 | .binary64 => 8

inductive Scalar
  | uint8 (value : UInt8)
  | int8 (value : Int8)
  | uint16 (value : UInt16)
  | int16 (value : Int16)
  | uint32 (value : UInt32)
  | int32 (value : Int32)
  | uint64 (value : UInt64)
  | int64 (value : Int64)
  | bool (value : Bool)
  | binary32 (bits : UInt32)
  | binary64 (bits : UInt64)
deriving DecidableEq

namespace Scalar

def kind : Scalar → ScalarKind
  | .uint8 _ => .uint8
  | .int8 _ => .int8
  | .uint16 _ => .uint16
  | .int16 _ => .int16
  | .uint32 _ => .uint32
  | .int32 _ => .int32
  | .uint64 _ => .uint64
  | .int64 _ => .int64
  | .bool _ => .bool
  | .binary32 _ => .binary32
  | .binary64 _ => .binary64

def bits : Scalar → Nat
  | .uint8 value => value.toNat
  | .int8 value => value.toUInt8.toNat
  | .uint16 value => value.toNat
  | .int16 value => value.toUInt16.toNat
  | .uint32 value => value.toNat
  | .int32 value => value.toUInt32.toNat
  | .uint64 value => value.toNat
  | .int64 value => value.toUInt64.toNat
  | .bool value => if value then 1 else 0
  | .binary32 bits => bits.toNat
  | .binary64 bits => bits.toNat

/-- The scalar of a kind whose bits form a number. Every number but zero is the
truth value true. -/
def ofBits : ScalarKind → Nat → Scalar
  | .uint8, bits => .uint8 (UInt8.ofNat bits)
  | .int8, bits => .int8 (UInt8.ofNat bits).toInt8
  | .uint16, bits => .uint16 (UInt16.ofNat bits)
  | .int16, bits => .int16 (UInt16.ofNat bits).toInt16
  | .uint32, bits => .uint32 (UInt32.ofNat bits)
  | .int32, bits => .int32 (UInt32.ofNat bits).toInt32
  | .uint64, bits => .uint64 (UInt64.ofNat bits)
  | .int64, bits => .int64 (UInt64.ofNat bits).toInt64
  | .bool, bits => .bool (bits != 0)
  | .binary32, bits => .binary32 (UInt32.ofNat bits)
  | .binary64, bits => .binary64 (UInt64.ofNat bits)

def encode (order : ByteOrder) (scalar : Scalar) : Bytes :=
  order.encode scalar.kind.width scalar.bits

def decode (order : ByteOrder) (kind : ScalarKind) (bytes : Bytes) : Scalar :=
  ofBits kind (order.value bytes)

example : encode .big (.int16 (-2)) = [0xFF, 0xFE] := by decide

example : decode .little .int16 [0xFE, 0xFF] = .int16 (-2) := by decide

theorem bits_lt (scalar : Scalar) : scalar.bits < LittleEndian.weight scalar.kind.width := by
  cases scalar <;> simp only [bits, kind, ScalarKind.width]
  case uint8 value => exact value.toNat_lt
  case int8 value => exact value.toUInt8.toNat_lt
  case uint16 value => exact value.toNat_lt
  case int16 value => exact value.toUInt16.toNat_lt
  case uint32 value => exact value.toNat_lt
  case int32 value => exact value.toUInt32.toNat_lt
  case uint64 value => exact value.toNat_lt
  case int64 value => exact value.toUInt64.toNat_lt
  case bool value => cases value <;> decide
  case binary32 bits => exact bits.toNat_lt
  case binary64 bits => exact bits.toNat_lt

@[simp] theorem ofBits_bits (scalar : Scalar) : ofBits scalar.kind scalar.bits = scalar := by
  cases scalar <;> simp [ofBits, bits, kind]
  case bool value => cases value <;> rfl

theorem decode_encode (order : ByteOrder) (scalar : Scalar) :
    decode order scalar.kind (encode order scalar) = scalar := by
  have small := Nat.mod_eq_of_lt scalar.bits_lt
  simp [decode, encode, ByteOrder.value_encode, small]

end Scalar

/-! ## Narrow integers -/

inductive NarrowKind
  | unsigned32 | signed32 | unsigned64 | signed64
deriving DecidableEq, Repr

def NarrowKind.bits : NarrowKind → Nat
  | .unsigned32 | .signed32 => 32
  | .unsigned64 | .signed64 => 64

/-- The integer of a kind whose lowest `width` bytes form a word: a signed one
repeats its top bit in the bytes that are missing. -/
def NarrowKind.extend (kind : NarrowKind) (width : Nat) (word : UInt64) : Scalar :=
  match kind with
  | .unsigned32 => .uint32 word.toUInt32
  | .signed32 => .int32 (TwosComplement.signExtend width word).toInt32
  | .unsigned64 => .uint64 word
  | .signed64 => .int64 (TwosComplement.signExtend width word)

def NarrowKind.decode (kind : NarrowKind) (order : ByteOrder) (bytes : Bytes) : Scalar :=
  kind.extend bytes.length (UInt64.ofNat (order.value bytes))

example : NarrowKind.signed32.decode .big [0xFF, 0xFE] = .int32 (-2) := by decide

example : NarrowKind.unsigned32.decode .big [0xFF, 0xFE] = .uint32 0xFFFE := by decide

end Value

end ByteStreams
