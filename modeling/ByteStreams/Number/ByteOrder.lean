import ByteStreams.Bytes
import ByteStreams.Number.Digits

/-!
Natural numbers as base-256 digits.

A number and a width give exactly `width` digits, so high digits that do not fit
are lost. The two byte orders hold the same digits, reversed. Reading the digits of
a number back gives the number modulo the weight of the digit that would come next.
-/

namespace ByteStreams

/-! ## Least significant digit first -/

namespace LittleEndian

def weight (position : Nat) : Nat := Nat.pow 256 position

theorem weight_zero : weight 0 = 1 := rfl

theorem weight_succ (position : Nat) : weight (position + 1) = 256 * weight position :=
  Nat.mul_comm _ _

/-- The `width` lowest base-256 digits of a number. -/
def encode : (width : Nat) → (number : Nat) → Bytes
  | 0, _ => []
  | width + 1, number => UInt8.ofNat number :: encode width (number / 256)

def value : Bytes → Nat
  | [] => 0
  | digit :: rest => digit.toNat + 256 * value rest

example : encode 4 0x01020304 = [4, 3, 2, 1] := by decide

example : value [4, 3, 2, 1] = 0x01020304 := by decide

@[simp] theorem length_encode (width number : Nat) :
    (encode width number).length = width := by
  induction width generalizing number with
  | zero => rfl
  | succ width induction => simp [encode, induction]

theorem value_encode (width number : Nat) :
    value (encode width number) = number % weight width := by
  induction width generalizing number with
  | zero => simp [encode, value, weight_zero, Nat.mod_one]
  | succ width induction =>
      have split : number % (256 * weight width) =
          number % 256 + 256 * (number / 256 % weight width) := Nat.mod_mul
      simp only [encode, value, induction, UInt8.toNat_ofNat', weight_succ, split]

theorem value_lt (digits : Bytes) : value digits < weight digits.length := by
  induction digits with
  | nil => simp [value, weight_zero]
  | cons digit rest induction =>
      have small := digit.toNat_lt
      simp only [value, List.length_cons, weight_succ]
      omega

theorem value_append (low high : Bytes) :
    value (low ++ high) = value low + weight low.length * value high := by
  induction low with
  | nil => simp [value, weight_zero]
  | cons digit rest induction =>
      simp only [List.cons_append, value, induction, List.length_cons, weight_succ, Nat.mul_add,
        Nat.mul_assoc, Nat.add_assoc]

theorem encode_value (digits : Bytes) :
    encode digits.length (value digits) = digits := by
  induction digits with
  | nil => rfl
  | cons digit rest induction =>
      have small := digit.toNat_lt
      have high : (digit.toNat + 256 * value rest) / 256 = value rest := by omega
      have low : UInt8.ofNat (digit.toNat + 256 * value rest) = digit := by
        apply UInt8.toNat_inj.mp
        simp only [UInt8.toNat_ofNat']
        omega
      simp [encode, value, high, low, induction]

/-! Numbers of very many digits take other ways to the same ends. -/

def valueOfMany (digits : Bytes) : Nat := Digits.total 256 (digits.map UInt8.toNat)

def encodeMany (width number : Nat) : Bytes :=
  (Digits.write 256 width number).map UInt8.ofNat

theorem valueOfMany_eq_value (digits : Bytes) : valueOfMany digits = value digits := by
  rw [valueOfMany, Digits.total_eq_value]
  induction digits with
  | nil => rfl
  | cons digit rest induction => simp only [List.map_cons, Digits.value, induction, value]

theorem encodeMany_eq_encode (width number : Nat) :
    encodeMany width number = encode width number := by
  rw [encodeMany, Digits.write_eq_ofNumber]
  induction width generalizing number with
  | zero => rfl
  | succ width induction =>
      have low : UInt8.ofNat (number % 256) = UInt8.ofNat number := by
        apply UInt8.toNat_inj.mp
        simp only [UInt8.toNat_ofNat']
        omega
      simp only [Digits.ofNumber, List.map_cons, low, induction, encode]

end LittleEndian

/-! ## Both orders -/

inductive ByteOrder
  /-- The most significant digit comes first. -/
  | big
  /-- The least significant digit comes first. -/
  | little
deriving DecidableEq, Repr

namespace ByteOrder

def native : ByteOrder := .little

/-- Bring digits that come least significant first into this order, or back. -/
def arrange : ByteOrder → Bytes → Bytes
  | .big, digits => digits.reverse
  | .little, digits => digits

@[simp] theorem length_arrange (order : ByteOrder) (digits : Bytes) :
    (order.arrange digits).length = digits.length := by
  cases order <;> simp [arrange]

@[simp] theorem arrange_arrange (order : ByteOrder) (digits : Bytes) :
    order.arrange (order.arrange digits) = digits := by
  cases order <;> simp [arrange]

def encode (order : ByteOrder) (width number : Nat) : Bytes :=
  order.arrange (LittleEndian.encode width number)

def value (order : ByteOrder) (digits : Bytes) : Nat :=
  LittleEndian.value (order.arrange digits)

example : ByteOrder.big.encode 2 0x0102 = [1, 2] := by decide

example : ByteOrder.little.encode 2 0x0102 = [2, 1] := by decide

@[simp] theorem length_encode (order : ByteOrder) (width number : Nat) :
    (order.encode width number).length = width := by
  simp [encode]

theorem value_encode (order : ByteOrder) (width number : Nat) :
    order.value (order.encode width number) = number % LittleEndian.weight width := by
  simp [value, encode, LittleEndian.value_encode]

theorem value_lt (order : ByteOrder) (digits : Bytes) :
    order.value digits < LittleEndian.weight digits.length := by
  simpa [value] using LittleEndian.value_lt (order.arrange digits)

theorem encode_value (order : ByteOrder) (digits : Bytes) :
    order.encode digits.length (order.value digits) = digits := by
  have digitsBack := LittleEndian.encode_value (order.arrange digits)
  rw [length_arrange] at digitsBack
  simp [encode, value, digitsBack]

theorem big_value_cons (digit : UInt8) (rest : Bytes) :
    ByteOrder.big.value (digit :: rest) =
      digit.toNat * LittleEndian.weight rest.length + ByteOrder.big.value rest := by
  simp only [value, arrange, List.reverse_cons, LittleEndian.value_append, LittleEndian.value,
    List.length_reverse, Nat.mul_zero, Nat.add_zero]
  rw [Nat.mul_comm, Nat.add_comm]

/-- The same as `value`, for very many digits. -/
def valueOfMany (order : ByteOrder) (digits : Bytes) : Nat :=
  LittleEndian.valueOfMany (order.arrange digits)

def encodeMany (order : ByteOrder) (width number : Nat) : Bytes :=
  order.arrange (LittleEndian.encodeMany width number)

theorem valueOfMany_eq_value (order : ByteOrder) (digits : Bytes) :
    order.valueOfMany digits = order.value digits :=
  LittleEndian.valueOfMany_eq_value _

theorem encodeMany_eq_encode (order : ByteOrder) (width number : Nat) :
    order.encodeMany width number = order.encode width number := by
  rw [encodeMany, LittleEndian.encodeMany_eq_encode, encode]

theorem encode_little_eq_reverse (width number : Nat) :
    ByteOrder.little.encode width number =
      (ByteOrder.big.encode width number).reverse := by
  simp [encode, arrange]

end ByteOrder

end ByteStreams
