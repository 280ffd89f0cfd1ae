import ByteStreams.Number.ByteOrder

/-!
Signed numbers as two's complement.

Words of up to 64 bits are extended by shifting their sign bit to the top and
back. Integers of any size are written with their most significant byte first, in
the fewest bytes that leave room for a sign bit.
-/

namespace ByteStreams

namespace TwosComplement

/-! ## Words -/

/-- How far the lowest `width` bytes of a 64-bit word have to move to end at the
top of the word. -/
def signShift (width : Nat) : Nat := 64 - 8 * width

/-- Read the lowest `width` bytes of a word as a signed number. No bytes read as
zero. -/
def signExtend (width : Nat) (word : UInt64) : Int64 :=
  if width = 0 then
    0
  else
    let shift := UInt64.ofNat (signShift width)
    (word <<< shift).toInt64 >>> shift.toInt64

example : signExtend 1 0xFF = -1 := by decide

example : signExtend 3 0x7FFFFF = 8388607 := by decide

example : signExtend 8 0x8000000000000000 = -9223372036854775808 := by decide

/-! ## Integers of any size -/

/-- The number of binary digits of a natural number; zero has none. -/
def binaryDigits (number : Nat) : Nat :=
  if number = 0 then 0 else number.log2 + 1

/-- The magnitude that decides how much room an integer takes: a negative number
reaches one further than a positive one of the same width. -/
def reach (number : Int) : Nat :=
  match number with
  | .ofNat magnitude => magnitude
  | .negSucc magnitude => magnitude

def minimalWidth (number : Int) : Nat := binaryDigits (reach number) / 8 + 1

def encodeIn (width : Nat) (number : Int) : Bytes :=
  ByteOrder.big.encodeMany width (number % LittleEndian.weight width).toNat

/-- An integer in its fewest bytes, most significant byte first. -/
def encode (number : Int) : Bytes := encodeIn (minimalWidth number) number

def isNegative (bytes : Bytes) : Bool :=
  match bytes with
  | [] => false
  | top :: _ => 0x80 ≤ top

/-- The integer that bytes stand for, most significant byte first; the top bit is the
sign. No bytes stand for zero. Bytes at the front that only repeat the sign are left
out before anything is computed, however many there are. -/
def value (bytes : Bytes) : Int :=
  if isNegative bytes then
    .negSucc (ByteOrder.big.valueOfMany ((bytes.dropWhile (· = 0xFF)).map (0xFF - ·)))
  else
    .ofNat (ByteOrder.big.valueOfMany (bytes.dropWhile (· = 0)))

theorem big_value_dropWhile_zero (bytes : Bytes) :
    ByteOrder.big.value (bytes.dropWhile (· = 0)) = ByteOrder.big.value bytes := by
  induction bytes with
  | nil => rfl
  | cons top rest induction =>
      by_cases zero : top = 0 <;> simp [zero, induction, ByteOrder.big_value_cons]

/-- A number and the one with all its bits turned round make up all ones. -/
theorem big_value_turned (bytes : Bytes) :
    ByteOrder.big.value ((bytes.dropWhile (· = 0xFF)).map (0xFF - ·)) + 1 +
      ByteOrder.big.value bytes = LittleEndian.weight bytes.length := by
  have plain (bytes : Bytes) : ByteOrder.big.value (bytes.map (0xFF - ·)) + 1 +
      ByteOrder.big.value bytes = LittleEndian.weight bytes.length := by
    induction bytes with
    | nil => rfl
    | cons top rest induction =>
        have small := top.toNat_lt
        have turned : (0xFF - top).toNat = 255 - top.toNat := by
          have top_le : top ≤ 0xFF := UInt8.le_iff_toNat_le.mpr (Nat.le_of_lt_succ small)
          rw [UInt8.toNat_sub_of_le _ _ top_le]
          rfl
        simp only [List.map_cons, ByteOrder.big_value_cons, List.length_map, List.length_cons,
          LittleEndian.weight_succ, turned]
        have sum : (255 - top.toNat) * LittleEndian.weight rest.length +
            top.toNat * LittleEndian.weight rest.length =
              255 * LittleEndian.weight rest.length := by
          rw [← Nat.add_mul]
          congr 1
          omega
        omega
  induction bytes with
  | nil => rfl
  | cons top rest induction =>
      by_cases ones : top = 0xFF
      · subst ones
        simp only [List.dropWhile_cons, decide_true, if_true, ByteOrder.big_value_cons,
          List.length_cons, LittleEndian.weight_succ]
        have all : (0xFF : UInt8).toNat = 255 := rfl
        rw [all]
        omega
      · have stays : (top :: rest).dropWhile (· = 0xFF) = top :: rest := by
          simp [ones]
        rw [stays]
        exact plain _

theorem encodeIn_eq (width : Nat) (number : Int) :
    encodeIn width number =
      ByteOrder.big.encode width (number % LittleEndian.weight width).toNat :=
  ByteOrder.encodeMany_eq_encode ..

theorem value_eq (bytes : Bytes) :
    value bytes = (ByteOrder.big.value bytes : Int).bmod (LittleEndian.weight bytes.length) := by
  unfold value
  simp only [ByteOrder.valueOfMany_eq_value]
  cases bytes with
  | nil => rfl
  | cons top rest =>
      have small := top.toNat_lt
      have below := ByteOrder.value_lt .big rest
      have whole := ByteOrder.big_value_cons top rest
      have width := LittleEndian.weight_succ rest.length
      have turned := big_value_turned (top :: rest)
      rw [big_value_dropWhile_zero]
      rw [List.length_cons] at turned ⊢
      generalize ByteOrder.big.value (((top :: rest).dropWhile (· = 0xFF)).map (0xFF - ·)) =
        turnedValue at *
      generalize ByteOrder.big.value (top :: rest) = number at *
      generalize LittleEndian.weight (rest.length + 1) = range at *
      have sign : isNegative (top :: rest) = decide (128 ≤ top.toNat) := by
        simp only [isNegative, UInt8.le_iff_toNat_le]
        rfl
      by_cases high : 128 ≤ top.toNat
      · have half : 128 * LittleEndian.weight rest.length ≤
            top.toNat * LittleEndian.weight rest.length := Nat.mul_le_mul_right _ high
        rw [sign, if_pos (by simpa using high), Int.bmod_def]
        have inside : (number : Int) % range = number := Int.emod_eq_of_lt (by omega) (by omega)
        rw [inside, if_neg (by omega)]
        omega
      · have half : (top.toNat + 1) * LittleEndian.weight rest.length ≤
            128 * LittleEndian.weight rest.length := Nat.mul_le_mul_right _ (by omega)
        rw [Nat.add_mul] at half
        rw [sign, if_neg (by simpa using high), Int.bmod_def]
        have inside : (number : Int) % range = number := Int.emod_eq_of_lt (by omega) (by omega)
        rw [inside, if_pos (by omega)]
        rfl

example : encode 0 = [0] := by decide +kernel

example : encode 127 = [0x7F] := by decide +kernel

example : encode 128 = [0, 0x80] := by decide +kernel

example : encode (-128) = [0x80] := by decide +kernel

example : encode (-129) = [0xFF, 0x7F] := by decide +kernel

example : value [] = 0 := by decide +kernel

example : value [0xFF, 0xFF, 0x7F] = -129 := by decide +kernel

end TwosComplement

end ByteStreams
