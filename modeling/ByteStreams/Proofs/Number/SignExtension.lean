import ByteStreams.Proofs.Number.TwosComplement
import Mathlib.Algebra.Group.Int.Defs

/-! # Extending a sign

The lowest bytes of a word, extended, are the one number of their signed range that the word
agrees with on these bytes. No shift of the extension ever reaches the width of the word.
-/

namespace ByteStreams

namespace TwosComplement

open LittleEndian (weight)

/-- A number agrees with another on its lowest `width` bytes, and lies in their signed range.
Twice the number is compared, so that the range of no bytes is zero alone. -/
structure SignedLow (width : Nat) (number signed : Int) : Prop where
  low : -(2 ^ (8 * width)) ≤ 2 * signed
  high : 2 * signed < 2 ^ (8 * width)
  congruent : 2 ^ (8 * width) ∣ signed - number

theorem signedLow_iff {width : Nat} {number signed : Int} :
    SignedLow width number signed ↔ signed = number.bmod (weight width) := by
  have positive : 0 < weight width := Nat.pow_pos (by decide)
  have range : ((weight width : Nat) : Int) = 2 ^ (8 * width) := by
    rw [weight_eq_pow, Int.natCast_pow]
    rfl
  rw [eq_comm, Int.bmod_eq_iff positive, range]
  constructor
  · rintro ⟨low, high, congruent⟩
    exact ⟨by omega, by omega, congruent⟩
  · rintro ⟨low, high, congruent⟩
    exact ⟨by omega, by omega, congruent⟩

theorem signedLow_signExtend {width : Nat} (fits : width ≤ 8) (word : UInt64) :
    SignedLow width word.toNat (signExtend width word).toInt :=
  signedLow_iff.mpr (toInt_signExtend fits word)

theorem toInt_toInt32_signExtend {width : Nat} (few : width ≤ 4) (word : UInt64) :
    (signExtend width word).toInt32.toInt = (signExtend width word).toInt := by
  have extended := signedLow_signExtend (by omega : width ≤ 8) word
  have within : (2 : Int) ^ (8 * width) ≤ 2 ^ 32 := by
    exact_mod_cast Nat.pow_le_pow_right Nat.two_pos (by omega : 8 * width ≤ 32)
  have low := extended.low
  have high := extended.high
  rw [Int64.toInt_toInt32]
  apply Int.bmod_eq_of_le_mul_two
  · omega
  · omega

/-! ## Shifts -/

def shiftUp? (shift : Nat) (word : UInt64) : Option UInt64 :=
  if shift < 64 then some (word <<< UInt64.ofNat shift) else none

def shiftDown? (shift : Nat) (number : Int64) : Option Int64 :=
  if shift < 64 then some (number >>> (UInt64.ofNat shift).toInt64) else none

/-- Extend the sign of the lowest `width` bytes, and give up at a difference below zero or a
shift by the whole width of the word. -/
def signExtend? (width : Nat) (word : UInt64) : Option Int64 :=
  if width = 0 then
    some 0
  else if 64 < 8 * width then
    none
  else
    (shiftUp? (signShift width) word).bind fun top => shiftDown? (signShift width) top.toInt64

/-- No width that a word has leads to a shift by the width of the word. -/
theorem signExtend?_eq {width : Nat} (fits : width ≤ 8) (word : UInt64) :
    signExtend? width word = some (signExtend width word) := by
  unfold signExtend? signExtend
  by_cases none' : width = 0
  · rw [if_pos none', if_pos none']
  · have few : signShift width < 64 := by
      unfold signShift
      omega
    rw [if_neg none', if_neg none', if_neg (by omega), shiftUp?, if_pos few, Option.bind_some,
      shiftDown?, if_pos few]

example : signExtend? 0 0xFF = some 0 := rfl

example : shiftUp? (signShift 0) 0xFF = none := rfl

end TwosComplement

end ByteStreams
