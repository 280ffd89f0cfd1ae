import ByteStreams.Number.ByteOrder

/-!
The signal byte, and the indicator that follows it.

The top two bits of an indicator count the extension bytes of a run's length, its
low six bits are the most significant digits of that length. Three extension bytes
do not occur, which leaves those indicators free: one of them is the escape.
-/

namespace ByteStreams

namespace RunLength

open LittleEndian (weight weight_zero weight_succ)

def defaultSignal : UInt8 := 0xE2

def escape : UInt8 := 0xFF

/-- The longest run that one frame describes: 22 bits of length. -/
def longestRun : Nat := 0x3FFFFF

def longestShortRun : Nat := 0x3F

def longestMediumRun : Nat := 0x3FFF

/-- How many extension bytes an indicator announces; none if it is reserved. -/
def extensionLength? (indicator : UInt8) : Option Nat :=
  let top := indicator.toNat / 64
  if top < 3 then some top else none

def lengthBits (indicator : UInt8) : Nat := indicator.toNat % 64

def extensionLengthFor (count : Nat) : Nat :=
  if count ≤ longestShortRun then 0
  else if count ≤ longestMediumRun then 1
  else 2

/-- The indicator of a run of `count` bytes with so many extension bytes. -/
def indicatorFor (extension count : Nat) : UInt8 :=
  UInt8.ofNat (64 * extension + count / weight extension)

example : extensionLength? escape = none := by decide

example : indicatorFor 1 8192 = 0x60 := by decide

theorem extensionLengthFor_le_two (count : Nat) : extensionLengthFor count ≤ 2 := by
  unfold extensionLengthFor
  split <;> try split
  all_goals omega

theorem high_bits_lt {count : Nat} (small : count ≤ longestRun) :
    count / weight (extensionLengthFor count) < 64 := by
  unfold extensionLengthFor longestShortRun longestMediumRun
  unfold longestRun at small
  split
  · rw [weight_zero]
    omega
  · split
    · rw [weight_succ 0, weight_zero]
      omega
    · rw [weight_succ 1, weight_succ 0, weight_zero]
      omega

theorem indicatorFor_toNat {count : Nat} (small : count ≤ longestRun) :
    (indicatorFor (extensionLengthFor count) count).toNat =
      64 * extensionLengthFor count + count / weight (extensionLengthFor count) := by
  have high := high_bits_lt small
  have few := extensionLengthFor_le_two count
  simp only [indicatorFor, UInt8.toNat_ofNat']
  generalize count / weight (extensionLengthFor count) = digit at high ⊢
  omega

@[simp] theorem extensionLength?_indicatorFor {count : Nat}
    (small : count ≤ longestRun) :
    extensionLength? (indicatorFor (extensionLengthFor count) count) =
      some (extensionLengthFor count) := by
  have high := high_bits_lt small
  have few := extensionLengthFor_le_two count
  simp only [extensionLength?, indicatorFor_toNat small]
  generalize count / weight (extensionLengthFor count) = digit at high ⊢
  have top : (64 * extensionLengthFor count + digit) / 64 = extensionLengthFor count := by
    omega
  rw [top]
  exact if_pos (by omega)

@[simp] theorem lengthBits_indicatorFor {count : Nat} (small : count ≤ longestRun) :
    lengthBits (indicatorFor (extensionLengthFor count) count) =
      count / weight (extensionLengthFor count) := by
  have high := high_bits_lt small
  simp only [lengthBits, indicatorFor_toNat small]
  generalize count / weight (extensionLengthFor count) = digit at high ⊢
  omega

end RunLength

end ByteStreams
