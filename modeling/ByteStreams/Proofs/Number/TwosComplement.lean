import ByteStreams.Number.TwosComplement
import Mathlib.Algebra.Group.Nat.Defs

/-! # Two's complement gives numbers back

Extending the sign of a word brings its low bytes into their signed range, and an integer
of any size lies in the signed range of its fewest bytes.
-/

namespace ByteStreams

namespace TwosComplement

open LittleEndian (weight)

theorem weight_eq_pow (width : Nat) : weight width = 2 ^ (8 * width) := by
  rw [Nat.pow_mul]
  rfl

/-! ## Words -/

private theorem toNat_smod_shift : ∀ shift < 64,
    ((BitVec.ofNat 64 shift).smod 64#64).toNat = shift := by
  decide +kernel

/-- Shifting the low bits of a word to its top and back makes them a signed number. -/
private theorem toInt_shifted (word : UInt64) {shift : Nat} (few : shift < 64) :
    ((word <<< UInt64.ofNat shift).toInt64 >>> (UInt64.ofNat shift).toInt64).toInt =
      (word.toNat : Int).bmod (2 ^ (64 - shift)) := by
  have split : (2 : Nat) ^ 64 = 2 ^ shift * 2 ^ (64 - shift) := by
    rw [← Nat.pow_add]
    congr 1
    omega
  have even : 2 ^ 1 ∣ 2 ^ (64 - shift) := Nat.pow_dvd_pow 2 (by omega)
  have positive : 0 < 2 ^ shift := Nat.two_pow_pos shift
  have moved : ((word.toNat <<< shift : Nat) : Int) = ((2 ^ shift : Nat) : Int) * word.toNat := by
    rw [Nat.shiftLeft_eq, Nat.mul_comm]
    exact Int.natCast_mul ..
  have bits : ((word <<< UInt64.ofNat shift).toInt64 >>> (UInt64.ofNat shift).toInt64).toBitVec =
      (word.toBitVec <<< shift).sshiftRight shift := by
    simp [BitVec.sshiftRight_eq', toNat_smod_shift shift few, Nat.mod_eq_of_lt few]
  rw [← Int64.toInt_toBitVec, bits, BitVec.toInt_sshiftRight, BitVec.toInt_shiftLeft,
    UInt64.toNat_toBitVec, moved, split, Int.mod_bmod_mul_of_pos _ _ positive even,
    Int.shiftRight_eq_div_pow, Int.mul_ediv_cancel_left _ (by omega)]

/-- The lowest bytes of a word, read as a signed number. -/
theorem toInt_signExtend {width : Nat} (fits : width ≤ 8) (word : UInt64) :
    (signExtend width word).toInt = (word.toNat : Int).bmod (weight width) := by
  unfold signExtend
  by_cases none' : width = 0
  · subst none'
    have range : weight 0 = 1 := rfl
    rw [if_pos rfl, range, Int.bmod_one]
    rfl
  · have few : signShift width < 64 := by
      unfold signShift
      omega
    have left : 64 - signShift width = 8 * width := by
      unfold signShift
      omega
    rw [if_neg none', weight_eq_pow, ← left]
    exact toInt_shifted word few

/-! ## Integers of any size -/

theorem reach_lt (number : Int) : reach number < 2 ^ binaryDigits (reach number) := by
  unfold binaryDigits
  by_cases none' : reach number = 0
  · rw [if_pos none', none']
    exact Nat.one_pos
  · rw [if_neg none']
    exact Nat.lt_log2_self

theorem minimalWidth_fits (number : Int) :
    -(weight (minimalWidth number) : Int) ≤ number * 2 ∧
      number * 2 < weight (minimalWidth number) := by
  have below := reach_lt number
  have room : 2 ^ binaryDigits (reach number) * 2 ≤ weight (minimalWidth number) := by
    rw [weight_eq_pow, ← Nat.pow_succ]
    apply Nat.pow_le_pow_right Nat.two_pos
    unfold minimalWidth
    omega
  generalize 2 ^ binaryDigits (reach number) = range at below room
  generalize weight (minimalWidth number) = whole at room ⊢
  cases number with
  | ofNat magnitude =>
      simp only [reach] at below
      rw [Int.ofNat_eq_natCast]
      omega
  | negSucc magnitude =>
      simp only [reach] at below
      omega

theorem minimalWidth_bmod_le (number : Nat) {width : Nat} (some' : width ≠ 0) :
    minimalWidth ((number : Int).bmod (weight width)) ≤ width := by
  have half : weight width = 2 ^ (8 * width - 1) * 2 := by
    rw [weight_eq_pow, ← Nat.pow_succ]
    congr 1
    omega
  have positive : 0 < weight width := Nat.pow_pos (by decide)
  have low : -((weight width : Int) / 2) ≤ (number : Int).bmod (weight width) :=
    Int.le_bmod positive
  have high : (number : Int).bmod (weight width) < ((weight width : Int) + 1) / 2 :=
    Int.bmod_lt positive
  generalize (number : Int).bmod (weight width) = integer at low high ⊢
  have below : reach integer < 2 ^ (8 * width - 1) := by
    cases integer with
    | ofNat magnitude =>
        rw [Int.ofNat_eq_natCast] at high
        simp only [reach]
        omega
    | negSucc magnitude =>
        simp only [reach]
        omega
  have few : binaryDigits (reach integer) ≤ 8 * width - 1 := by
    unfold binaryDigits
    split
    · exact Nat.zero_le _
    · rename_i nonzero
      exact (Nat.log2_lt nonzero).mpr below
  unfold minimalWidth
  omega

theorem length_encode (number : Int) : (encode number).length = minimalWidth number := by
  rw [encode, encodeIn_eq, ByteOrder.length_encode]

/-- An integer is read back from its fewest bytes. -/
theorem value_encode (number : Int) : value (encode number) = number := by
  have fits := minimalWidth_fits number
  have positive : (0 : Int) < weight (minimalWidth number) := by
    rw [weight_eq_pow]
    exact Int.natCast_pos.mpr (Nat.two_pow_pos _)
  have low := Int.emod_nonneg number (Int.ne_of_gt positive)
  have high := Int.emod_lt_of_pos number positive
  have same : (number % weight (minimalWidth number)).toNat % weight (minimalWidth number) =
      (number % weight (minimalWidth number)).toNat := Nat.mod_eq_of_lt (by omega)
  rw [encode, encodeIn_eq, value_eq, ByteOrder.value_encode, ByteOrder.length_encode, same,
    Int.toNat_of_nonneg low, Int.emod_bmod]
  exact Int.bmod_eq_of_le_mul_two fits.1 fits.2

end TwosComplement

end ByteStreams
