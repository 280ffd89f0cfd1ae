import Mathlib.Algebra.GroupWithZero.Nat
import ByteStreams.Proofs.Number.TwosComplement
import ByteStreams.Proofs.RunLength.Feeding
import ByteStreams.Proofs.RunLength.RunCode

/-! # The layout of a run

The length of a run is cut by shifts into the low bits of an indicator and its extension
bytes. No bit is lost, for every length that one frame can describe, and so the frames of
a run can be taken off again, whatever stands before and after them.
-/

namespace ByteStreams

open LittleEndian (weight weight_zero weight_succ)

/-! ## Digits by shifts -/

theorem LittleEndian.div_weight (number position : Nat) :
    number / weight position = number >>> (8 * position) := by
  rw [TwosComplement.weight_eq_pow, Nat.shiftRight_eq_div_pow]

theorem LittleEndian.encode_eq_shifts (width number : Nat) :
    LittleEndian.encode width number =
      (List.range width).map fun position => UInt8.ofNat (number >>> (8 * position)) := by
  induction width generalizing number with
  | zero => rfl
  | succ width induction =>
      have later (position : Nat) :
          (number / 256) >>> (8 * position) = number >>> (8 * (position + 1)) := by
        rw [← div_weight, ← div_weight, weight_succ, Nat.div_div_eq_div_mul]
      rw [LittleEndian.encode, induction, List.range_succ_eq_map, List.map_cons, List.map_map]
      simp only [later, Function.comp_def, Nat.mul_zero, Nat.shiftRight_zero]

theorem ByteOrder.big_encode_eq_shifts (width number : Nat) :
    ByteOrder.big.encode width number =
      (List.range width).reverse.map fun position =>
        UInt8.ofNat (number >>> (8 * position)) := by
  rw [ByteOrder.encode, ByteOrder.arrange, LittleEndian.encode_eq_shifts, List.map_reverse]

theorem ByteOrder.foldl_shift (digits : Bytes) (high : Nat) :
    digits.foldl (fun total digit => total <<< 8 ||| digit.toNat) high =
      high * weight digits.length + ByteOrder.big.value digits := by
  induction digits generalizing high with
  | nil => simp [weight_zero, ByteOrder.value, ByteOrder.arrange, LittleEndian.value]
  | cons digit digits induction =>
      have joined : high <<< 8 ||| digit.toNat = high * 256 + digit.toNat := by
        rw [← Nat.shiftLeft_add_eq_or_of_lt digit.toNat_lt, Nat.shiftLeft_eq]
      rw [List.foldl_cons, induction, joined, ByteOrder.big_value_cons, List.length_cons,
        weight_succ, Nat.add_mul, Nat.mul_assoc, Nat.add_assoc]

namespace RunLength

/-! ## Indicators by shifts -/

theorem toNat_topBits (indicator : UInt8) : (indicator >>> 6).toNat = indicator.toNat / 64 := by
  rw [UInt8.toNat_shiftRight, Nat.shiftRight_eq_div_pow]
  rfl

theorem lengthBits_eq (indicator : UInt8) : lengthBits indicator = (indicator &&& 0x3F).toNat := by
  rw [UInt8.toNat_and, lengthBits]
  exact (Nat.and_two_pow_sub_one_eq_mod indicator.toNat 6).symm

private theorem toNat_shiftLeft_six : ∀ top < 4, (UInt8.ofNat top <<< 6).toNat = top <<< 6 := by
  decide

theorem indicatorFor_eq_or {count : Nat} (small : count ≤ longestRun) :
    indicatorFor (extensionLengthFor count) count =
      (UInt8.ofNat (extensionLengthFor count) <<< 6) |||
        UInt8.ofNat (count >>> (8 * extensionLengthFor count)) := by
  have high := high_bits_lt small
  have few := extensionLengthFor_le_two count
  rw [LittleEndian.div_weight] at high
  have digits : (UInt8.ofNat (count >>> (8 * extensionLengthFor count))).toNat =
      count >>> (8 * extensionLengthFor count) :=
    UInt8.toNat_ofNat_of_lt' (Nat.lt_trans high (by decide))
  apply UInt8.toNat_inj.mp
  rw [indicatorFor_toNat small, UInt8.toNat_or, toNat_shiftLeft_six _ (by omega), digits,
    ← Nat.shiftLeft_add_eq_or_of_lt high, Nat.shiftLeft_eq, LittleEndian.div_weight,
    Nat.mul_comm 64]

theorem prefix_indicatorFor {count : Nat} (small : count ≤ longestRun) :
    indicatorFor (extensionLengthFor count) count >>> 6 =
      UInt8.ofNat (extensionLengthFor count) := by
  have high := high_bits_lt small
  have few := extensionLengthFor_le_two count
  apply UInt8.toNat_inj.mp
  rw [toNat_topBits, indicatorFor_toNat small, UInt8.toNat_ofNat']
  generalize count / weight (extensionLengthFor count) = digit at high ⊢
  omega

theorem runLength_eq_foldl (indicator : UInt8) (extension : Bytes) :
    Frame.runLength indicator extension =
      extension.foldl (fun total byte => total <<< 8 ||| byte.toNat)
        (indicator &&& 0x3F).toNat := by
  rw [ByteOrder.foldl_shift, ← lengthBits_eq]
  rfl

/-- An indicator and the bytes after it hold the bits of a length, all of them and in
order, and say how many bytes there are. -/
structure LaidOut (count : Nat) (indicator : UInt8) (extension : Bytes) : Prop where
  length : extension.length = extensionLengthFor count
  highFits : count >>> (8 * extensionLengthFor count) < 64
  indicator_eq : indicator = (UInt8.ofNat (extensionLengthFor count) <<< 6) |||
    UInt8.ofNat (count >>> (8 * extensionLengthFor count))
  extension_eq : extension = (List.range (extensionLengthFor count)).reverse.map fun position =>
    UInt8.ofNat (count >>> (8 * position))
  top : indicator >>> 6 = UInt8.ofNat (extensionLengthFor count)
  announced : extensionLength? indicator = some (extensionLengthFor count)
  notEscape : indicator ≠ escape
  rebuilt : extension.foldl (fun total byte => total <<< 8 ||| byte.toNat)
    (indicator &&& 0x3F).toNat = count

theorem laidOut_of_fit {count : Nat} (small : count ≤ longestRun) :
    LaidOut count (indicatorFor (extensionLengthFor count) count)
      (ByteOrder.big.encode (extensionLengthFor count) count) where
  length := ByteOrder.length_encode ..
  highFits := by
    rw [← LittleEndian.div_weight]
    exact high_bits_lt small
  indicator_eq := indicatorFor_eq_or small
  extension_eq := ByteOrder.big_encode_eq_shifts ..
  top := prefix_indicatorFor small
  announced := extensionLength?_indicatorFor small
  notEscape := Frame.ne_escape_of_announced (extensionLength?_indicatorFor small)
  rebuilt := by rw [← runLength_eq_foldl, runLength_indicatorFor small]

/-! ## Frames of a run -/

def Frame.value : Frame → UInt8
  | .literal byte => byte
  | .run value _ => value

/-- Frames that can be taken off the front of a buffer one after another, and what they
leave of it. -/
inductive Takes (signal : UInt8) : (buffer : Bytes) → List Frame → (rest : Bytes) → Prop
  | nil (buffer : Bytes) : Takes signal buffer [] buffer
  | cons {buffer middle rest : Bytes} {frame : Frame} {frames : List Frame}
      (first : takeFrame signal buffer = (.ok (some frame), middle))
      (others : Takes signal middle frames rest) : Takes signal buffer (frame :: frames) rest

variable {signal value : UInt8} {frames : List Frame} {code : Bytes} {count : Nat}

theorem Spells.takes (spells : Spells signal frames code) (more : Bytes) :
    Takes signal (code ++ more) frames more := by
  induction spells with
  | nil => exact .nil more
  | @cons frame frames code rest first others induction =>
      rw [List.append_assoc]
      exact .cons (first.takeFrame_append (rest ++ more)) induction

theorem Spells.length_pos (spells : Spells signal frames code) :
    ∀ frame ∈ frames, 1 ≤ frame.length := by
  induction spells with
  | nil => simp
  | cons first others induction => exact List.forall_mem_cons.mpr ⟨first.length_pos, induction⟩

theorem sum_length_eq (frames : List Frame) :
    (frames.map Frame.length).sum = (expand frames).length := by
  simp only [expand, List.length_flatMap, Frame.length_expand]

theorem Frame.value_mem_expand {frame : Frame} (some' : 1 ≤ frame.length) :
    frame.value ∈ frame.expand := by
  cases frame with
  | literal byte => exact List.mem_singleton_self byte
  | run value count => exact List.mem_replicate.mpr ⟨Nat.ne_of_gt some', rfl⟩

theorem Spells.value_eq (spells : Spells signal frames code)
    (expansion : expand frames = List.replicate count value) :
    ∀ frame ∈ frames, frame.value = value := by
  intro frame member
  have inside : frame.value ∈ expand frames :=
    List.mem_flatMap_of_mem member (Frame.value_mem_expand (spells.length_pos frame member))
  rw [expansion] at inside
  exact List.eq_of_mem_replicate inside

theorem shortestRun_of_long {signal value : UInt8} {count : Nat}
    (long : 2 < count ∨ count = 2 ∧ value = signal) :
    shortestRun signal value count = headedRun signal value count := by
  unfold shortestRun
  rw [if_neg (by omega), if_neg]
  rintro ⟨two, other⟩
  rcases long with long | ⟨-, same⟩
  · omega
  · exact other same

theorem putRun_of_unfit (unfit : count = 0 ∨ longestRun < count) (buffer : Bytes) :
    putRun signal value count buffer =
      (.error (.invalidRunLength count longestRun), buffer) := by
  rw [putRun, encodeRun, if_pos unfit]

theorem putRun_of_fit (some' : 0 < count) (small : count ≤ longestRun) (buffer : Bytes) :
    putRun signal value count buffer = (.ok (), buffer ++ shortestRun signal value count) := by
  rw [putRun, encodeRun, if_neg (by omega)]

/-- A run that one frame can describe is added to whatever a buffer holds as frames that
can be taken off again, whatever comes after them: they are frames of its value, their
lengths add up to its length, and nothing else is taken. A length that is written out
loses no bit to the shifts. Any other run leaves the buffer as it is. -/
theorem putRun_taken_off (signal value : UInt8) (count : Nat) (buffer : Bytes) :
    (count = 0 ∨ longestRun < count →
      putRun signal value count buffer =
        (.error (.invalidRunLength count longestRun), buffer)) ∧
    (1 ≤ count ∧ count ≤ longestRun → ∃ indicator extension code,
      LaidOut count indicator extension ∧
      putRun signal value count buffer = (.ok (), buffer ++ code) ∧
      (2 < count ∨ count = 2 ∧ value = signal →
        code = signal :: indicator :: (extension ++ [value])) ∧
      ∀ more : Bytes, ∃ frames, Takes signal (code ++ more) frames more ∧
        (∀ frame ∈ frames, frame.value = value) ∧ (frames.map Frame.length).sum = count) := by
  refine ⟨fun unfit => putRun_of_unfit unfit buffer, ?_⟩
  rintro ⟨some', small⟩
  refine ⟨_, _, shortestRun signal value count, laidOut_of_fit small,
    putRun_of_fit some' small buffer, shortestRun_of_long, ?_⟩
  intro more
  rcases shortestRun_spells signal value some' small with ⟨frames, spells, expansion⟩
  refine ⟨frames, spells.takes more, spells.value_eq expansion, ?_⟩
  rw [sum_length_eq, expansion, List.length_replicate]

/-- The shortest run whose length needs two bytes of its own. -/
theorem putRun_taken_off_two_extension_bytes :
    (1 ≤ 16384 ∧ 16384 ≤ longestRun) ∧
    putRun 0xE2 0x41 16384 [0xE2] = (.ok (), [0xE2] ++ [0xE2, 0x80, 0x40, 0x00, 0x41]) ∧
    LaidOut 16384 0x80 [0x40, 0x00] ∧
    ∃ frames, Takes 0xE2 ([0xE2, 0x80, 0x40, 0x00, 0x41] ++ [0x41]) frames [0x41] ∧
      (frames.map Frame.length).sum = 16384 := by
  have fits : 1 ≤ 16384 ∧ 16384 ≤ longestRun := by decide
  rcases (putRun_taken_off 0xE2 0x41 16384 [0xE2]).2 fits with
    ⟨indicator, extension, code, laidOut, put, written, taken⟩
  have indicatorIs : indicator = 0x80 := laidOut.indicator_eq
  have extensionIs : extension = [0x40, 0x00] := laidOut.extension_eq
  have codeIs := written (.inl (by decide))
  subst indicatorIs extensionIs codeIs
  rcases taken [0x41] with ⟨frames, takes, -, lengths⟩
  exact ⟨fits, put, laidOut, frames, takes, lengths⟩

end RunLength

end ByteStreams
