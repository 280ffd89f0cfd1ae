import Mathlib.Tactic.SplitIfs
import ByteStreams.Proofs.RunLength.RunCode

/-! # No code is shorter than the encoder's

Every whole frame is at least as long as the shortest code of the run that it stands
for, and putting a run before a string lengthens the string's code by no more than
that shortest code. So the frames of any code that stands for a string are together
at least as long as what the encoder writes.
-/

namespace ByteStreams

namespace RunLength

open LittleEndian (weight weight_zero weight_succ)

/-! ## The cost of a run -/

def runCost (signal value : UInt8) (count : Nat) : Nat :=
  (shortestRun signal value count).length

private theorem runCost_eq (signal value : UInt8) (count : Nat) :
    runCost signal value count =
      if count = 1 then (if value = signal then 2 else 1)
      else if count = 2 ∧ value ≠ signal then 2
      else 3 + extensionLengthFor count := by
  unfold runCost shortestRun headedRun
  split
  · split <;> rfl
  · split
    · rfl
    · simp only [List.length_cons, List.length_append, ByteOrder.length_encode,
        List.length_nil]
      omega

private theorem extensionLengthFor_le_succ (count : Nat) :
    extensionLengthFor count ≤ extensionLengthFor (count + 1) ∧
      extensionLengthFor (count + 1) ≤ extensionLengthFor count + 1 := by
  unfold extensionLengthFor longestShortRun longestMediumRun
  split_ifs <;> omega

/-- One byte more costs at most one byte more, and never less. -/
theorem runCost_succ (signal value : UInt8) {count : Nat} (some' : 0 < count) :
    runCost signal value count ≤ runCost signal value (count + 1) ∧
      runCost signal value (count + 1) ≤ runCost signal value count + 1 := by
  have step := extensionLengthFor_le_succ count
  have first : extensionLengthFor 2 = 0 ∧ extensionLengthFor 3 = 0 := by decide
  rw [runCost_eq, runCost_eq]
  by_cases same : value = signal
  · by_cases one : count = 1
    · subst one
      simp [same, first.1]
    · simp only [one, same, if_false, ne_eq, not_true_eq_false, and_false]
      split <;> omega
  · by_cases one : count = 1
    · subst one
      simp [same]
    · by_cases two : count = 2
      · subst two
        simp [same, first.2]
      · have notOne : count + 1 ≠ 1 := by omega
        have notTwo : count + 1 ≠ 2 := by omega
        simp only [one, two, notOne, notTwo, if_false, false_and]
        omega

private theorem runCost_add_two_le (signal value : UInt8) {count : Nat} (some' : 0 < count) :
    runCost signal value (count + 2) ≤ runCost signal value count + 2 :=
  Nat.le_trans (runCost_succ signal value (Nat.succ_pos count)).2
    (Nat.succ_le_succ (runCost_succ signal value some').2)

theorem runCost_mono (signal value : UInt8) {fewer more : Nat} (some' : 0 < fewer)
    (le : fewer ≤ more) : runCost signal value fewer ≤ runCost signal value more := by
  induction le with
  | refl => exact Nat.le_refl _
  | @step more le induction =>
      exact Nat.le_trans induction (runCost_succ signal value (Nat.lt_of_lt_of_le some' le)).1

theorem runCost_le_five (signal value : UInt8) (count : Nat) :
    runCost signal value count ≤ 5 := by
  have few := extensionLengthFor_le_two count
  rw [runCost_eq]
  split_ifs <;> omega

private theorem three_le_runCost (signal value : UInt8) {count : Nat} (many : 3 ≤ count) :
    3 ≤ runCost signal value count := by
  rw [runCost_eq, if_neg (by omega), if_neg (by omega)]
  omega

private theorem runCost_of_long (signal value : UInt8) {count : Nat}
    (long : longestMediumRun < count) : runCost signal value count = 5 := by
  have two : extensionLengthFor count = 2 := by
    unfold extensionLengthFor
    rw [if_neg, if_neg (by omega)]
    unfold longestShortRun longestMediumRun at *
    omega
  unfold longestMediumRun at long
  rw [runCost_eq, if_neg (by omega), if_neg (by omega), two]

theorem runCost_add_le (signal value : UInt8) {left right : Nat} (someLeft : 0 < left)
    (someRight : 0 < right) :
    runCost signal value (left + right) ≤
      runCost signal value left + runCost signal value right := by
  have most := runCost_le_five signal value (left + right)
  have one : 1 ≤ runCost signal value 1 := by
    rw [runCost_eq]
    split_ifs <;> omega
  have two : 2 ≤ runCost signal value 2 := by
    rw [runCost_eq]
    split_ifs <;> omega
  -- Two parts of three bytes or more cost six; otherwise one part is one or two bytes.
  by_cases bothLong : 3 ≤ left ∧ 3 ≤ right
  · have leftCost := three_le_runCost signal value bothLong.1
    have rightCost := three_le_runCost signal value bothLong.2
    omega
  · have short : left = 1 ∨ left = 2 ∨ right = 1 ∨ right = 2 := by omega
    rcases short with rfl | rfl | rfl | rfl
    · have step := (runCost_succ signal value someRight).2
      rw [Nat.add_comm 1 right]
      omega
    · have steps := runCost_add_two_le signal value someRight
      rw [Nat.add_comm 2 right]
      omega
    · have step := (runCost_succ signal value someLeft).2
      omega
    · have steps := runCost_add_two_le signal value someLeft
      omega

private theorem runCost_excess_le (signal value : UInt8) {left right excess : Nat}
    (leftFits : left ≤ longestRun) (rightFits : right ≤ longestRun) (someExcess : 0 < excess)
    (sum : left + right = longestRun + excess) :
    runCost signal value longestRun + runCost signal value excess ≤
      runCost signal value left + runCost signal value right := by
  have longest : runCost signal value longestRun = 5 :=
    runCost_of_long signal value (by decide)
  have half : longestMediumRun + longestMediumRun < longestRun := by decide
  by_cases leftLong : longestMediumRun < left
  · have leftCost := runCost_of_long signal value leftLong
    have rightCost := runCost_mono signal value someExcess (show excess ≤ right by omega)
    omega
  · have rightCost := runCost_of_long signal value (show longestMediumRun < right by omega)
    have leftCost := runCost_mono signal value someExcess (show excess ≤ left by omega)
    omega

/-! ## Putting a run before a string -/

private theorem length_encode_run_add_le (signal value : UInt8) {count : Nat}
    (some' : 0 < count) (small : count ≤ longestRun) (more : Nat) :
    (Run.encode signal ⟨value, count + more⟩).length ≤
      runCost signal value count + (Run.encode signal ⟨value, more⟩).length := by
  -- Longest frames come off both sides until less than one is left.
  induction more using Nat.strongRecOn with
  | ind more induction =>
      by_cases long : longestRun ≤ more
      · rcases Nat.exists_eq_add_of_le long with ⟨extra, rfl⟩
        have positive : 0 < longestRun := by decide
        have smaller := induction extra (by omega)
        have whole : count + (longestRun + extra) = longestRun + (count + extra) := by omega
        rw [whole, Run.encode_longestRun_add signal value (count + extra),
          Run.encode_longestRun_add signal value extra, List.length_append, List.length_append]
        omega
      · by_cases none' : more = 0
        · subst none'
          rw [Nat.add_zero, Run.encode_of_le signal value some' small]
          exact Nat.le_add_right _ _
        · have someMore : 0 < more := by omega
          rw [Run.encode_of_le signal value someMore (by omega)]
          by_cases fits : count + more ≤ longestRun
          · rw [Run.encode_of_le signal value (by omega) fits]
            exact runCost_add_le signal value some' someMore
          · rcases Nat.exists_eq_add_of_le (Nat.le_of_not_le fits) with ⟨excess, whole⟩
            rw [whole, Run.encode_longestRun_add signal value excess,
              Run.encode_of_le signal value (by omega) (by omega), List.length_append]
            exact runCost_excess_le signal value small (by omega) (by omega) whole

theorem length_encode_replicate_append_le (signal value : UInt8) {count : Nat}
    (some' : 0 < count) (small : count ≤ longestRun) (data : Bytes) :
    (encode signal (List.replicate count value ++ data)).length ≤
      runCost signal value count + (encode signal data).length := by
  rcases exists_replicate_append value data with ⟨more, rest, rfl, other⟩
  have parts := length_encode_run_add_le signal value some' small more
  rw [← List.append_assoc, List.replicate_append_replicate,
    encode_replicate_append signal other, encode_replicate_append signal other,
    List.length_append, List.length_append]
  omega

/-! ## Any whole frames -/

private theorem runLength_lt (indicator : UInt8) (extension : Bytes) :
    Frame.runLength indicator extension < 64 * weight extension.length := by
  have high : lengthBits indicator < 64 := Nat.mod_lt _ (by decide)
  have low := ByteOrder.value_lt .big extension
  have scaled : (lengthBits indicator + 1) * weight extension.length ≤
      64 * weight extension.length := Nat.mul_le_mul_right _ high
  rw [Nat.add_mul] at scaled
  unfold Frame.runLength
  omega

private theorem fits_of_announced {indicator : UInt8} {extension : Bytes}
    (announced : extensionLength? indicator = some extension.length) :
    Frame.runLength indicator extension ≤ longestRun ∧
      extensionLengthFor (Frame.runLength indicator extension) ≤ extension.length := by
  have few := Frame.extensionLength?_le_two announced
  have below := runLength_lt indicator extension
  generalize Frame.runLength indicator extension = count at below ⊢
  unfold extensionLengthFor longestRun longestShortRun longestMediumRun
  have cases' : extension.length = 0 ∨ extension.length = 1 ∨ extension.length = 2 := by omega
  rcases cases' with length | length | length
  all_goals
    rw [length] at below ⊢
    simp only [weight_succ, weight_zero] at below
    split_ifs <;> omega

theorem Frame.Spelled.runCost_le {signal : UInt8} {frame : Frame} {code : Bytes}
    (spelled : frame.Spelled signal code) :
    ∃ value count, frame.expand = List.replicate count value ∧ 0 < count ∧
      count ≤ longestRun ∧ runCost signal value count ≤ code.length := by
  have oneFits : 1 ≤ longestRun := by decide
  cases spelled with
  | @plain byte other =>
      exact ⟨byte, 1, rfl, Nat.one_pos, oneFits, by simp [runCost, shortestRun, other]⟩
  | escaped => exact ⟨signal, 1, rfl, Nat.one_pos, oneFits, by simp [runCost, shortestRun]⟩
  | @run indicator extension value announced some' =>
      rcases fits_of_announced announced with ⟨small, few⟩
      refine ⟨value, _, rfl, Nat.pos_of_ne_zero some', small, ?_⟩
      simp only [List.length_cons, List.length_append, List.length_nil]
      rw [runCost_eq]
      split_ifs <;> omega

theorem Spells.length_encode_le {signal : UInt8} {frames : List Frame} {code : Bytes}
    (spells : Spells signal frames code) :
    (encode signal (expand frames)).length ≤ code.length := by
  induction spells with
  | nil => exact Nat.le_refl _
  | @cons frame frames code rest first _ induction =>
      rcases first.runCost_le with ⟨value, count, expansion, some', small, cost⟩
      have longer := length_encode_replicate_append_le signal value some' small (expand frames)
      rw [expand_cons, expansion, List.length_append]
      omega

/-- No code of a string is shorter than the encoder's. -/
theorem encode_shortest {signal : UInt8} {data code : Bytes}
    (decodes : decode signal code = .ok data) :
    (encode signal data).length ≤ code.length := by
  rcases decode_eq_ok_iff.mp decodes with ⟨-, nothing, expansion⟩
  rcases spells_split signal code with ⟨whole, spells, joined⟩
  rw [nothing, List.append_nil] at joined
  rw [joined, ← expansion]
  exact spells.length_encode_le

/-- A byte under a header it does not need, and signal bytes escaped one by one. -/
theorem encode_shortest_of_needless_header :
    decode 0xE2 [0xE2, 0x01, 0x41, 0xE2, 0xFF, 0xE2, 0xFF] = .ok [0x41, 0xE2, 0xE2] ∧
      (encode 0xE2 [0x41, 0xE2, 0xE2]).length ≤
        [(0xE2 : UInt8), 0x01, 0x41, 0xE2, 0xFF, 0xE2, 0xFF].length := by
  have decodes : decode 0xE2 [0xE2, 0x01, 0x41, 0xE2, 0xFF, 0xE2, 0xFF] =
      .ok [0x41, 0xE2, 0xE2] := by cbv
  exact ⟨decodes, encode_shortest decodes⟩

end RunLength

end ByteStreams
