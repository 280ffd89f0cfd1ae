import ByteStreams.Proofs.RunLength.Splitting

/-! # The code of runs

What the encoder writes for a run is a sequence of whole frames that stand for the
run, so what it writes for a string decodes to the string. The code of a string can be
taken apart at every change of value, and a longest frame can be taken off a run
however long the run goes on.
-/

namespace ByteStreams

namespace RunLength

open LittleEndian (weight weight_zero weight_succ)

/-! ## Frames for a run -/

theorem runLength_indicatorFor {count : Nat} (small : count ≤ longestRun) :
    Frame.runLength (indicatorFor (extensionLengthFor count) count)
      (ByteOrder.big.encode (extensionLengthFor count) count) = count := by
  simp only [Frame.runLength, lengthBits_indicatorFor small, ByteOrder.length_encode,
    ByteOrder.value_encode]
  rw [Nat.mul_comm]
  exact Nat.div_add_mod count _

private theorem headedRun_spelled (signal value : UInt8) {count : Nat} (some' : 0 < count)
    (small : count ≤ longestRun) :
    Frame.Spelled signal (.run value count) (headedRun signal value count) := by
  have length := runLength_indicatorFor small
  have spelled := @Frame.Spelled.run signal (indicatorFor (extensionLengthFor count) count)
    (ByteOrder.big.encode (extensionLengthFor count) count) value
    (by rw [extensionLength?_indicatorFor small, ByteOrder.length_encode])
    (by rw [length]; omega)
  rw [length] at spelled
  exact spelled

theorem shortestRun_spells (signal value : UInt8) {count : Nat} (some' : 0 < count)
    (small : count ≤ longestRun) :
    ∃ frames, Spells signal frames (shortestRun signal value count) ∧
      expand frames = List.replicate count value := by
  unfold shortestRun
  by_cases one : count = 1
  · subst one
    by_cases same : value = signal
    · subst same
      exact ⟨[.literal value], by simpa using Spells.singleton .escaped, rfl⟩
    · refine ⟨[.literal value], ?_, rfl⟩
      simpa [same] using Spells.singleton (.plain same)
  · by_cases two : count = 2 ∧ value ≠ signal
    · rcases two with ⟨rfl, other⟩
      refine ⟨[.literal value, .literal value], ?_, rfl⟩
      simpa [other] using Spells.cons (.plain other) (Spells.singleton (.plain other))
    · rw [if_neg one, if_neg two]
      exact ⟨_, .singleton (headedRun_spelled signal value some' small), by
        simp [expand, Frame.expand]⟩

private theorem frameLengths_bounds {count length : Nat} (member : length ∈ frameLengths count) :
    0 < length ∧ length ≤ longestRun := by
  have positive : 0 < longestRun := by decide
  have below : count % longestRun < longestRun := Nat.mod_lt _ positive
  simp only [frameLengths, List.mem_append, List.mem_replicate] at member
  rcases member with ⟨-, rfl⟩ | last
  · exact ⟨positive, Nat.le_refl _⟩
  · split at last
    · cases last
    · simp only [List.mem_singleton] at last
      omega

private theorem flatMap_spells {α : Type} (signal : UInt8) (code data : α → Bytes) (items : List α)
    (each : ∀ item ∈ items, ∃ frames, Spells signal frames (code item) ∧
      expand frames = data item) :
    ∃ frames, Spells signal frames (items.flatMap code) ∧
      expand frames = items.flatMap data := by
  induction items with
  | nil => exact ⟨[], .nil, rfl⟩
  | cons item items induction =>
      rcases each item (by simp) with ⟨first, firstSpells, firstExpand⟩
      rcases induction fun other member => each other (by simp [member]) with
        ⟨others, otherSpells, otherExpand⟩
      refine ⟨first ++ others, firstSpells.append otherSpells, ?_⟩
      rw [expand_append, firstExpand, otherExpand, List.flatMap_cons]

theorem Run.encode_spells (signal : UInt8) (run : Run) :
    ∃ frames, Spells signal frames (run.encode signal) ∧
      RunLength.expand frames = run.expand := by
  rw [Run.encode_eq, Run.expand, ← flatMap_replicate_frameLengths]
  apply flatMap_spells
  intro length member
  exact shortestRun_spells signal run.value (frameLengths_bounds member).1
    (frameLengths_bounds member).2

/-- The code of a string is whole frames that stand for the string. -/
theorem encode_spells (signal : UInt8) (data : Bytes) :
    ∃ frames, Spells signal frames (encode signal data) ∧ expand frames = data := by
  have whole := flatMap_spells signal (Run.encode signal) Run.expand (runs data)
    fun run _ => run.encode_spells signal
  rwa [← encode_eq, flatMap_expand_runs] at whole

/-- Decoding takes encoding back, whatever the signal is and however long the runs are. -/
theorem decode_encode_ok (signal : UInt8) (data : Bytes) :
    decode signal (encode signal data) = .ok data := by
  rcases encode_spells signal data with ⟨frames, spells, expansion⟩
  have cut := spells.split_eq
  exact decode_eq_ok_iff.mpr ⟨congrArg Split.fault cut, congrArg Split.rest cut,
    (congrArg (fun cut => RunLength.expand cut.frames) cut).trans expansion⟩

/-- The escape is a signal like any other. -/
example : encode 0xFF [0xFF, 0x40, 0x40, 0x40] = [0xFF, 0xFF, 0xFF, 0x03, 0x40] ∧
    decode 0xFF [0xFF, 0xFF, 0xFF, 0x03, 0x40] = .ok [0xFF, 0x40, 0x40, 0x40] := by
  constructor <;> cbv

/-! ## Taking code apart -/

@[simp] theorem encode_nil (signal : UInt8) : encode signal [] = [] := rfl

@[simp] theorem Run.encode_zero (signal value : UInt8) :
    Run.encode signal ⟨value, 0⟩ = [] := by
  simp [Run.encode_eq, frameLengths]

theorem Run.encode_of_le (signal value : UInt8) {count : Nat} (some' : 0 < count)
    (small : count ≤ longestRun) :
    Run.encode signal ⟨value, count⟩ = shortestRun signal value count :=
  if_pos ⟨some', small⟩

theorem Run.encode_longestRun_add (signal value : UInt8) (count : Nat) :
    Run.encode signal ⟨value, longestRun + count⟩ =
      shortestRun signal value longestRun ++ Run.encode signal ⟨value, count⟩ := by
  have positive : 0 < longestRun := by decide
  have lengths : frameLengths (longestRun + count) = longestRun :: frameLengths count := by
    simp only [frameLengths, Nat.add_mod_left, Nat.add_div_left _ positive,
      List.replicate_succ, List.cons_append]
  rw [Run.encode_eq, Run.encode_eq]
  simp only [lengths, List.flatMap_cons]

theorem encode_replicate_append (signal : UInt8) {value : UInt8} {data : Bytes}
    (other : data.head? ≠ some value) (count : Nat) :
    encode signal (List.replicate count value ++ data) =
      Run.encode signal ⟨value, count⟩ ++ encode signal data := by
  cases count with
  | zero => simp
  | succ count =>
      rw [encode_eq, runs_replicate_append other, List.flatMap_cons, ← encode_eq]

theorem exists_replicate_append (value : UInt8) (data : Bytes) :
    ∃ count rest, data = List.replicate count value ++ rest ∧ rest.head? ≠ some value := by
  induction data with
  | nil => exact ⟨0, [], rfl, by simp⟩
  | cons byte rest induction =>
      by_cases same : byte = value
      · subst same
        rcases induction with ⟨count, after, rfl, other⟩
        exact ⟨count + 1, after, rfl, other⟩
      · exact ⟨0, byte :: rest, rfl, by simpa using same⟩

theorem encode_longestRun_append (signal value : UInt8) (count : Nat) (data : Bytes) :
    encode signal (List.replicate (longestRun + count) value ++ data) =
      shortestRun signal value longestRun ++
        encode signal (List.replicate count value ++ data) := by
  rcases exists_replicate_append value data with ⟨more, rest, rfl, other⟩
  rw [← List.append_assoc, ← List.append_assoc, List.replicate_append_replicate,
    List.replicate_append_replicate, encode_replicate_append signal other,
    encode_replicate_append signal other, Nat.add_assoc, Run.encode_longestRun_add,
    List.append_assoc]

end RunLength

end ByteStreams
