import ByteStreams.RunLength.Frame

/-!
Run-length code of whole byte strings.

Encoding cuts a string into its maximal runs and each run into frames, the longest
frames first. Decoding cuts code into frames and expands them; it refuses code that
does not end with a frame.
-/

namespace ByteStreams

namespace RunLength

/-! ## Runs -/

structure Run where
  value : UInt8
  count : Nat
deriving DecidableEq, Repr

def Run.expand (run : Run) : Bytes := List.replicate run.count run.value

/-- Put a byte before a list of runs, lengthening the first if it can. -/
def Run.push (byte : UInt8) : List Run → List Run
  | [] => [⟨byte, 1⟩]
  | run :: rest =>
      if run.value = byte then ⟨byte, run.count + 1⟩ :: rest else ⟨byte, 1⟩ :: run :: rest

def runs (data : Bytes) : List Run := data.foldr Run.push []

example : runs [7, 7, 8, 7] = [⟨7, 2⟩, ⟨8, 1⟩, ⟨7, 1⟩] := by decide

theorem flatMap_expand_push (byte : UInt8) (list : List Run) :
    (Run.push byte list).flatMap Run.expand = byte :: list.flatMap Run.expand := by
  cases list with
  | nil => simp [Run.push, Run.expand]
  | cons run rest =>
      by_cases same : run.value = byte <;>
        simp [Run.push, Run.expand, same, List.replicate_succ]

@[simp] theorem flatMap_expand_runs (data : Bytes) :
    (runs data).flatMap Run.expand = data := by
  induction data with
  | nil => rfl
  | cons byte rest induction =>
      have step : runs (byte :: rest) = Run.push byte (runs rest) := rfl
      rw [step, flatMap_expand_push, induction]

/-! ## Encoding -/

/-- The lengths of the frames that a run is cut into: as many of the longest as
fit, then what is left. -/
def frameLengths (count : Nat) : List Nat :=
  let left := count % longestRun
  List.replicate (count / longestRun) longestRun ++ (if left = 0 then [] else [left])

theorem flatMap_replicate_frameLengths (count : Nat) (value : UInt8) :
    ((frameLengths count).flatMap fun length => List.replicate length value) =
      List.replicate count value := by
  have division : longestRun * (count / longestRun) + count % longestRun = count :=
    Nat.div_add_mod count longestRun
  have longest : ((List.replicate (count / longestRun) longestRun).flatMap
      fun length => List.replicate length value) =
        List.replicate (count / longestRun * longestRun) value := by
    simp [List.flatMap_replicate, List.flatten_replicate_replicate]
  rw [Nat.mul_comm] at division
  simp only [frameLengths, List.flatMap_append, longest]
  split
  · rename_i nothing
    rw [nothing, Nat.add_zero] at division
    simp [division]
  · simp only [List.flatMap_singleton, List.replicate_append_replicate, division]

theorem frameLengths_of_le {count : Nat} (some : 0 < count) (few : count ≤ longestRun) :
    frameLengths count = [count] := by
  unfold frameLengths longestRun at *
  by_cases full : count = 0x3FFFFF
  · subst full
    decide
  · have none : count / 0x3FFFFF = 0 := by omega
    have left : count % 0x3FFFFF = count := by omega
    have nonzero : count ≠ 0 := by omega
    simp [none, left, nonzero]

def Run.encode (signal : UInt8) (run : Run) : Bytes :=
  if 0 < run.count ∧ run.count ≤ longestRun then
    shortestRun signal run.value run.count
  else
    (frameLengths run.count).flatMap (shortestRun signal run.value)

theorem Run.encode_eq (signal : UInt8) (run : Run) :
    run.encode signal = (frameLengths run.count).flatMap (shortestRun signal run.value) := by
  unfold Run.encode
  split
  · rename_i short
    rw [frameLengths_of_le short.1 short.2, List.flatMap_singleton]
  · rfl

/-- Encode a string after the run before it, which the string may lengthen, and after
code already made (last byte first). -/
def encodeAfter (signal : UInt8) (code : Bytes) (run : Run) : (data : Bytes) → Bytes
  | [] => (List.reverseAux (run.encode signal) code).reverse
  | byte :: rest =>
      if run.value = byte then
        encodeAfter signal code ⟨byte, run.count + 1⟩ rest
      else
        encodeAfter signal (List.reverseAux (run.encode signal) code) ⟨byte, 1⟩ rest

def encode (signal : UInt8) : (data : Bytes) → Bytes
  | [] => []
  | byte :: rest => encodeAfter signal [] ⟨byte, 1⟩ rest

theorem runs_replicate_append {value : UInt8} {data : Bytes} (other : data.head? ≠ some value)
    (count : Nat) :
    runs (List.replicate (count + 1) value ++ data) = ⟨value, count + 1⟩ :: runs data := by
  induction count with
  | zero =>
      cases data with
      | nil => rfl
      | cons byte rest =>
          have different : byte ≠ value := by simpa using other
          have step : runs (byte :: rest) = Run.push byte (runs rest) := rfl
          have first : ∃ count tail, Run.push byte (runs rest) = ⟨byte, count⟩ :: tail := by
            cases runs rest with
            | nil => exact ⟨_, _, rfl⟩
            | cons run tail =>
                by_cases same : run.value = byte <;> simp [Run.push, same]
          obtain ⟨count, tail, shape⟩ := first
          have whole : runs (value :: byte :: rest) = Run.push value (runs (byte :: rest)) := rfl
          simp only [Nat.zero_add, List.replicate_one, List.singleton_append]
          rw [whole, step, shape]
          simp [Run.push, different]
  | succ count induction =>
      have step : runs (value :: (List.replicate (count + 1) value ++ data)) =
          Run.push value (runs (List.replicate (count + 1) value ++ data)) := rfl
      rw [List.replicate_succ, List.cons_append, step, induction]
      simp [Run.push]

theorem encodeAfter_eq (signal : UInt8) (code : Bytes) (value : UInt8) (count : Nat)
    (data : Bytes) :
    encodeAfter signal code ⟨value, count + 1⟩ data =
      code.reverse ++
        (runs (List.replicate (count + 1) value ++ data)).flatMap (Run.encode signal) := by
  induction data generalizing code value count with
  | nil =>
      rw [runs_replicate_append (by simp)]
      simp [encodeAfter, runs, List.reverseAux_eq]
  | cons byte rest induction =>
      by_cases same : value = byte
      · subst same
        have longer : List.replicate (count + 1) value ++ value :: rest =
            List.replicate (count + 1 + 1) value ++ rest := by
          rw [List.replicate_succ' (n := count + 1)]
          simp
        simp only [encodeAfter, if_true, induction, longer]
      · have other : (byte :: rest).head? ≠ some value := by
          simpa using fun equal => same equal.symm
        rw [runs_replicate_append other]
        simp only [encodeAfter, same, if_false, List.flatMap_cons]
        have step :=
          induction (List.reverseAux (Run.encode signal ⟨value, count + 1⟩) code) byte 0
        simp only [Nat.zero_add] at step
        rw [step]
        simp [List.reverseAux_eq]

theorem encode_eq (signal : UInt8) (data : Bytes) :
    encode signal data = (runs data).flatMap (Run.encode signal) := by
  cases data with
  | nil => rfl
  | cons byte rest =>
      have whole := encodeAfter_eq signal [] byte 0 rest
      simpa [encode] using whole

example : encode 0xE2 [0xE2, 0xE2, 0xE2, 0x41, 0x41, 0x41, 0x41, 0x41] =
    [0xE2, 0x03, 0xE2, 0xE2, 0x05, 0x41] := by decide +kernel

/-! ## Decoding -/

/-- Code cut into frames, as far as that goes. -/
structure Split where
  frames : List Frame
  /-- The code after the last whole frame. -/
  rest : Bytes
  /-- What is wrong with the rest, if more bytes could not mend it. -/
  fault : Option Fault
deriving DecidableEq, Repr

/-- Cut code into frames, after those already found (last one first). -/
def splitAfter (signal : UInt8) (found : List Frame) (code : Bytes) : Split :=
  match _whole : Frame.parse signal code with
  | .frame frame _ rest => splitAfter signal (frame :: found) rest
  | .incomplete => ⟨found.reverse, code, none⟩
  | .malformed fault => ⟨found.reverse, code, some fault⟩
termination_by code.length
decreasing_by exact Frame.length_lt_of_parse _whole

def split (signal : UInt8) (code : Bytes) : Split := splitAfter signal [] code

def expand (frames : List Frame) : Bytes := frames.flatMap Frame.expand

/-- The byte string that a piece of code stands for. -/
def decode (signal : UInt8) (code : Bytes) : Except Fault Bytes :=
  let cut := split signal code
  match cut.fault with
  | some fault => .error fault
  | none =>
      if cut.rest.isEmpty then
        .ok (expand cut.frames)
      else
        .error (.truncated (Frame.missingPart cut.rest) (code.length - cut.rest.length))

example : decode 0xE2 [0x10, 0xE2, 0xFF, 0xE2, 0x03, 0x7A] =
    .ok [0x10, 0xE2, 0x7A, 0x7A, 0x7A] := by cbv

example : decode 0xE2 [0x01, 0x02, 0xE2, 0x05] = .error (.truncated .runValue 2) := by
  cbv

end RunLength

end ByteStreams
