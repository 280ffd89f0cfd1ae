import ByteStreams.Number.ByteOrder
import ByteStreams.RunLength.Fault
import ByteStreams.RunLength.Signal

/-!
Frames, the units of run-length code.

A byte that is not the signal stands for itself. The signal and the escape stand
for one signal byte. The signal, an indicator, its extension bytes and a value
stand for a run of the value, whose length is written most significant byte first.

`Frame.parse` reads the frame at the front of a buffer, and `encodeRun` writes a
run in its shortest form.
-/

namespace ByteStreams

namespace RunLength

inductive Frame
  /-- One byte. -/
  | literal (byte : UInt8)
  /-- `count` bytes of the same value. -/
  | run (value : UInt8) (count : Nat)
deriving DecidableEq, Repr

namespace Frame

def length : Frame → Nat
  | .literal _ => 1
  | .run _ count => count

def expand : Frame → Bytes
  | .literal byte => [byte]
  | .run value count => List.replicate count value

@[simp] theorem length_expand (frame : Frame) : frame.expand.length = frame.length := by
  cases frame <;> simp [expand, length]

/-! ## Reading -/

inductive Parsed
  /-- A whole frame of `size` bytes, and the bytes after it. -/
  | frame (frame : Frame) (size : Nat) (rest : Bytes)
  /-- No whole frame yet; more bytes may complete it. -/
  | incomplete
  /-- No frame, whatever bytes follow. -/
  | malformed (fault : Fault)
deriving DecidableEq, Repr

def runLength (indicator : UInt8) (extension : Bytes) : Nat :=
  lengthBits indicator * LittleEndian.weight extension.length + ByteOrder.big.value extension

def parse (signal : UInt8) : Bytes → Parsed
  | [] => .incomplete
  | first :: rest =>
      if first ≠ signal then
        .frame (.literal first) 1 rest
      else
        match rest with
        | [] => .incomplete
        | indicator :: body =>
            if indicator = escape then
              .frame (.literal signal) 2 body
            else
              match extensionLength? indicator with
              | none => .malformed (.reservedIndicator indicator)
              | some extension =>
                  match body.drop extension with
                  | [] => .incomplete
                  | value :: rest =>
                      let count := runLength indicator (body.take extension)
                      if count = 0 then .malformed .emptyRun
                      else .frame (.run value count) (3 + extension) rest

def missingPart : Bytes → Part
  | [] | [_] => .indicator
  | _ :: indicator :: body =>
      match extensionLength? indicator with
      | none => .indicator
      | some extension => if body.length < extension then .lengthExtension else .runValue

example : parse 0xE2 [0x41, 0x42] = .frame (.literal 0x41) 1 [0x42] := by decide +kernel

example : parse 0xE2 [0xE2, 0xFF, 0x42] = .frame (.literal 0xE2) 2 [0x42] := by
  decide +kernel

example : parse 0xE2 [0xE2, 0x40, 0x40, 0x7A] = .frame (.run 0x7A 64) 4 [] := by
  decide +kernel

/-- A reserved indicator is refused before the bytes that it announces arrive. -/
example : parse 0xE2 [0xE2, 0xC0] = .malformed (.reservedIndicator 0xC0) := by
  decide +kernel

/-- A frame is refused as empty only once its value has arrived. -/
example : parse 0xE2 [0xE2, 0x00] = .incomplete ∧
    parse 0xE2 [0xE2, 0x00, 0x41] = .malformed .emptyRun := by
  decide +kernel

theorem length_of_parse {signal : UInt8} {buffer rest : Bytes} {frame : Frame} {size : Nat}
    (whole : parse signal buffer = .frame frame size rest) :
    0 < size ∧ size + rest.length = buffer.length := by
  unfold parse at whole
  split at whole
  · cases whole
  · split at whole
    · cases whole
      simp only [List.length_cons]
      omega
    · split at whole
      · cases whole
      · rename_i indicator body _
        split at whole
        · cases whole
          simp only [List.length_cons]
          omega
        · split at whole
          · cases whole
          · rename_i extension _
            split at whole
            · cases whole
            · rename_i value after dropped
              dsimp only at whole
              split at whole
              · cases whole
              · cases whole
                have lengths := congrArg List.length dropped
                simp only [List.length_drop, List.length_cons] at lengths ⊢
                omega

theorem length_lt_of_parse {signal : UInt8} {buffer rest : Bytes} {frame : Frame} {size : Nat}
    (whole : parse signal buffer = .frame frame size rest) : rest.length < buffer.length := by
  have lengths := length_of_parse whole
  omega

theorem extensionLength?_le_two {indicator : UInt8} {extension : Nat}
    (announced : extensionLength? indicator = some extension) : extension ≤ 2 := by
  unfold extensionLength? at announced
  dsimp only at announced
  split at announced
  · cases announced
    omega
  · cases announced

theorem length_lt_of_parse_incomplete {signal : UInt8} {buffer : Bytes}
    (open' : parse signal buffer = .incomplete) : buffer.length < 5 := by
  unfold parse at open'
  split at open'
  · simp
  · split at open'
    · cases open'
    · split at open'
      · simp
      · rename_i indicator body _
        split at open'
        · cases open'
        · split at open'
          · cases open'
          · rename_i extension announced
            split at open'
            · rename_i dropped
              have few := extensionLength?_le_two announced
              have short := List.drop_eq_nil_iff.mp dropped
              simp only [List.length_cons]
              omega
            · dsimp only at open'
              split at open' <;> cases open'

end Frame

/-! ## Writing -/

/-- The frame of a run of `count` bytes with a length of its own: the signal, the
indicator, the extension bytes and the value. -/
def headedRun (signal value : UInt8) (count : Nat) : Bytes :=
  let extension := extensionLengthFor count
  signal :: indicatorFor extension count ::
    (ByteOrder.big.encode extension count ++ [value])

/-- The shortest frames for a run that one frame can describe. One or two bytes
other than the signal stand for themselves, and one signal byte is escaped. -/
def shortestRun (signal value : UInt8) (count : Nat) : Bytes :=
  if count = 1 then
    if value = signal then [signal, escape] else [value]
  else if count = 2 ∧ value ≠ signal then
    [value, value]
  else
    headedRun signal value count

def encodeRun (signal value : UInt8) (count : Nat) : Except Fault Bytes :=
  if count = 0 ∨ longestRun < count then
    .error (.invalidRunLength count longestRun)
  else
    .ok (shortestRun signal value count)

example : shortestRun 0xE2 0x41 64 = [0xE2, 0x40, 0x40, 0x41] := by decide +kernel

example : shortestRun 0xE2 0xE2 2 = [0xE2, 0x02, 0xE2] := by decide +kernel

end RunLength

end ByteStreams
