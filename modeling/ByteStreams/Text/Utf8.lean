import ByteStreams.Bytes

/-!
Text as UTF-8.

Reading goes byte by byte. A lead byte decides how many bytes follow it and the
range of the first of them; the others lie in `0x80` to `0xBF`. A fault names the
place where the faulty character starts, and how many of its bytes were read
before the one that does not fit. Text that ends inside a character is incomplete
rather than invalid.
-/

namespace ByteStreams

namespace Utf8

inductive Fault
  /-- The `length` bytes at `index` begin no character. -/
  | invalid (length index : Nat)
  /-- The bytes end inside the character at `index`. -/
  | incomplete (index : Nat)
deriving DecidableEq, Repr

def Fault.message : Fault → String
  | .invalid length index =>
      s!"invalid utf-8 sequence of {length} bytes from index {index}"
  | .incomplete index => s!"incomplete utf-8 byte sequence from index {index}"

structure Lead where
  /-- How many bytes follow. -/
  follow : Nat
  /-- The least first byte that may follow. -/
  low : UInt8
  /-- The greatest first byte that may follow. -/
  high : UInt8
  /-- The part of the code point that the lead byte itself holds. -/
  bits : Nat
deriving DecidableEq, Repr

/-- The lead bytes of UTF-8. The narrowed ranges leave out overlong forms, the
surrogates and all that lies beyond the last code point. -/
def lead? (byte : UInt8) : Option Lead :=
  let code := byte.toNat
  if code < 0x80 then some ⟨0, 0x80, 0xBF, code⟩
  else if code < 0xC2 then none
  else if code < 0xE0 then some ⟨1, 0x80, 0xBF, code % 32⟩
  else if code = 0xE0 then some ⟨2, 0xA0, 0xBF, code % 16⟩
  else if code = 0xED then some ⟨2, 0x80, 0x9F, code % 16⟩
  else if code < 0xF0 then some ⟨2, 0x80, 0xBF, code % 16⟩
  else if code = 0xF0 then some ⟨3, 0x90, 0xBF, code % 8⟩
  else if code < 0xF4 then some ⟨3, 0x80, 0xBF, code % 8⟩
  else if code = 0xF4 then some ⟨3, 0x80, 0x8F, code % 8⟩
  else none

/-- A character that has begun and lacks `owed` bytes, of which the next lies in
`low` to `high`. -/
structure Pending where
  /-- The index of its lead byte. -/
  start : Nat
  /-- How many of its bytes were read. -/
  seen : Nat
  owed : Nat
  low : UInt8
  high : UInt8
  /-- The part of its code point that was read. -/
  bits : Nat
deriving DecidableEq, Repr

/-- Read characters from bytes that start at an index. `pending` is the character
that the bytes continue, if they start inside one; `found` are the characters
before them, last one first. -/
def read : (index : Nat) → (pending : Option Pending) → (found : List Char) → Bytes →
    Except Fault (List Char)
  | _, none, found, [] => .ok found.reverse
  | _, some character, _, [] => .error (.incomplete character.start)
  | index, none, found, byte :: rest =>
      match lead? byte with
      | none => .error (.invalid 1 index)
      | some ⟨0, _, _, bits⟩ => read (index + 1) none (Char.ofNat bits :: found) rest
      | some ⟨follow + 1, low, high, bits⟩ =>
          read (index + 1) (some ⟨index, 1, follow + 1, low, high, bits⟩) found rest
  | index, some character, found, byte :: rest =>
      if character.low ≤ byte ∧ byte ≤ character.high then
        let bits := character.bits * 64 + byte.toNat % 64
        if character.owed ≤ 1 then
          read (index + 1) none (Char.ofNat bits :: found) rest
        else
          read (index + 1)
            (some ⟨character.start, character.seen + 1, character.owed - 1, 0x80, 0xBF, bits⟩)
            found rest
      else
        .error (.invalid character.seen character.start)

def decode (bytes : Bytes) : Except Fault String :=
  (read 0 none [] bytes).map String.ofList

def encode (text : String) : Bytes := text.toList.flatMap String.utf8EncodeChar

example : encode "hé" = [0x68, 0xC3, 0xA9] := by decide +kernel

example : decode [0x68, 0xC3, 0xA9] = .ok "hé" := by cbv

example : decode [0x68, 0xC3] = .error (.incomplete 1) := by cbv

example : decode [0xF0, 0x9F, 0x28] = .error (.invalid 2 0) := by cbv

example : decode [0xED, 0xA0, 0x80] = .error (.invalid 1 0) := by cbv

end Utf8

end ByteStreams
