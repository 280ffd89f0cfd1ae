import ByteStreams.Text.Utf8
import Mathlib.Tactic.SplitIfs

/-! # UTF-8 gives text back

The form of each character is read to its end as that character, whatever follows it. And
whatever bytes are read as a text are the form of that text, so no others are.
-/

namespace ByteStreams

namespace Utf8

/-! ## Bytes of a character -/

private theorem toNat_ofNat {code : Nat} (small : code < 256) :
    (UInt8.ofNat code).toNat = code := by
  rw [UInt8.toNat_ofNat', Nat.mod_eq_of_lt small]

private theorem read_continuing (index : Nat) (character : Pending) (found : List Char)
    {code : Nat} (rest : Bytes) (low : character.low.toNat ≤ code)
    (high : code ≤ character.high.toNat) (small : code < 256) :
    read index (some character) found (UInt8.ofNat code :: rest) =
      if character.owed ≤ 1 then
        read (index + 1) none (Char.ofNat (character.bits * 64 + code % 64) :: found) rest
      else
        read (index + 1)
          (some ⟨character.start, character.seen + 1, character.owed - 1, 0x80, 0xBF,
            character.bits * 64 + code % 64⟩) found rest := by
  have within : character.low ≤ UInt8.ofNat code ∧ UInt8.ofNat code ≤ character.high := by
    rw [UInt8.le_iff_toNat_le, UInt8.le_iff_toNat_le, toNat_ofNat small]
    exact ⟨low, high⟩
  rw [read, if_pos within]
  simp only [toNat_ofNat small]

private theorem read_leading (index : Nat) (found : List Char) {code : Nat} (rest : Bytes)
    {follow : Nat} {low high : UInt8} {bits : Nat}
    (leads : lead? (UInt8.ofNat code) = some ⟨follow + 1, low, high, bits⟩) :
    read index none found (UInt8.ofNat code :: rest) =
      read (index + 1) (some ⟨index, 1, follow + 1, low, high, bits⟩) found rest := by
  rw [read, leads]

private theorem lead?_of_two {code : Nat} (least : 0xC2 ≤ code) (most : code < 0xE0) :
    lead? (UInt8.ofNat code) = some ⟨1, 0x80, 0xBF, code % 32⟩ := by
  unfold lead?
  simp only [toNat_ofNat (show code < 256 by omega)]
  rw [if_neg (by omega), if_neg (by omega), if_pos most]

private theorem lead?_of_three {code : Nat} (least : 0xE0 ≤ code) (most : code < 0xF0) :
    lead? (UInt8.ofNat code) =
      some ⟨2, if code = 0xE0 then 0xA0 else 0x80, if code = 0xED then 0x9F else 0xBF,
        code % 16⟩ := by
  unfold lead?
  simp only [toNat_ofNat (show code < 256 by omega)]
  rw [if_neg (by omega), if_neg (by omega), if_neg (by omega)]
  split_ifs <;> first | rfl | omega

private theorem lead?_of_four {code : Nat} (least : 0xF0 ≤ code) (most : code ≤ 0xF4) :
    lead? (UInt8.ofNat code) =
      some ⟨3, if code = 0xF0 then 0x90 else 0x80, if code = 0xF4 then 0x8F else 0xBF,
        code % 8⟩ := by
  unfold lead?
  simp only [toNat_ofNat (show code < 256 by omega)]
  rw [if_neg (by omega), if_neg (by omega), if_neg (by omega), if_neg (by omega),
    if_neg (by omega), if_neg (by omega)]
  split_ifs <;> first | rfl | omega

/-! ## Characters -/

theorem read_utf8EncodeChar (index : Nat) (found : List Char) (character : Char) (rest : Bytes) :
    ∃ after, read index none found (String.utf8EncodeChar character ++ rest) =
      read after none (character :: found) rest := by
  have valid : character.val.toNat < 0xD800 ∨
      0xDFFF < character.val.toNat ∧ character.val.toNat < 0x110000 := character.valid
  have whole : Char.ofNat character.val.toNat = character := Char.ofNat_toNat character
  unfold String.utf8EncodeChar
  generalize character.val.toNat = code at valid whole
  simp only
  split_ifs with one two three
  · refine ⟨index + 1, ?_⟩
    have leads : lead? (UInt8.ofNat code) = some ⟨0, 0x80, 0xBF, code⟩ := by
      unfold lead?
      simp only [toNat_ofNat (show code < 256 by omega)]
      rw [if_pos (by omega)]
    rw [List.singleton_append, read, leads]
    simp only [whole]
  · refine ⟨index + 2, ?_⟩
    simp only [List.cons_append, List.nil_append]
    rw [read_leading _ _ _ (lead?_of_two (by omega) (by omega)),
      read_continuing _ _ _ _ (by simp) (by simp; omega) (by omega), if_pos (by simp)]
    have bits : (code / 64 % 32 + 192) % 32 * 64 + (code % 64 + 128) % 64 = code := by omega
    simp only [bits, whole]
  · refine ⟨index + 3, ?_⟩
    simp only [List.cons_append, List.nil_append]
    rw [read_leading _ _ _ (lead?_of_three (by omega) (by omega)),
      read_continuing _ _ _ _ (by simp only; split_ifs <;> simp; omega)
        (by simp only; split_ifs <;> simp <;> omega) (by omega), if_neg (by simp),
      read_continuing _ _ _ _ (by simp) (by simp; omega) (by omega), if_pos (by simp)]
    have bits : ((code / 4096 % 16 + 224) % 16 * 64 + (code / 64 % 64 + 128) % 64) * 64 +
        (code % 64 + 128) % 64 = code := by omega
    simp only [bits, whole]
  · refine ⟨index + 4, ?_⟩
    simp only [List.cons_append, List.nil_append]
    rw [read_leading _ _ _ (lead?_of_four (by omega) (by omega)),
      read_continuing _ _ _ _ (by simp only; split_ifs <;> simp; omega)
        (by simp only; split_ifs <;> simp <;> omega) (by omega), if_neg (by simp),
      read_continuing _ _ _ _ (by simp) (by simp; omega) (by omega), if_neg (by simp),
      read_continuing _ _ _ _ (by simp) (by simp; omega) (by omega), if_pos (by simp)]
    have bits : (((code / 262144 % 8 + 240) % 8 * 64 + (code / 4096 % 64 + 128) % 64) * 64 +
        (code / 64 % 64 + 128) % 64) * 64 + (code % 64 + 128) % 64 = code := by omega
    simp only [bits, whole]

private theorem read_flatMap (characters : List Char) (index : Nat) (found : List Char) :
    read index none found (characters.flatMap String.utf8EncodeChar) =
      .ok (found.reverse ++ characters) := by
  induction characters generalizing index found with
  | nil => rw [List.flatMap_nil, read, List.append_nil]
  | cons character characters induction =>
      rw [List.flatMap_cons]
      rcases read_utf8EncodeChar index found character
        (characters.flatMap String.utf8EncodeChar) with ⟨after, step⟩
      rw [step, induction, List.reverse_cons, List.append_assoc]
      rfl

/-- A text is read back from its UTF-8 form. -/
theorem decode_encode (text : String) : decode (encode text) = .ok text := by
  rw [decode, encode, read_flatMap]
  simp only [Except.map, List.reverse_nil, List.nil_append, String.ofList_toList]

/-! ## Bytes that are read

The other way round: whatever is read as a text is the form of that text. Each lead byte is
turned back into its range, and each byte after it is one that a form may have there.
-/

private theorem toNat_val_ofNat {code : Nat} (valid : code.isValidChar) :
    (Char.ofNat code).val.toNat = code := by
  rw [Char.ofNat, dif_pos valid]
  rfl

private theorem ofNat_eq {code : Nat} (byte : UInt8) (same : code = byte.toNat) :
    UInt8.ofNat code = byte := by
  rw [same, UInt8.ofNat_toNat]

private theorem utf8EncodeChar_one {first : UInt8} (most : first.toNat < 0x80) :
    String.utf8EncodeChar (Char.ofNat first.toNat) = [first] := by
  unfold String.utf8EncodeChar
  rw [toNat_val_ofNat (.inl (by omega))]
  simp only
  rw [if_pos (by omega), UInt8.ofNat_toNat]

/-- A byte that is neither a lead byte nor ASCII. -/
private def Continues (byte : UInt8) : Prop := 0x80 ≤ byte.toNat ∧ byte.toNat ≤ 0xBF

private theorem utf8EncodeChar_two {first second : UInt8} (least : 0xC2 ≤ first.toNat)
    (most : first.toNat < 0xE0) (continues : Continues second) :
    String.utf8EncodeChar (Char.ofNat (first.toNat % 32 * 64 + second.toNat % 64)) =
      [first, second] := by
  rcases continues with ⟨low, high⟩
  unfold String.utf8EncodeChar
  rw [toNat_val_ofNat (.inl (by omega))]
  simp only
  rw [if_neg (by omega), if_pos (by omega), ofNat_eq first (by omega), ofNat_eq second (by omega)]

private theorem utf8EncodeChar_three {first second third : UInt8} (least : 0xE0 ≤ first.toNat)
    (most : first.toNat < 0xF0) (continues : Continues second)
    (long : first.toNat = 0xE0 → 0xA0 ≤ second.toNat)
    (noSurrogate : first.toNat = 0xED → second.toNat ≤ 0x9F) (last : Continues third) :
    String.utf8EncodeChar
        (Char.ofNat ((first.toNat % 16 * 64 + second.toNat % 64) * 64 + third.toNat % 64)) =
      [first, second, third] := by
  rcases continues with ⟨low, high⟩
  rcases last with ⟨lastLow, lastHigh⟩
  have valid : Nat.isValidChar
      ((first.toNat % 16 * 64 + second.toNat % 64) * 64 + third.toNat % 64) := by
    unfold Nat.isValidChar
    omega
  unfold String.utf8EncodeChar
  rw [toNat_val_ofNat valid]
  simp only
  rw [if_neg (by omega), if_neg (by omega), if_pos (by omega), ofNat_eq first (by omega),
    ofNat_eq second (by omega), ofNat_eq third (by omega)]

private theorem utf8EncodeChar_four {first second third fourth : UInt8}
    (least : 0xF0 ≤ first.toNat) (most : first.toNat ≤ 0xF4) (continues : Continues second)
    (long : first.toNat = 0xF0 → 0x90 ≤ second.toNat)
    (within : first.toNat = 0xF4 → second.toNat ≤ 0x8F) (goesOn : Continues third)
    (last : Continues fourth) :
    String.utf8EncodeChar
        (Char.ofNat (((first.toNat % 8 * 64 + second.toNat % 64) * 64 + third.toNat % 64) * 64 +
          fourth.toNat % 64)) =
      [first, second, third, fourth] := by
  rcases continues with ⟨low, high⟩
  rcases goesOn with ⟨thirdLow, thirdHigh⟩
  rcases last with ⟨lastLow, lastHigh⟩
  have valid : Nat.isValidChar
      (((first.toNat % 8 * 64 + second.toNat % 64) * 64 + third.toNat % 64) * 64 +
        fourth.toNat % 64) := by
    unfold Nat.isValidChar
    omega
  unfold String.utf8EncodeChar
  rw [toNat_val_ofNat valid]
  simp only
  rw [if_neg (by omega), if_neg (by omega), if_neg (by omega), ofNat_eq first (by omega),
    ofNat_eq second (by omega), ofNat_eq third (by omega), ofNat_eq fourth (by omega)]

private inductive Leads (code : Nat) : Lead → Prop
  | one (most : code < 0x80) (low high : UInt8) : Leads code ⟨0, low, high, code⟩
  | two (least : 0xC2 ≤ code) (most : code < 0xE0) : Leads code ⟨1, 0x80, 0xBF, code % 32⟩
  | three {low high : UInt8} (least : 0xE0 ≤ code) (most : code < 0xF0) (lowest : 0x80 ≤ low.toNat)
      (highest : high.toNat ≤ 0xBF) (long : code = 0xE0 → 0xA0 ≤ low.toNat)
      (noSurrogate : code = 0xED → high.toNat ≤ 0x9F) : Leads code ⟨2, low, high, code % 16⟩
  | four {low high : UInt8} (least : 0xF0 ≤ code) (most : code ≤ 0xF4) (lowest : 0x80 ≤ low.toNat)
      (highest : high.toNat ≤ 0xBF) (long : code = 0xF0 → 0x90 ≤ low.toNat)
      (within : code = 0xF4 → high.toNat ≤ 0x8F) : Leads code ⟨3, low, high, code % 8⟩

private theorem leads_of_lead? {byte : UInt8} {lead : Lead} (leads : lead? byte = some lead) :
    Leads byte.toNat lead := by
  unfold lead? at leads
  simp only at leads
  split_ifs at leads <;> cases leads
  · exact .one (by omega) _ _
  · exact .two (by omega) (by omega)
  · exact .three (by omega) (by omega) (by decide) (by decide) (fun _ => by decide) (by omega)
  · exact .three (by omega) (by omega) (by decide) (by decide) (by omega) (fun _ => by decide)
  · exact .three (by omega) (by omega) (by decide) (by decide) (by omega) (by omega)
  · exact .four (by omega) (by omega) (by decide) (by decide) (fun _ => by decide) (by omega)
  · exact .four (by omega) (by omega) (by decide) (by decide) (by omega) (by omega)
  · exact .four (by omega) (by omega) (by decide) (by decide) (by omega) (fun _ => by decide)

variable {index : Nat} {found characters : List Char} {bytes : Bytes}

private theorem read_pending_ok {start seen owed bits : Nat} {low high : UInt8}
    (read_ok : read index (some ⟨start, seen, owed, low, high, bits⟩) found bytes =
      .ok characters) :
    ∃ byte rest, bytes = byte :: rest ∧ low.toNat ≤ byte.toNat ∧ byte.toNat ≤ high.toNat ∧
      (if owed ≤ 1 then
        read (index + 1) none (Char.ofNat (bits * 64 + byte.toNat % 64) :: found) rest
      else
        read (index + 1)
          (some ⟨start, seen + 1, owed - 1, 0x80, 0xBF, bits * 64 + byte.toNat % 64⟩) found
          rest) = .ok characters := by
  cases bytes with
  | nil =>
      rw [read] at read_ok
      cases read_ok
  | cons byte rest =>
      rw [read] at read_ok
      by_cases within : low ≤ byte ∧ byte ≤ high
      · rw [if_pos within] at read_ok
        exact ⟨byte, rest, rfl, UInt8.le_iff_toNat_le.mp within.1,
          UInt8.le_iff_toNat_le.mp within.2, read_ok⟩
      · rw [if_neg within] at read_ok
        cases read_ok

private theorem read_ok_first {byte : UInt8} {bytes : Bytes}
    (read_ok : read index none found (byte :: bytes) = .ok characters) :
    ∃ character rest after, byte :: bytes = String.utf8EncodeChar character ++ rest ∧
      read after none (character :: found) rest = .ok characters := by
  rw [read] at read_ok
  cases announced : lead? byte with
  | none =>
      rw [announced] at read_ok
      cases read_ok
  | some lead =>
      rw [announced] at read_ok
      cases leads_of_lead? announced with
      | one most low high =>
          refine ⟨_, bytes, _, ?_, read_ok⟩
          rw [utf8EncodeChar_one most, List.singleton_append]
      | two least most =>
          rcases read_pending_ok read_ok with ⟨second, rest, rfl, low, high, done⟩
          refine ⟨_, rest, _, ?_, done⟩
          rw [utf8EncodeChar_two least most ⟨low, high⟩]
          rfl
      | three least most lowest highest long noSurrogate =>
          rcases read_pending_ok read_ok with ⟨second, rest, rfl, low, high, goesOn⟩
          rcases read_pending_ok goesOn with ⟨third, rest, rfl, lastLow, lastHigh, done⟩
          refine ⟨_, rest, _, ?_, done⟩
          rw [utf8EncodeChar_three least most ⟨by omega, by omega⟩ (by omega) (by omega)
            ⟨lastLow, lastHigh⟩]
          rfl
      | four least most lowest highest long within =>
          rcases read_pending_ok read_ok with ⟨second, rest, rfl, low, high, goesOn⟩
          rcases read_pending_ok goesOn with ⟨third, rest, rfl, nextLow, nextHigh, goesOn⟩
          rcases read_pending_ok goesOn with ⟨fourth, rest, rfl, lastLow, lastHigh, done⟩
          refine ⟨_, rest, _, ?_, done⟩
          rw [utf8EncodeChar_four least most ⟨by omega, by omega⟩ (by omega) (by omega)
            ⟨nextLow, nextHigh⟩ ⟨lastLow, lastHigh⟩]
          rfl

private theorem read_ok_all {length : Nat} (short : bytes.length ≤ length)
    (read_ok : read index none found bytes = .ok characters) :
    ∃ others, characters = found.reverse ++ others ∧
      others.flatMap String.utf8EncodeChar = bytes := by
  induction length generalizing index found bytes with
  | zero =>
      rw [List.eq_nil_of_length_eq_zero (Nat.le_zero.mp short)] at read_ok ⊢
      rw [read] at read_ok
      cases read_ok
      exact ⟨[], (List.append_nil _).symm, rfl⟩
  | succ length induction =>
      cases bytes with
      | nil =>
          rw [read] at read_ok
          cases read_ok
          exact ⟨[], (List.append_nil _).symm, rfl⟩
      | cons byte bytes =>
          rcases read_ok_first read_ok with ⟨character, rest, after, joined, others⟩
          have shorter : rest.length ≤ length := by
            have total := congrArg List.length joined
            have some' : 0 < (String.utf8EncodeChar character).length := by
              simp [String.length_utf8EncodeChar, Char.utf8Size_pos]
            rw [List.length_append] at total
            omega
          rcases induction shorter others with ⟨characters, same, forms⟩
          refine ⟨character :: characters, ?_, ?_⟩
          · rw [same, List.reverse_cons, List.append_assoc]
            rfl
          · rw [List.flatMap_cons, forms, joined]

/-- The bytes that are read as a text are its UTF-8 form, and no others are. -/
theorem decode_eq_ok_iff {text : String} : decode bytes = .ok text ↔ encode text = bytes := by
  constructor
  · intro decoded
    unfold decode at decoded
    cases found : read 0 none [] bytes with
    | error fault =>
        rw [found] at decoded
        cases decoded
    | ok characters =>
        rw [found] at decoded
        cases decoded
        rcases read_ok_all (Nat.le_refl _) found with ⟨others, rfl, forms⟩
        rw [encode, String.toList_ofList]
        exact forms
  · rintro rfl
    exact decode_encode text

end Utf8

end ByteStreams
