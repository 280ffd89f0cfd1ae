import ByteStreams.Command.Operand
import ByteStreams.Proofs.Text.Numerals

/-! # Which texts are bytes and lengths of time

The grammar of both kinds of operands, each apart from the way it is read: the prefix of a
byte and the unit of a length of time leave no doubt about where the numeral is. Every text
within the grammar is read as what it says, and every other is refused with the fault that
tells why.
-/

namespace ByteStreams

namespace Command

open Numeral (Written not_writes parse?_eq_some_iff)

variable {inner : List Char} {unit : SpanUnit} {value count : Nat}

/-! ## Bytes -/

/-- A number in decimal, or in hexadecimal after `0x` or `0X`. -/
inductive NamesNumber : List Char → Nat → Prop
  | decimal {text : List Char} {value : Nat} (written : Written 10 text value) :
      NamesNumber text value
  | hexadecimal {letter : Char} {text : List Char} {value : Nat}
      (mark : letter = 'x' ∨ letter = 'X') (written : Written 16 text value) :
      NamesNumber ('0' :: letter :: text) value

/-- A text that is a byte within white space; the numeral is the number of the byte, so it
is 255 at most. -/
def ByteOperand (text : String) (byte : UInt8) : Prop :=
  ∃ inner, Blank.Trims text.toList inner ∧ NamesNumber inner byte.toNat

private theorem not_written_prefixed {letter : Char} {text : List Char}
    (none' : Numeral.digitIn? 10 letter = none) : ¬Written 10 ('0' :: letter :: text) value := by
  intro written
  cases written with
  | bare _ each =>
      rcases each with _ | ⟨_, _ | ⟨writes, _⟩⟩
      exact not_writes (by decide) none' writes

private theorem namesNumber_prefixed_iff {letter : Char} {text : List Char}
    (mark : letter = 'x' ∨ letter = 'X') :
    NamesNumber ('0' :: letter :: text) value ↔ Written 16 text value := by
  have none' : Numeral.digitIn? 10 letter = none := by
    rcases mark with rfl | rfl <;> decide +kernel
  constructor
  · intro names
    cases names with
    | decimal written => exact absurd written (not_written_prefixed none')
    | hexadecimal _ written => exact written
  · exact .hexadecimal mark

theorem trimmedByte?_eq_some_iff :
    trimmedByte? inner = some value ↔ NamesNumber inner value ∧ value ≤ 255 := by
  unfold trimmedByte?
  split
  · rw [parse?_eq_some_iff (by decide), namesNumber_prefixed_iff (.inl rfl)]
  · rw [parse?_eq_some_iff (by decide), namesNumber_prefixed_iff (.inr rfl)]
  · rename_i lower upper
    rw [parse?_eq_some_iff (by decide)]
    refine and_congr_left fun _ => ⟨.decimal, fun names => ?_⟩
    cases names with
    | decimal written => exact written
    | @hexadecimal letter text _ mark _ =>
        rcases mark with rfl | rfl
        · exact absurd rfl (lower text)
        · exact absurd rfl (upper text)

/-- A byte is read from the texts that are this byte, and from no others. -/
theorem readByte_eq_ok_iff {text : String} {byte : UInt8} :
    readByte text = .ok byte ↔ ByteOperand text byte := by
  unfold readByte ByteOperand
  simp only [Blank.trims_iff, exists_eq_left']
  constructor
  · intro read
    split at read
    · rename_i value found
      rcases trimmedByte?_eq_some_iff.mp found with ⟨names, small⟩
      cases read
      rwa [UInt8.toNat_ofNat', Nat.mod_eq_of_lt (by omega)]
    · cases read
  · intro names
    have small := byte.toNat_lt
    rw [trimmedByte?_eq_some_iff.mpr ⟨names, by omega⟩]
    simp

theorem readByte_eq_error_iff {text : String} {fault : OperandFault} :
    readByte text = .error fault ↔
      (∀ byte, ¬ByteOperand text byte) ∧
        fault = .notAByte (String.ofList (Blank.trim text.toList)) := by
  simp only [← readByte_eq_ok_iff]
  unfold readByte
  simp only
  split
  · simp
  · simp [eq_comm]

/-! ## Lengths of time -/

def SpanUnit.nanoseconds : SpanUnit → Nat
  | .second => 1000000000
  | .millisecond => 1000000

/-- A decimal number of units; without a unit it counts seconds. -/
inductive Counts : List Char → SpanUnit → Nat → Prop
  | milliseconds {text : List Char} {count : Nat} (written : Written 10 text count) :
      Counts (text ++ ['m', 's']) .millisecond count
  | seconds {text : List Char} {count : Nat} (written : Written 10 text count) :
      Counts (text ++ ['s']) .second count
  | bare {text : List Char} {count : Nat} (written : Written 10 text count) :
      Counts text .second count

/-- A text that is a length of time within white space: as many nanoseconds as its units
have together, of which there are some, but fewer than `2 ^ 64`. -/
def SpanOperand (text : String) (span : Span) : Prop :=
  ∃ inner unit count, Blank.Trims text.toList inner ∧ Counts inner unit count ∧
    1 ≤ count ∧ count < 2 ^ 64 ∧ span.nanoseconds = count * unit.nanoseconds

inductive SpanRefusal : List Char → OperandFault → Prop
  | empty : SpanRefusal [] .noSpan
  | zero {inner : List Char} {unit : SpanUnit} (counts : Counts inner unit 0) :
      SpanRefusal inner .zeroSpan
  | other {inner : List Char} (some' : inner ≠ [])
      (none' : ∀ unit count, Counts inner unit count → 2 ^ 64 ≤ count) :
      SpanRefusal inner (.notASpan (String.ofList inner))

private theorem cutUnit_append_unit {text : List Char} (written : Written 10 text count) :
    cutUnit (text ++ ['s']) = (text, .second) ∧ cutUnit text = (text, .second) := by
  rcases written.endsWith with ⟨before, character, digit, rfl, writes⟩
  have not_m : character ≠ 'm' := by
    rintro rfl
    exact not_writes (by decide) (by decide +kernel) writes
  have not_s : character ≠ 's' := by
    rintro rfl
    exact not_writes (by decide) (by decide +kernel) writes
  constructor
  · simp [cutUnit, not_m]
  · simp [cutUnit, not_s]

theorem counts_iff :
    Counts inner unit count ↔ (cutUnit inner).2 = unit ∧ Written 10 (cutUnit inner).1 count := by
  constructor
  · intro counts
    cases counts with
    | milliseconds written => simpa [cutUnit] using written
    | seconds written => simpa [(cutUnit_append_unit written).1] using written
    | bare written => simpa [(cutUnit_append_unit written).2] using written
  · rintro ⟨rfl, written⟩
    unfold cutUnit at written ⊢
    split at written
    · rename_i number ends
      rw [List.reverse_eq_iff.mp ends]
      simpa using Counts.milliseconds written
    · rename_i number _ ends
      have whole : inner = number.reverse ++ ['s'] := by
        simpa using List.reverse_eq_iff.mp ends
      rw [whole]
      exact .seconds written
    · exact .bare written

private theorem parse?_eq_some_iff_counts :
    Numeral.parse? 10 greatestCount (cutUnit inner).1 = some count ↔
      Counts inner (cutUnit inner).2 count ∧ count < 2 ^ 64 := by
  have greatest : greatestCount = 2 ^ 64 - 1 := rfl
  rw [parse?_eq_some_iff (by decide), counts_iff, greatest]
  constructor
  · rintro ⟨written, small⟩
    exact ⟨⟨rfl, written⟩, by omega⟩
  · rintro ⟨⟨-, written⟩, small⟩
    exact ⟨written, by omega⟩

private theorem parse?_of_counts (counts : Counts inner unit count) (small : count < 2 ^ 64) :
    Numeral.parse? 10 greatestCount (cutUnit inner).1 = some count :=
  parse?_eq_some_iff_counts.mpr ⟨(counts_iff.mp counts).1 ▸ counts, small⟩

private theorem times_nanoseconds : (unit.times count).nanoseconds = count * unit.nanoseconds := by
  cases unit <;> rfl

private theorem Counts.filled (counts : Counts inner unit count) : ¬inner.isEmpty := by
  rw [List.isEmpty_iff]
  rintro rfl
  rcases (counts_iff.mp counts).2.endsWith with ⟨before, character, digit, whole, writes⟩
  simp [cutUnit] at whole

/-- A length of time is read from the texts that are this length, and from no others. -/
theorem readSpan_eq_ok_iff {text : String} {span : Span} :
    readSpan text = .ok span ↔ SpanOperand text span := by
  unfold readSpan SpanOperand
  generalize trimmed : Blank.trim text.toList = inner
  simp only [Blank.trims_iff, trimmed]
  constructor
  · intro read
    split at read
    · cases read
    split at read
    · cases read
    · cases read
    · rename_i count found
      cases read
      rcases parse?_eq_some_iff_counts.mp found with ⟨counts, small⟩
      exact ⟨inner, _, count + 1, rfl, counts, by omega, small, times_nanoseconds⟩
  · rintro ⟨_, unit, count, rfl, counts, some', small, same⟩
    rcases Nat.exists_eq_add_of_le' some' with ⟨count, rfl⟩
    rw [if_neg counts.filled, parse?_of_counts counts small, (counts_iff.mp counts).1]
    simp only [Except.ok.injEq]
    exact congrArg Span.mk (times_nanoseconds.trans same.symm)

theorem readSpan_eq_error_iff {text : String} {fault : OperandFault} :
    readSpan text = .error fault ↔
      ∃ inner, Blank.Trims text.toList inner ∧ SpanRefusal inner fault := by
  unfold readSpan
  generalize trimmed : Blank.trim text.toList = inner
  simp only [Blank.trims_iff, trimmed, exists_eq_left']
  constructor
  · intro read
    split at read
    · rename_i none'
      cases read
      rw [List.isEmpty_iff.mp none']
      exact .empty
    rename_i some'
    rw [List.isEmpty_iff] at some'
    split at read
    · rename_i unread
      cases read
      refine .other some' fun unit count counts => ?_
      by_contra small
      rw [parse?_of_counts counts (by omega)] at unread
      cases unread
    · rename_i found
      cases read
      exact .zero (parse?_eq_some_iff_counts.mp found).1
    · cases read
  · intro refusal
    cases refusal with
    | empty => rfl
    | zero counts => rw [if_neg counts.filled, parse?_of_counts counts (by decide)]
    | other some' none' =>
        have unread : Numeral.parse? 10 greatestCount (cutUnit inner).1 = none := by
          refine Option.eq_none_iff_forall_ne_some.mpr fun count found => ?_
          rcases parse?_eq_some_iff_counts.mp found with ⟨counts, small⟩
          exact absurd (none' _ _ counts) (by omega)
        rw [if_neg (by simpa using some'), unread]

theorem SpanOperand.le_longest {text : String} {span : Span} (operand : SpanOperand text span) :
    span.nanoseconds ≤ Span.longest.nanoseconds := by
  rcases operand with ⟨_, unit, count, _, _, _, small, same⟩
  have room : count * 1000000000 ≤ (2 ^ 64 - 1) * 1000000000 :=
    Nat.mul_le_mul_right _ (by omega)
  have longest : Span.longest.nanoseconds = 2 ^ 64 * 1000000000 - 1 := rfl
  rw [same, longest]
  cases unit with
  | second => exact room.trans (by decide)
  | millisecond => exact (Nat.mul_le_mul_left _ (by decide)).trans (room.trans (by decide))

/-- Operands are accepted just as their grammars have them: a byte is within white space a
numeral of at most 255, decimal or hexadecimal after its prefix, and a length of time is
within white space a decimal number of units, from 1 to the greatest that 64 bits hold.
What is read is exactly what is written and within what a length of time can be, and every
other text is an error. -/
theorem operands_accept_their_grammars (text : String) :
    (∀ byte, readByte text = .ok byte ↔ ByteOperand text byte) ∧
      (∀ fault, readByte text = .error fault ↔ (∀ byte, ¬ByteOperand text byte) ∧
        fault = .notAByte (String.ofList (Blank.trim text.toList))) ∧
      (∀ span, readSpan text = .ok span ↔ SpanOperand text span) ∧
      (∀ span, SpanOperand text span → span.nanoseconds ≤ Span.longest.nanoseconds) ∧
      (∀ fault, readSpan text = .error fault ↔
        ∃ inner, Blank.Trims text.toList inner ∧ SpanRefusal inner fault) ∧
      ((∃ fault, readSpan text = .error fault) ↔ ∀ span, ¬SpanOperand text span) := by
  refine ⟨fun _ => readByte_eq_ok_iff, fun _ => readByte_eq_error_iff,
    fun _ => readSpan_eq_ok_iff, fun _ => SpanOperand.le_longest,
    fun _ => readSpan_eq_error_iff, ?_⟩
  simp only [← readSpan_eq_ok_iff]
  cases readSpan text with
  | ok span => simp
  | error fault => simp

end Command

end ByteStreams
