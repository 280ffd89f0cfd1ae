import Mathlib.Data.List.TakeWhile
import Mathlib.Data.Nat.Digits.Lemmas
import ByteStreams.Text.Blank
import ByteStreams.Text.Numeral

/-! # Which texts are numerals, and what trimming leaves

The grammar of numerals on digits and their weights, without the way in which they are
read: letters in either case, leading zeros at will, and no bound on the number. The same
for trimming: white space, a text without any at its ends, and white space again.
-/

namespace ByteStreams

namespace Numeral

/-- A character is the digit of this value, a letter in either case. -/
structure Writes (base : Nat) (character : Char) (digit : Nat) : Prop where
  small : digit < base
  cases : character = Nat.digitChar digit ∨ character = (Nat.digitChar digit).toUpper

/-- A numeral and its number: at most one plus sign, then one digit at least, the first of
the greatest weight. -/
inductive Written (base : Nat) : List Char → Nat → Prop
  | bare {characters : List Char} {digits : List Nat} (some' : characters ≠ [])
      (each : List.Forall₂ (Writes base) characters digits) :
      Written base characters (Nat.ofDigits base digits.reverse)
  | plus {characters : List Char} {digits : List Nat} (some' : characters ≠ [])
      (each : List.Forall₂ (Writes base) characters digits) :
      Written base ('+' :: characters) (Nat.ofDigits base digits.reverse)

variable {base digit number greatest : Nat} {character : Char} {characters text : List Char}

/-! ## One digit -/

private theorem eq_ofNat_of_toNat {code : Nat} (same : character.toNat = code) :
    character = Char.ofNat code := by
  rw [← same, Char.ofNat_toNat]

private theorem digit?_of_writes (writes : Writes base character digit) (letters : base ≤ 16) :
    digit? character = some digit := by
  have small : digit < 16 := Nat.lt_of_lt_of_le writes.small letters
  rcases writes.cases with rfl | rfl <;> interval_cases digit <;> decide +kernel

private theorem writes_of_digit? (found : digit? character = some digit) (small : digit < base)
    (letters : base ≤ 16) : Writes base character digit := by
  refine ⟨small, ?_⟩
  have few : digit < 16 := Nat.lt_of_lt_of_le small letters
  unfold digit? at found
  simp only at found
  split at found
  · rename_i range
    simp only [Option.some.injEq] at found
    rw [eq_ofNat_of_toNat (show character.toNat = digit + 48 by omega)]
    have decimal : digit ≤ 9 := by omega
    interval_cases digit <;> decide +kernel
  split at found
  · rename_i range
    simp only [Option.some.injEq] at found
    rw [eq_ofNat_of_toNat (show character.toNat = digit + 87 by omega)]
    have letter : 10 ≤ digit := by omega
    interval_cases digit <;> decide +kernel
  split at found
  · rename_i range
    simp only [Option.some.injEq] at found
    rw [eq_ofNat_of_toNat (show character.toNat = digit + 55 by omega)]
    have letter : 10 ≤ digit := by omega
    interval_cases digit <;> decide +kernel
  · cases found

theorem digitIn?_eq_some_iff (letters : base ≤ 16) :
    digitIn? base character = some digit ↔ Writes base character digit := by
  unfold digitIn?
  rw [Option.filter_eq_some_iff, decide_eq_true_iff]
  constructor
  · rintro ⟨found, small⟩
    exact writes_of_digit? found small letters
  · intro writes
    exact ⟨digit?_of_writes writes letters, writes.small⟩

theorem not_writes (letters : base ≤ 16) (none' : digitIn? base character = none) :
    ¬Writes base character digit := by
  rw [← digitIn?_eq_some_iff letters, none']
  exact nofun

/-! ## All digits -/

theorem continue?_eq_some_iff (letters : base ≤ 16) {start : Nat} :
    continue? base start characters = some number ↔
      ∃ digits, List.Forall₂ (Writes base) characters digits ∧
        number = start * base ^ digits.length + Nat.ofDigits base digits.reverse := by
  induction characters generalizing start with
  | nil =>
      simp only [continue?, Option.some.injEq, List.forall₂_nil_left_iff, exists_eq_left,
        List.length_nil, pow_zero, mul_one, List.reverse_nil, Nat.ofDigits_nil, add_zero]
      exact eq_comm
  | cons character others induction =>
      have shifted : ∀ digit (digits : List Nat),
          (start * base + digit) * base ^ digits.length + Nat.ofDigits base digits.reverse =
            start * base ^ (digit :: digits).length +
              Nat.ofDigits base (digit :: digits).reverse := by
        intro digit digits
        rw [List.reverse_cons, Nat.ofDigits_append, Nat.ofDigits_singleton, List.length_reverse,
          List.length_cons, pow_succ]
        ring
      rw [continue?]
      constructor
      · intro continued
        split at continued
        · rename_i digit found
          rcases induction.mp continued with ⟨digits, each, rfl⟩
          exact ⟨digit :: digits, .cons ((digitIn?_eq_some_iff letters).mp found) each,
            shifted digit digits⟩
        · cases continued
      · rintro ⟨digits, each, rfl⟩
        cases each with
        | @cons _ digit _ digits writes each =>
            rw [(digitIn?_eq_some_iff letters).mpr writes]
            exact induction.mpr ⟨digits, each, (shifted digit digits).symm⟩

theorem digits?_eq_some_iff (letters : base ≤ 16) :
    digits? base characters = some number ↔ characters ≠ [] ∧
      ∃ digits, List.Forall₂ (Writes base) characters digits ∧
        number = Nat.ofDigits base digits.reverse := by
  cases characters with
  | nil => simp [digits?]
  | cons character others => simp [digits?, continue?_eq_some_iff letters]

/-! ## Numerals -/

private theorem not_writes_plus (letters : base ≤ 16) : ¬Writes base '+' digit := by
  refine not_writes letters ?_
  have none' : digit? '+' = none := by decide +kernel
  rw [digitIn?, none']
  rfl

private theorem written_cons_plus_iff (letters : base ≤ 16) :
    Written base ('+' :: characters) number ↔ characters ≠ [] ∧
      ∃ digits, List.Forall₂ (Writes base) characters digits ∧
        number = Nat.ofDigits base digits.reverse := by
  constructor
  · intro written
    cases written with
    | bare some' each =>
        cases each with
        | cons writes each => exact absurd writes (not_writes_plus letters)
    | plus some' each => exact ⟨some', _, each, rfl⟩
  · rintro ⟨some', digits, each, rfl⟩
    exact .plus some' each

private theorem written_iff_of_head (other : ∀ characters, text ≠ '+' :: characters) :
    Written base text number ↔ text ≠ [] ∧
      ∃ digits, List.Forall₂ (Writes base) text digits ∧
        number = Nat.ofDigits base digits.reverse := by
  constructor
  · intro written
    cases written with
    | bare some' each => exact ⟨some', _, each, rfl⟩
    | plus some' each => exact absurd rfl (other _)
  · rintro ⟨some', digits, each, rfl⟩
    exact .bare some' each

/-- Reading a numeral finds its number if there is room for it, and nothing in any other
text. -/
theorem parse?_eq_some_iff (letters : base ≤ 16) :
    parse? base greatest text = some number ↔ Written base text number ∧ number ≤ greatest := by
  unfold parse?
  rw [Option.filter_eq_some_iff, decide_eq_true_iff]
  refine and_congr_left fun _ => ?_
  split
  · rw [digits?_eq_some_iff letters, written_cons_plus_iff letters]
  · rename_i other
    rw [digits?_eq_some_iff letters, written_iff_of_head other]

private theorem exists_writes_of_mem {digits : List Nat}
    (each : List.Forall₂ (Writes base) characters digits) (member : character ∈ characters) :
    ∃ digit, Writes base character digit := by
  induction each with
  | nil => cases member
  | @cons head digit _ _ writes _ induction =>
      cases member with
      | head => exact ⟨digit, writes⟩
      | tail _ later => exact induction later

theorem Written.endsWith (written : Written base text number) :
    ∃ before character digit, text = before ++ [character] ∧ Writes base character digit := by
  have last : ∀ {characters digits}, characters ≠ [] →
      List.Forall₂ (Writes base) characters digits →
      ∃ before character digit, characters = before ++ [character] ∧
        Writes base character digit := by
    intro characters digits some' each
    rcases exists_writes_of_mem each (List.getLast_mem some') with ⟨digit, writes⟩
    exact ⟨_, _, digit, (List.dropLast_append_getLast some').symm, writes⟩
  cases written with
  | bare some' each => exact last some' each
  | plus some' each =>
      rcases last some' each with ⟨before, character, digit, rfl, writes⟩
      exact ⟨'+' :: before, character, digit, rfl, writes⟩

end Numeral

namespace Blank

structure Trims (text inner : List Char) : Prop where
  around : ∃ before after, text = before ++ inner ++ after ∧
    (∀ character ∈ before, isBlank character) ∧ ∀ character ∈ after, isBlank character
  first : ∀ character ∈ inner.head?, ¬isBlank character
  last : ∀ character ∈ inner.getLast?, ¬isBlank character

variable {text inner : List Char}

private theorem dropWhile_eq_self (first : ∀ character ∈ text.head?, ¬isBlank character) :
    text.dropWhile isBlank = text := by
  cases text with
  | nil => rfl
  | cons character others => exact List.dropWhile_cons_of_neg (first character rfl)

theorem Trims.eq (trims : Trims text inner) : trim text = inner := by
  rcases trims.around with ⟨before, after, rfl, blank_before, blank_after⟩
  have last : ∀ character ∈ inner.reverse.head?, ¬isBlank character := by
    rw [List.head?_reverse]
    exact trims.last
  unfold trim
  rw [List.append_assoc, List.dropWhile_append_of_pos blank_before]
  cases inner with
  | nil =>
      rw [List.nil_append, List.dropWhile_eq_nil_iff.mpr blank_after]
      rfl
  | cons character others =>
      have here : ∀ head ∈ (character :: others ++ after).head?, ¬isBlank head := trims.first
      rw [dropWhile_eq_self here, List.reverse_append,
        List.dropWhile_append_of_pos (by simpa using blank_after), dropWhile_eq_self last,
        List.reverse_reverse]

theorem trims_trim (text : List Char) : Trims text (trim text) := by
  have left := List.takeWhile_append_dropWhile (p := isBlank) (l := text)
  have right := congrArg List.reverse
    (List.takeWhile_append_dropWhile (p := isBlank) (l := (text.dropWhile isBlank).reverse))
  rw [List.reverse_append, List.reverse_reverse] at right
  refine ⟨⟨text.takeWhile isBlank,
    ((text.dropWhile isBlank).reverse.takeWhile isBlank).reverse, ?_, ?_, ?_⟩, ?_, ?_⟩
  · rw [List.append_assoc]
    exact (left.symm.trans (congrArg _ right.symm))
  · exact fun character member => List.mem_takeWhile_imp member
  · exact fun character member => List.mem_takeWhile_imp (List.mem_reverse.mp member)
  · intro character first
    have here : character ∈ (text.dropWhile isBlank).head? := by
      rw [← right]
      exact List.mem_head?_append_of_mem_head? first
    have blank := List.head?_dropWhile_not isBlank text
    rw [here] at blank
    simpa using blank
  · intro character last
    unfold trim at last
    rw [List.getLast?_reverse] at last
    have blank := List.head?_dropWhile_not isBlank (text.dropWhile isBlank).reverse
    rw [last] at blank
    simpa using blank

/-- There is one text inside, and trimming finds it. -/
theorem trims_iff : Trims text inner ↔ trim text = inner :=
  ⟨Trims.eq, fun same => same ▸ trims_trim text⟩

end Blank

end ByteStreams
