import ByteStreams.Proofs.Number.SignExtension
import ByteStreams.Proofs.Value.Layout
import ByteStreams.Proofs.Value.Skipping

/-! # Narrow integers wrap around

The lowest bytes of an integer are read back as what they are of the integer, unsigned or in
their signed range, whatever the byte order. At its full width a narrow integer is the scalar
of that size.
-/

namespace ByteStreams

namespace Value

open Channel (Sink Source)
open LittleEndian (weight)
open TwosComplement (SignedLow signExtend signExtend? toInt_signExtend toInt_toInt32_signExtend)

/-! ## There and back -/

/-- Through any channels that do not fail, the item goes as these bytes, and the request gets
this answer of them. -/
structure ReadsBack (settings : Settings) (own : Option ByteOrder) (item : Item)
    (request : Request) (answer : Answer) (bytes : Bytes) : Prop where
  written : ∀ sink : Sink, sink.Faultless → ∃ after,
    (write settings item own).run sink = (.ok (), after) ∧ after.accepted = sink.accepted ++ bytes
  readBack : ∀ (source : Source) (more : Bytes), source.Faultless →
    source.remaining = bytes ++ more → ∃ rest,
      (read settings request own).run source = (.ok answer, rest) ∧ rest.remaining = more

theorem Reads.readsBack {settings : Settings} {own : Option ByteOrder} {item : Item}
    {request : Request} {answer : Answer} {bytes : Bytes}
    (reads : Reads settings.longest (settings.effective own) (settings.effective own) item request
      answer) (encoded : item.encode (settings.effective own) = .ok bytes) :
    ReadsBack settings own item request answer bytes := by
  rcases reads.takes settings own with ⟨found, lies, takes⟩
  cases encoded.symm.trans lies
  constructor
  · intro sink faultless
    rcases (write_puts settings lies).run faultless with ⟨after, run, -, accepted⟩
    exact ⟨after, run, accepted⟩
  · intro source more faultless remaining
    have always := takes more
    rw [← remaining] at always
    rcases always.run faultless with ⟨⟨result, left⟩, -⟩
    exact ⟨_, Prod.ext result rfl, left⟩

/-! ## Wrapping around -/

def NarrowKind.full : NarrowKind → ScalarKind
  | .unsigned32 => .uint32
  | .signed32 => .int32
  | .unsigned64 => .uint64
  | .signed64 => .int64

/-- These bytes are the lowest `width` ones of a number, and the item that goes as them is read
back as what they are of the number, by the one kind unsigned and by the other signed. -/
structure Wraps (settings : Settings) (own : Option ByteOrder) (item : Item) (width number : Nat)
    (unsigned signed : NarrowKind) (bytes : Bytes) : Prop where
  unsigned : ∃ answer,
    ReadsBack settings own item (.narrow unsigned width) (.scalar answer) bytes ∧
    answer.kind = unsigned.full ∧ answer.number = (number % 2 ^ (8 * width) : Nat)
  signed : ∃ answer,
    ReadsBack settings own item (.narrow signed width) (.scalar answer) bytes ∧
    answer.kind = signed.full ∧ ∀ other, SignedLow width number other ↔ other = answer.number
  encoded : item.encode (settings.effective own) = .ok bytes
  reversed : ∃ digits, digits.length = width ∧ item.encode .little = .ok digits ∧
    item.encode .big = .ok digits.reverse

theorem weight_le_of_holds {width bits : Nat} (holds : width * 8 ≤ bits) :
    weight width ≤ 2 ^ bits := by
  rw [TwosComplement.weight_eq_pow]
  exact Nat.pow_le_pow_right Nat.two_pos (by omega)

theorem exists_unsigned {kind : NarrowKind} (unsigned : kind = .unsigned32 ∨ kind = .unsigned64)
    {width : Nat} (holds : width * 8 ≤ kind.bits) (number : Nat) :
    ∃ answer, kind.Gives width number answer ∧ answer.kind = kind.full ∧
      answer.number = (number % weight width : Nat) := by
  have positive : 0 < weight width := Nat.pow_pos (by decide)
  have below := Nat.lt_of_lt_of_le (Nat.mod_lt number positive) (weight_le_of_holds holds)
  rcases unsigned with rfl | rfl
  · have same : (UInt32.ofNat (number % weight width)).toNat = number % weight width :=
      UInt32.toNat_ofNat_of_lt below
    exact ⟨.uint32 (UInt32.ofNat (number % weight width)), same, rfl, congrArg Int.ofNat same⟩
  · have same : (UInt64.ofNat (number % weight width)).toNat = number % weight width :=
      UInt64.toNat_ofNat_of_lt below
    exact ⟨.uint64 (UInt64.ofNat (number % weight width)), same, rfl, congrArg Int.ofNat same⟩

theorem exists_signed {kind : NarrowKind} (signed : kind = .signed32 ∨ kind = .signed64)
    {width : Nat} (holds : width * 8 ≤ kind.bits) (number : Nat) :
    ∃ answer, kind.Gives width number answer ∧ answer.kind = kind.full ∧
      answer.number = (number : Int).bmod (weight width) := by
  have range := TwosComplement.signedLow_iff.mpr (rfl : (number : Int).bmod (weight width) = _)
  have within : (2 : Int) ^ (8 * width) ≤ 2 ^ kind.bits := by
    exact_mod_cast Nat.pow_le_pow_right Nat.two_pos (by omega : 8 * width ≤ kind.bits)
  have low := range.low
  have high := range.high
  rcases signed with rfl | rfl
  · simp only [NarrowKind.bits] at within
    have same : (Int32.ofInt ((number : Int).bmod (weight width))).toInt =
        (number : Int).bmod (weight width) :=
      Int32.toInt_ofInt_of_le (by omega) (by omega)
    exact ⟨.int32 (Int32.ofInt ((number : Int).bmod (weight width))), same, rfl, same⟩
  · simp only [NarrowKind.bits] at within
    have same : (Int64.ofInt ((number : Int).bmod (weight width))).toInt =
        (number : Int).bmod (weight width) :=
      Int64.toInt_ofInt_of_le (by omega) (by omega)
    exact ⟨.int64 (Int64.ofInt ((number : Int).bmod (weight width))), same, rfl, same⟩

theorem exists_wraps {settings : Settings} {own : Option ByteOrder} {item : Item}
    {width number : Nat} {unsigned signed : NarrowKind}
    (isUnsigned : unsigned = .unsigned32 ∨ unsigned = .unsigned64)
    (isSigned : signed = .signed32 ∨ signed = .signed64)
    (first : width * 8 ≤ unsigned.bits) (second : width * 8 ≤ signed.bits)
    (lies : ∀ order, item.encode order = .ok (order.encode width number))
    (reads : ∀ kind answer, width * 8 ≤ kind.bits → kind.Gives width number answer →
      Reads settings.longest (settings.effective own) (settings.effective own) item
        (.narrow kind width) (.scalar answer)) :
    ∃ bytes, Wraps settings own item width number unsigned signed bytes := by
  have encoded := lies (settings.effective own)
  rcases exists_unsigned isUnsigned first number with ⟨low, gives, sameKind, same⟩
  rcases exists_signed isSigned second number with ⟨extended, givesSigned, sameSigned, range⟩
  rw [TwosComplement.weight_eq_pow] at same
  refine ⟨_, ⟨low, (reads _ _ first gives).readsBack encoded, sameKind, same⟩,
    ⟨extended, (reads _ _ second givesSigned).readsBack encoded, sameSigned, ?_⟩, encoded,
    ⟨_, ByteOrder.length_encode .little width number, lies .little, ?_⟩⟩
  · intro other
    rw [range]
    exact TwosComplement.signedLow_iff
  · rw [ByteOrder.encode_little_eq_reverse, List.reverse_reverse]
    exact lies .big

/-! ## The full width -/

theorem readAs_run_congr {α : Type} {count : Nat} {make other : Bytes → Except Fault α}
    (same : ∀ bytes, bytes.length = count → make bytes = other bytes) (source : Source) :
    (readAs count make).run source = (readAs count other).run source := by
  have obtains := obtains_of_fills (Source.fetch_fetched count source.script).fills
  simp only [readAs, Channel.Reading.map, Channel.Reading.run_bind, readFully_run,
    Channel.Reading.run]
  generalize (ending count _ _).map _ = outcome at obtains ⊢
  cases obtains with
  | whole all => simp only [same _ all]
  | short few => rfl
  | failed few final => rfl

theorem NarrowKind.decode_full (kind : NarrowKind) (order : ByteOrder) {bytes : Bytes}
    (whole : bytes.length = kind.full.width) :
    kind.decode order bytes = Scalar.decode order kind.full bytes := by
  have below := order.value_lt bytes
  rw [NarrowKind.decode, Scalar.decode]
  rw [whole] at below ⊢
  generalize order.value bytes = number at below ⊢
  cases kind with
  | unsigned32 => exact congrArg Scalar.uint32 (UInt64.toUInt32_ofNat' number)
  | signed32 =>
      have word : (UInt64.ofNat number).toNat = number :=
        UInt64.toNat_ofNat_of_lt (Nat.lt_trans below (by decide))
      apply congrArg Scalar.int32
      apply Int32.toInt_inj.mp
      rw [toInt_toInt32_signExtend (by decide), toInt_signExtend (by decide), word]
      exact Int32.toInt_ofNat'.symm
  | unsigned64 => rfl
  | signed64 =>
      have word : (UInt64.ofNat number).toNat = number := UInt64.toNat_ofNat_of_lt below
      apply congrArg Scalar.int64
      apply Int64.toInt_inj.mp
      rw [toInt_signExtend (by decide), word]
      exact Int64.toInt_ofNat'.symm

theorem read_full (settings : Settings) (own : Option ByteOrder) (kind : NarrowKind)
    (source : Source) :
    (read settings (.narrow kind kind.full.width) own).run source =
      (read settings (.scalar kind.full) own).run source := by
  have fits : kind.full.width * 8 ≤ kind.bits := by cases kind <;> decide
  simp only [read, checkWidth_of_fits kind.bits_le fits]
  apply readAs_run_congr
  intro bytes whole
  rw [kind.decode_full _ whole]

structure WritesFull (settings : Settings) (own : Option ByteOrder) (long : UInt64)
    (short : UInt32) : Prop where
  unsigned64 : write settings (.narrow64 long 8) own = write settings (.scalar (.uint64 long)) own
  signed64 : write settings (.narrow64 long 8) own =
    write settings (.scalar (.int64 long.toInt64)) own
  unsigned32 : write settings (.narrow32 short 4) own = write settings (.scalar (.uint32 short)) own
  signed32 : write settings (.narrow32 short 4) own =
    write settings (.scalar (.int32 short.toInt32)) own

theorem writesFull (settings : Settings) (own : Option ByteOrder) (long : UInt64)
    (short : UInt32) : WritesFull settings own long short :=
  ⟨rfl, rfl, rfl, rfl⟩

/-! ## Narrow integers -/

/-- In either byte order, the lowest bytes of an integer of 64 or 32 bits go to a sink and come
back as the integer modulo what they can tell, or as the one number of their signed range that
agrees with it, and the two orders are each other's reverse. The 64-bit extension of at most
four bytes loses nothing as a 32-bit number, no shift of it reaches 64, and at the full width
narrow integers and scalars are written and read alike. -/
theorem narrow_integers_wrap (settings : Settings) (own : Option ByteOrder) (long : UInt64)
    (short : UInt32) {width few : Nat} (fits : width ≤ 8) (shortFits : few ≤ 4) :
    (∃ bytes, Wraps settings own (.narrow64 long width) width long.toNat .unsigned64 .signed64
      bytes) ∧
    (∃ bytes, Wraps settings own (.narrow32 short few) few short.toNat .unsigned32 .signed32
      bytes) ∧
    (∀ word, (signExtend few word).toInt32.toInt = (signExtend few word).toInt) ∧
    (∀ (kind : NarrowKind) (asked : Nat) (word : UInt64), checkWidth asked kind.bits = .ok () →
      signExtend? asked word = some (signExtend asked word)) ∧
    WritesFull settings own long short ∧
    ∀ (kind : NarrowKind) (source : Source),
      (read settings (.narrow kind kind.full.width) own).run source =
        (read settings (.scalar kind.full) own).run source := by
  have longFits : width * 8 ≤ 64 := by omega
  have fewFits : few * 8 ≤ 32 := by omega
  refine ⟨?_, ?_, toInt_toInt32_signExtend shortFits, ?_, writesFull settings own long short,
    read_full settings own⟩
  · exact exists_wraps (.inr rfl) (.inr rfl) longFits longFits
      (fun order => encode_narrow64 order long longFits)
      fun kind answer holds gives => .narrow64 long longFits holds (.inr rfl) gives
  · exact exists_wraps (.inl rfl) (.inl rfl) fewFits fewFits
      (fun order => encode_narrow32 order short fewFits)
      fun kind answer holds gives => .narrow32 short fewFits holds (.inr rfl) gives
  · intro kind asked word checked
    have most := kind.bits_le
    have holds := fits_of_checkWidth checked
    exact TwosComplement.signExtend?_eq (by omega) word

/-- Three bytes in an order of their own, through channels that move one at a time. -/
theorem narrow_integers_wrap_below_zero :
    let sink : Sink := ⟨[.accept 1, .refuse (.bare .interrupted)], [], []⟩
    let source : Source := ⟨[.ok [1], .error (.bare .interrupted), .ok [0, 0x80, 9]]⟩
    3 ≤ 8 ∧ 2 ≤ 4 ∧ sink.Faultless ∧ source.Faultless ∧ ∃ after rest,
      (write .default (.narrow64 0x1234800001 3) (some .little)).run sink = (.ok (), after) ∧
      after.accepted = [1, 0, 0x80] ∧
      (read .default (.narrow .signed64 3) (some .little)).run source =
        (.ok (.scalar (.int64 (-8388607))), rest) ∧
      rest.remaining = [9] := by
  intro sink source
  have sinkFaultless : sink.Faultless := by
    constructor <;> simp [sink, Channel.Reply.Faultless, Channel.Failure.isInterruption,
      Channel.Failure.kind]
  have sourceFaultless : source.Faultless := by
    simp [source, Source.Faultless, Channel.Failure.isInterruption, Channel.Failure.kind]
  rcases narrow_integers_wrap .default (some .little) 0x1234800001 0xFFFF7FFF
    (by decide : 3 ≤ 8) (by decide : 2 ≤ 4) with ⟨⟨bytes, wraps⟩, -⟩
  have low : (Item.narrow64 0x1234800001 3).encode .little = .ok [1, 0, 0x80] := rfl
  cases low.symm.trans wraps.encoded
  rcases wraps.signed with ⟨answer, back, kind, range⟩
  have number := (range (-8388607)).mp ⟨by decide, by decide, by decide⟩
  cases answer with
  | int64 value =>
      have same : value = -8388607 := Int64.toInt_inj.mp number.symm
      subst same
      rcases back.written sink sinkFaultless with ⟨after, run, accepted⟩
      rcases back.readBack source [9] sourceFaultless (by decide) with ⟨rest, ran, left⟩
      exact ⟨by decide, by decide, sinkFaultless, sourceFaultless, after, rest, run, accepted, ran,
        left⟩
  | _ => cases kind

end Value

end ByteStreams
