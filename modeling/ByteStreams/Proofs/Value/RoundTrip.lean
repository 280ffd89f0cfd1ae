import ByteStreams.Proofs.Channel.Loops
import ByteStreams.Proofs.Number.TwosComplement
import ByteStreams.Proofs.Text.Utf8
import ByteStreams.Value.Reader
import ByteStreams.Value.Writer

/-! # Values are read back

Which request reads which item back, and as what, is a relation between the two. Writing
puts the bytes of an item into the sink, and a request that reads the item back takes just
these bytes from the source, however the source cuts them.
-/

namespace ByteStreams

namespace Value

open Channel (Reading Writing)
open Channel.Reading (Always)
open LittleEndian (weight)

/-! ## Widths -/

/-- An integer of `bits` bits has no `width` bytes, and this is what comes of asking for them. -/
inductive TooWide (width bits : Nat) : Fault → Prop
  | refused (wide : bits < width * 8 % UInt64.size) : TooWide width bits (.invalidWidth width bits)
  | passed (wraps : width * 8 % UInt64.size ≤ bits) (wide : 8 < width) :
      TooWide width bits (.beyondWord width)

/-- The product wraps around for no width that a word has. -/
theorem checkWidth_cases (width bits : Nat) :
    (width * 8 ≤ bits ∧ checkWidth width bits = .ok ()) ∨
      ∃ fault, checkWidth width bits = .error fault ∧ TooWide width bits fault := by
  unfold checkWidth
  by_cases refused : bits < width * 8 % UInt64.size
  · exact .inr ⟨_, if_pos refused, .refused refused⟩
  · by_cases wide : 8 < width
    · exact .inr ⟨_, by rw [if_neg refused, if_pos wide], .passed (Nat.not_lt.mp refused) wide⟩
    · have small : width * 8 < UInt64.size :=
        Nat.lt_of_le_of_lt (Nat.mul_le_mul_right 8 (Nat.not_lt.mp wide)) (by decide)
      have fits := Nat.not_lt.mp refused
      rw [Nat.mod_eq_of_lt small] at fits
      exact .inl ⟨fits, by rw [if_neg refused, if_neg wide]⟩

theorem checkWidth_of_fits {width bits : Nat} (most : bits ≤ 64) (fits : width * 8 ≤ bits) :
    checkWidth width bits = .ok () := by
  have few : ¬8 < width := by omega
  have kept := Nat.mod_le (width * 8) UInt64.size
  rw [checkWidth, if_neg (Nat.not_lt.mpr (Nat.le_trans kept fits)), if_neg few]

theorem fits_of_checkWidth {width bits : Nat} (checked : checkWidth width bits = .ok ()) :
    width * 8 ≤ bits := by
  rcases checkWidth_cases width bits with ⟨fits, -⟩ | ⟨fault, refused, -⟩
  · exact fits
  · cases checked.symm.trans refused

theorem TooWide.not_fits {width bits : Nat} {fault : Fault} (wide : TooWide width bits fault)
    (most : bits ≤ 64) : ¬width * 8 ≤ bits := by
  cases wide with
  | refused wide =>
      have kept := Nat.mod_le (width * 8) UInt64.size
      omega
  | passed wraps wide => omega

theorem NarrowKind.bits_le (kind : NarrowKind) : kind.bits ≤ 64 := by
  cases kind <;> decide

/-! ## What reads what -/

def Agree (width : Nat) (written asked : ByteOrder) : Prop := width ≤ 1 ∨ written = asked

def NarrowKind.Gives (width number : Nat) : NarrowKind → Scalar → Prop
  | .unsigned32, .uint32 answer => answer.toNat = number % 256 ^ width
  | .signed32, .int32 answer => answer.toInt = (number : Int).bmod (256 ^ width)
  | .unsigned64, .uint64 answer => answer.toNat = number % 256 ^ width
  | .signed64, .int64 answer => answer.toInt = (number : Int).bmod (256 ^ width)
  | _, _ => False

/-- An item that was written in one order is read back by a request in another, as this
answer, when at most `longest` bytes of content are read. -/
inductive Reads (longest : Nat) (written asked : ByteOrder) : Item → Request → Answer → Prop
  | scalar (value : Scalar) (agree : Agree value.kind.width written asked) :
      Reads longest written asked (.scalar value) (.scalar value.kind) (.scalar value)
  | narrow32 (value : UInt32) {width : Nat} {kind : NarrowKind} {answer : Scalar}
      (fits : width * 8 ≤ 32) (holds : width * 8 ≤ kind.bits)
      (agree : Agree width written asked) (gives : kind.Gives width value.toNat answer) :
      Reads longest written asked (.narrow32 value width) (.narrow kind width) (.scalar answer)
  | narrow64 (value : UInt64) {width : Nat} {kind : NarrowKind} {answer : Scalar}
      (fits : width * 8 ≤ 64) (holds : width * 8 ≤ kind.bits)
      (agree : Agree width written asked) (gives : kind.Gives width value.toNat answer) :
      Reads longest written asked (.narrow64 value width) (.narrow kind width) (.scalar answer)
  | text (value : String) (same : written = asked)
      (told : (Utf8.encode value).length ≤ longestContent)
      (short : (Utf8.encode value).length ≤ longest) :
      Reads longest written asked (.text value) .text (.text value)
  | integer (value : Int) (same : written = asked)
      (told : (TwosComplement.encode value).length ≤ longestContent)
      (short : (TwosComplement.encode value).length ≤ longest) :
      Reads longest written asked (.integer value) .integer (.integer value)
  | raw (data : Bytes) : Reads longest written asked (.raw data) (.raw data.length) (.raw data)
  | skip {item : Item} {bytes : Bytes} (lies : item.encode written = .ok bytes) :
      Reads longest written asked item (.skip bytes.length) .skipped

def Item.contentLength : Item → Nat
  | .text value => (Utf8.encode value).length
  | .integer value => (TwosComplement.encode value).length
  | .scalar _ | .narrow32 _ _ | .narrow64 _ _ | .raw _ => 0

private theorem fits_of_pieces {width bits : Nat} {make : Unit → List Bytes} {bytes : Bytes}
    (lies : ((checkWidth width bits).map make).map List.flatten = .ok bytes) :
    width * 8 ≤ bits := by
  rcases checkWidth_cases width bits with ⟨fits, -⟩ | ⟨fault, refused, -⟩
  · exact fits
  · rw [refused] at lies
    cases lies

theorem told_of_lengthLed {order : ByteOrder} {content bytes : Bytes}
    (lies : (lengthLed order content).map List.flatten = .ok bytes) :
    content.length ≤ longestContent := by
  by_cases long : longestContent < content.length
  · rw [lengthLed, if_pos long] at lies
    cases lies
  · exact Nat.le_of_not_lt long

/-- Whatever item can be written, if no more content than that is read, a request reads back. -/
theorem exists_reads {longest : Nat} {order : ByteOrder} {item : Item} {bytes : Bytes}
    (lies : item.encode order = .ok bytes) (short : item.contentLength ≤ longest) :
    ∃ request answer, Reads longest order order item request answer ∧ answer ≠ .skipped := by
  cases item with
  | scalar value => exact ⟨_, _, .scalar value (.inr rfl), nofun⟩
  | narrow32 value width =>
      have fits := fits_of_pieces lies
      have gives : NarrowKind.unsigned32.Gives width value.toNat
          (.uint32 (UInt32.ofNat (value.toNat % 256 ^ width))) :=
        UInt32.toNat_ofNat_of_lt (Nat.lt_of_le_of_lt (Nat.mod_le ..) value.toNat_lt)
      exact ⟨.narrow .unsigned32 width, _, .narrow32 value fits fits (.inr rfl) gives, nofun⟩
  | narrow64 value width =>
      have fits := fits_of_pieces lies
      have gives : NarrowKind.unsigned64.Gives width value.toNat
          (.uint64 (UInt64.ofNat (value.toNat % 256 ^ width))) :=
        UInt64.toNat_ofNat_of_lt (Nat.lt_of_le_of_lt (Nat.mod_le ..) value.toNat_lt)
      exact ⟨.narrow .unsigned64 width, _, .narrow64 value fits fits (.inr rfl) gives, nofun⟩
  | text value => exact ⟨_, _, .text value rfl (told_of_lengthLed lies) short, nofun⟩
  | integer value => exact ⟨_, _, .integer value rfl (told_of_lengthLed lies) short, nofun⟩
  | raw data => exact ⟨_, _, .raw data, nofun⟩

/-! ## Writing -/

theorem writePieces_puts (pieces : List Bytes) :
    (writePieces pieces).Puts pieces.flatten (.ok ()) := by
  induction pieces with
  | nil => exact .done _
  | cons piece pieces induction => exact .writeAll induction

theorem write_puts (settings : Settings) {item : Item} {order : Option ByteOrder}
    {bytes : Bytes} (lies : item.encode (settings.effective order) = .ok bytes) :
    (write settings item order).Puts bytes (.ok ()) := by
  unfold Item.encode at lies
  unfold write
  cases found : item.pieces (settings.effective order) with
  | error fault =>
      rw [found] at lies
      cases lies
  | ok pieces =>
      rw [found] at lies
      cases lies
      exact writePieces_puts pieces

theorem flush_puts : flush.Puts [] (.ok ()) :=
  .settle (.done _)

/-! ## Reading bytes -/

/-- The program reads just these bytes, as this. -/
def Takes {α : Type} (program : Reading (Except Failure α)) (bytes : Bytes) (value : α) : Prop :=
  ∀ more, Always (fun result rest => result = .ok value ∧ rest = more) program (bytes ++ more)

theorem readFully_takes (bytes : Bytes) : Takes (readFully bytes.length) bytes bytes := by
  intro more
  apply (Reading.gather_always bytes more).map
  rintro ⟨found, how⟩ rest ⟨same, left⟩
  cases same
  exact ⟨rfl, left⟩

theorem skipFully_takes (bytes : Bytes) : Takes (skipFully bytes.length) bytes () := by
  intro more
  apply (Reading.skip_always bytes more).map
  rintro ⟨skipped, how⟩ rest ⟨same, left⟩
  cases same
  exact ⟨rfl, left⟩

theorem readAs_takes {α : Type} {make : Bytes → Except Fault α} {bytes : Bytes} {value : α}
    (makes : make bytes = .ok value) : Takes (readAs bytes.length make) bytes value := by
  intro more
  apply (readFully_takes bytes more).map
  rintro result rest ⟨rfl, left⟩
  refine ⟨?_, left⟩
  simp only [makes]
  rfl

/-! ## Lengths -/

@[simp] theorem length_lengthBytes (order : ByteOrder) (length : Nat) :
    (lengthBytes order length).length = 4 := by
  simp [lengthBytes, Scalar.encode, Scalar.kind, ScalarKind.width]

theorem value_lengthBytes (order : ByteOrder) {length : Nat} (told : length ≤ longestContent) :
    (UInt32.ofNat (order.value (lengthBytes order length))).toInt32.toInt = length := by
  have readBack := Scalar.decode_encode order (.int32 (Int32.ofNat length))
  have same : (UInt32.ofNat (order.value (lengthBytes order length))).toInt32 =
      Int32.ofNat length := by
    simpa [Scalar.decode, Scalar.ofBits, Scalar.kind, lengthBytes] using readBack
  rw [same]
  apply Int32.toInt_ofNat_of_lt
  unfold longestContent at told
  omega

theorem readLengthLed_takes {α : Type} {settings : Settings} {order : ByteOrder}
    {make : Bytes → Except Fault α} {content : Bytes} {value : α}
    (told : content.length ≤ longestContent) (short : content.length ≤ settings.longest)
    (makes : make content = .ok value) :
    Takes (readLengthLed settings order make) (lengthBytes order content.length ++ content)
      value := by
  intro more
  rw [List.append_assoc]
  have first := readFully_takes (lengthBytes order content.length) (content ++ more)
  rw [length_lengthBytes] at first
  apply first.bind
  rintro result rest ⟨rfl, rfl⟩
  simp only [value_lengthBytes order told]
  rw [if_pos ⟨Int.natCast_nonneg _, Int.ofNat_le.mpr short⟩]
  exact readAs_takes makes more

/-! ## Numbers -/

theorem arrange_of_short (order : ByteOrder) {digits : Bytes} (short : digits.length ≤ 1) :
    order.arrange digits = digits := by
  cases order with
  | little => rfl
  | big =>
      cases digits with
      | nil => rfl
      | cons digit others =>
          have nothing : others = [] := by
            rw [List.length_cons] at short
            exact List.eq_nil_of_length_eq_zero (by omega)
          subst nothing
          rfl

theorem encode_of_agree {width : Nat} {written asked : ByteOrder}
    (agree : Agree width written asked) (number : Nat) :
    written.encode width number = asked.encode width number := by
  rcases agree with few | rfl
  · have short : (LittleEndian.encode width number).length ≤ 1 := by
      rw [LittleEndian.length_encode]
      exact few
    rw [ByteOrder.encode, ByteOrder.encode, arrange_of_short _ short, arrange_of_short _ short]
  · rfl

theorem value_encode_of_agree {width : Nat} {written asked : ByteOrder}
    (agree : Agree width written asked) (number : Nat) :
    asked.value (written.encode width number) = number % weight width := by
  rw [encode_of_agree agree, ByteOrder.value_encode]

private theorem toNat_word {width : Nat} (few : width ≤ 8) (number : Nat) :
    (UInt64.ofNat (number % weight width)).toNat = number % weight width := by
  have positive : 0 < weight width := Nat.pow_pos (by decide)
  have below := Nat.mod_lt number positive
  have within : weight width ≤ weight 8 := Nat.pow_le_pow_right (by decide) few
  exact UInt64.toNat_ofNat_of_lt (Nat.lt_of_lt_of_le below within)

private theorem toInt_word {width : Nat} (few : width ≤ 8) (number : Nat) :
    (TwosComplement.signExtend width (UInt64.ofNat (number % weight width))).toInt =
      (number : Int).bmod (weight width) := by
  rw [TwosComplement.toInt_signExtend few, toNat_word few, Int.natCast_emod, Int.emod_bmod]

theorem NarrowKind.extend_eq {kind : NarrowKind} {width number : Nat} {answer : Scalar}
    (holds : width * 8 ≤ kind.bits) (gives : kind.Gives width number answer) :
    kind.extend width (UInt64.ofNat (number % weight width)) = answer := by
  cases kind with
  | unsigned32 =>
      cases answer with
      | uint32 answer =>
          have few : width ≤ 4 := by
            simp only [NarrowKind.bits] at holds
            omega
          have positive : 0 < weight width := Nat.pow_pos (by decide)
          have within : weight width ≤ 2 ^ 32 := Nat.pow_le_pow_right (by decide) few
          have small := Nat.lt_of_lt_of_le (Nat.mod_lt number positive) within
          simp only [NarrowKind.extend, Scalar.uint32.injEq]
          apply UInt32.toNat_inj.mp
          rw [UInt64.toNat_toUInt32, toNat_word (by omega), Nat.mod_eq_of_lt small]
          exact gives.symm
      | _ => exact gives.elim
  | signed32 =>
      cases answer with
      | int32 answer =>
          have few : width ≤ 4 := by
            simp only [NarrowKind.bits] at holds
            omega
          have positive : 0 < weight width := Nat.pow_pos (by decide)
          have within : weight width ≤ 2 ^ 32 := Nat.pow_le_pow_right (by decide) few
          have low : -((weight width : Int) / 2) ≤ (number : Int).bmod (weight width) :=
            Int.le_bmod positive
          have high : (number : Int).bmod (weight width) < ((weight width : Int) + 1) / 2 :=
            Int.bmod_lt positive
          simp only [NarrowKind.extend, Scalar.int32.injEq]
          apply Int32.toInt_inj.mp
          rw [Int64.toInt_toInt32, toInt_word (by omega),
            Int.bmod_eq_of_le (by omega) (by omega)]
          exact gives.symm
      | _ => exact gives.elim
  | unsigned64 =>
      cases answer with
      | uint64 answer =>
          simp only [NarrowKind.extend, Scalar.uint64.injEq]
          apply UInt64.toNat_inj.mp
          rw [toNat_word (by simp only [NarrowKind.bits] at holds; omega)]
          exact gives.symm
      | _ => exact gives.elim
  | signed64 =>
      cases answer with
      | int64 answer =>
          simp only [NarrowKind.extend, Scalar.int64.injEq]
          apply Int64.toInt_inj.mp
          rw [toInt_word (by simp only [NarrowKind.bits] at holds; omega)]
          exact gives.symm
      | _ => exact gives.elim

/-! ## Items -/

theorem Scalar.decode_encode_of_agree {written asked : ByteOrder} (value : Scalar)
    (agree : Agree value.kind.width written asked) :
    Scalar.decode asked value.kind (value.encode written) = value := by
  rw [Scalar.encode, encode_of_agree agree]
  exact Scalar.decode_encode asked value

theorem NarrowKind.decode_encode {kind : NarrowKind} {width number : Nat} {answer : Scalar}
    {written asked : ByteOrder} (agree : Agree width written asked)
    (holds : width * 8 ≤ kind.bits) (gives : kind.Gives width number answer) :
    kind.decode asked (written.encode width number) = answer := by
  rw [NarrowKind.decode, ByteOrder.length_encode, value_encode_of_agree agree]
  exact NarrowKind.extend_eq holds gives

theorem readNarrow_takes {settings : Settings} {order : Option ByteOrder} {kind : NarrowKind}
    {width number : Nat} {answer : Scalar} {written : ByteOrder}
    (agree : Agree width written (settings.effective order))
    (holds : width * 8 ≤ kind.bits) (gives : kind.Gives width number answer) :
    Takes (read settings (.narrow kind width) order) (written.encode width number)
      (.scalar answer) := by
  have takes : Takes
      (readAs (written.encode width number).length fun bytes =>
        .ok (.scalar (kind.decode (settings.effective order) bytes)))
      (written.encode width number) (Answer.scalar answer) :=
    readAs_takes (by simp only [NarrowKind.decode_encode agree holds gives])
  rw [ByteOrder.length_encode] at takes
  simpa only [read, checkWidth_of_fits kind.bits_le holds] using takes

theorem lengthLed_of_told {order : ByteOrder} {content : Bytes}
    (told : content.length ≤ longestContent) :
    lengthLed order content = .ok [lengthBytes order content.length, content] :=
  if_neg (Nat.not_lt.mpr told)

theorem Reads.takes (settings : Settings) (order : Option ByteOrder) {written : ByteOrder}
    {item : Item} {request : Request} {answer : Answer}
    (reads : Reads settings.longest written (settings.effective order) item request answer) :
    ∃ bytes, item.encode written = .ok bytes ∧
      Takes (read settings request order) bytes answer := by
  cases reads with
  | scalar value agree =>
      have takes : Takes
          (readAs (value.encode written).length fun bytes =>
            .ok (.scalar (Scalar.decode (settings.effective order) value.kind bytes)))
          (value.encode written) (Answer.scalar value) :=
        readAs_takes (by simp only [Scalar.decode_encode_of_agree value agree])
      rw [Scalar.encode, ByteOrder.length_encode] at takes
      exact ⟨value.encode written, by simp [Item.encode, Item.pieces, Except.map], takes⟩
  | narrow32 value fits holds agree gives =>
      refine ⟨_, ?_, readNarrow_takes agree holds gives⟩
      simp [Item.encode, Item.pieces, checkWidth_of_fits (by decide) fits, Except.map]
  | narrow64 value fits holds agree gives =>
      refine ⟨_, ?_, readNarrow_takes agree holds gives⟩
      simp [Item.encode, Item.pieces, checkWidth_of_fits (by decide) fits, Except.map]
  | text value same told short =>
      subst same
      refine ⟨_, ?_, readLengthLed_takes told short ?_⟩
      · simp [Item.encode, Item.pieces, lengthLed_of_told told, Except.map]
      · simp only [Utf8.decode_encode]
        rfl
  | integer value same told short =>
      subst same
      refine ⟨_, ?_, readLengthLed_takes told short ?_⟩
      · simp [Item.encode, Item.pieces, lengthLed_of_told told, Except.map]
      · simp only [TwosComplement.value_encode]
  | raw data => exact ⟨data, by simp [Item.encode, Item.pieces, Except.map], readAs_takes rfl⟩
  | @skip _ bytes lies =>
      refine ⟨bytes, lies, ?_⟩
      intro more
      apply (skipFully_takes bytes more).map
      rintro result rest ⟨rfl, left⟩
      exact ⟨rfl, left⟩

end Value

end ByteStreams
