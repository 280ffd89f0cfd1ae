import ByteStreams.Proofs.Number.TwosComplement
import ByteStreams.Proofs.Value.RoundTrip

/-! # How items lie in bytes

The format of each kind of item, said on the numbers that its bytes form. A scalar lies in
two's complement or as its bits, text and integers follow their length, and an integer takes
the fewest bytes that hold it. The bytes that an item is written as are the ones of its
format.
-/

namespace ByteStreams

namespace Value

open LittleEndian (weight)

/-! ## Formats -/

/-- The number that a scalar is. Floating-point numbers are their bits. -/
def Scalar.number : Scalar → Int
  | .uint8 value => value.toNat
  | .int8 value => value.toInt
  | .uint16 value => value.toNat
  | .int16 value => value.toInt
  | .uint32 value => value.toNat
  | .int32 value => value.toInt
  | .uint64 value => value.toNat
  | .int64 value => value.toInt
  | .bool value => if value then 1 else 0
  | .binary32 bits => bits.toNat
  | .binary64 bits => bits.toNat

/-- The lowest `width` bytes of a number, in two's complement if it is negative. -/
structure Holds (order : ByteOrder) (width : Nat) (number : Int) (bytes : Bytes) : Prop where
  length_eq : bytes.length = width
  value_eq : (order.value bytes : Int) = number % (256 ^ width : Nat)

def StandsFor (number : Int) (bytes : Bytes) : Prop :=
  bytes ≠ [] ∧ (ByteOrder.big.value bytes : Int).bmod (256 ^ bytes.length) = number

structure Led (order : ByteOrder) (content bytes : Bytes) : Prop where
  told : content.length ≤ longestContent
  joined : ∃ lead, Holds order 4 content.length lead ∧ bytes = lead ++ content

/-- The format of each kind of item. -/
inductive Lies (order : ByteOrder) : Item → Bytes → Prop
  | scalar {value : Scalar} {bytes : Bytes}
      (holds : Holds order value.kind.width value.number bytes) :
      Lies order (.scalar value) bytes
  | narrow32 {value : UInt32} {width : Nat} {bytes : Bytes} (fits : width ≤ 4)
      (holds : Holds order width value.toNat bytes) : Lies order (.narrow32 value width) bytes
  | narrow64 {value : UInt64} {width : Nat} {bytes : Bytes} (fits : width ≤ 8)
      (holds : Holds order width value.toNat bytes) : Lies order (.narrow64 value width) bytes
  | text {value : String} {bytes : Bytes} (led : Led order (Utf8.encode value) bytes) :
      Lies order (.text value) bytes
  | integer {value : Int} {content bytes : Bytes} (stands : StandsFor value content)
      (fewest : ∀ other, StandsFor value other → content.length ≤ other.length)
      (led : Led order content bytes) : Lies order (.integer value) bytes
  | raw (data : Bytes) : Lies order (.raw data) data

/-- Items that have no format, and why. -/
inductive Unfit : Item → Fault → Prop
  | narrow32 (value : UInt32) {width : Nat} {fault : Fault} (wide : TooWide width 32 fault) :
      Unfit (.narrow32 value width) fault
  | narrow64 (value : UInt64) {width : Nat} {fault : Fault} (wide : TooWide width 64 fault) :
      Unfit (.narrow64 value width) fault
  | text (value : String) (long : longestContent < (Utf8.encode value).length) :
      Unfit (.text value) (.invalidLength (Utf8.encode value).length longestContent)
  | integer (value : Int) (long : longestContent < (TwosComplement.encode value).length) :
      Unfit (.integer value)
        (.invalidLength (TwosComplement.encode value).length longestContent)

/-! ## Numbers -/

theorem toNat_eq_emod {width : Nat} (bits : BitVec width) :
    (bits.toNat : Int) = bits.toInt % (2 ^ width : Nat) := by
  rw [BitVec.toInt_eq_toNat_bmod, Int.bmod_emod]
  exact (Int.emod_eq_of_lt (Int.natCast_nonneg _) (Int.ofNat_lt.mpr bits.isLt)).symm

theorem natCast_emod_weight (number width : Nat) :
    ((number % weight width : Nat) : Int) = (number : Int) % (256 ^ width : Nat) := by
  rw [Int.natCast_emod]
  congr 1

theorem Scalar.bits_eq (scalar : Scalar) :
    (scalar.bits : Int) = scalar.number % (256 ^ scalar.kind.width : Nat) := by
  have unsigned {number width : Nat} (below : number < weight width) :
      (number : Int) = (number : Int) % (256 ^ width : Nat) := by
    rw [← natCast_emod_weight, Nat.mod_eq_of_lt below]
  cases scalar with
  | uint8 value => exact unsigned value.toNat_lt
  | int8 value => exact toNat_eq_emod value.toBitVec
  | uint16 value => exact unsigned value.toNat_lt
  | int16 value => exact toNat_eq_emod value.toBitVec
  | uint32 value => exact unsigned value.toNat_lt
  | int32 value => exact toNat_eq_emod value.toBitVec
  | uint64 value => exact unsigned value.toNat_lt
  | int64 value => exact toNat_eq_emod value.toBitVec
  | bool value => cases value <;> rfl
  | binary32 bits => exact unsigned bits.toNat_lt
  | binary64 bits => exact unsigned bits.toNat_lt

theorem holds_encode (order : ByteOrder) (width number : Nat) :
    Holds order width number (order.encode width number) where
  length_eq := ByteOrder.length_encode ..
  value_eq := by rw [ByteOrder.value_encode, natCast_emod_weight]

theorem Scalar.holds_encode (order : ByteOrder) (scalar : Scalar) :
    Holds order scalar.kind.width scalar.number (scalar.encode order) where
  length_eq := ByteOrder.length_encode ..
  value_eq := by rw [encode, ByteOrder.value_encode, Nat.mod_eq_of_lt scalar.bits_lt, bits_eq]

theorem eq_of_value_eq (order : ByteOrder) {first second : Bytes}
    (lengths : first.length = second.length) (values : order.value first = order.value second) :
    first = second := by
  rw [← ByteOrder.encode_value order first, ← ByteOrder.encode_value order second, lengths,
    values]

theorem Holds.unique {order : ByteOrder} {width : Nat} {number : Int} {first second : Bytes}
    (holds : Holds order width number first) (again : Holds order width number second) :
    first = second := by
  refine eq_of_value_eq order (holds.length_eq.trans again.length_eq.symm) ?_
  exact Int.ofNat_inj.mp (holds.value_eq.trans again.value_eq.symm)

/-! ## Integers of any size -/

theorem standsFor_iff {number : Int} {bytes : Bytes} :
    StandsFor number bytes ↔ bytes ≠ [] ∧ TwosComplement.value bytes = number := by
  rw [StandsFor, TwosComplement.value_eq]
  rfl

theorem StandsFor.minimalWidth_le {number : Int} {bytes : Bytes}
    (stands : StandsFor number bytes) : TwosComplement.minimalWidth number ≤ bytes.length := by
  rw [← stands.2]
  apply TwosComplement.minimalWidth_bmod_le
  simpa using stands.1

theorem standsFor_encode (number : Int) : StandsFor number (TwosComplement.encode number) := by
  refine standsFor_iff.mpr ⟨?_, TwosComplement.value_encode number⟩
  intro nothing
  have length := TwosComplement.length_encode number
  rw [nothing, TwosComplement.minimalWidth] at length
  cases length

theorem StandsFor.unique {number : Int} {first second : Bytes} (stands : StandsFor number first)
    (again : StandsFor number second) (lengths : first.length = second.length) :
    first = second := by
  have same := congrArg (· % ((256 ^ first.length : Nat) : Int)) (stands.2.trans again.2.symm)
  rw [← lengths] at same
  simp only [Int.bmod_emod, ← natCast_emod_weight] at same
  have below := ByteOrder.value_lt .big first
  have belowToo := ByteOrder.value_lt .big second
  rw [← lengths] at belowToo
  rw [Nat.mod_eq_of_lt below, Nat.mod_eq_of_lt belowToo] at same
  exact eq_of_value_eq .big lengths (Int.ofNat_inj.mp same)

/-! ## Items -/

theorem holds_lengthBytes (order : ByteOrder) {length : Nat} (told : length ≤ longestContent) :
    Holds order 4 length (lengthBytes order length) := by
  have holds := Scalar.holds_encode order (.int32 (Int32.ofNat length))
  have number : (Scalar.int32 (Int32.ofNat length)).number = length := by
    apply Int32.toInt_ofNat_of_lt
    unfold longestContent at told
    omega
  rw [number] at holds
  exact holds

theorem led_of_told {order : ByteOrder} {content : Bytes}
    (told : content.length ≤ longestContent) :
    Led order content (lengthBytes order content.length ++ content) :=
  ⟨told, _, holds_lengthBytes order told, rfl⟩

theorem Led.unique {order : ByteOrder} {content first second : Bytes}
    (led : Led order content first) (again : Led order content second) : first = second := by
  rcases led.joined with ⟨lead, holds, rfl⟩
  rcases again.joined with ⟨other, otherHolds, rfl⟩
  rw [holds.unique otherHolds]

theorem Lies.unique {order : ByteOrder} {item : Item} {first second : Bytes}
    (lies : Lies order item first) (again : Lies order item second) : first = second := by
  cases lies with
  | scalar holds =>
      cases again with
      | scalar otherHolds => exact holds.unique otherHolds
  | narrow32 fits holds =>
      cases again with
      | narrow32 _ otherHolds => exact holds.unique otherHolds
  | narrow64 fits holds =>
      cases again with
      | narrow64 _ otherHolds => exact holds.unique otherHolds
  | text led =>
      cases again with
      | text otherLed => exact led.unique otherLed
  | integer stands fewest led =>
      cases again with
      | integer otherStands otherFewest otherLed =>
          have lengths := Nat.le_antisymm (fewest _ otherStands) (otherFewest _ stands)
          have same := stands.unique otherStands lengths
          subst same
          exact led.unique otherLed
  | raw data =>
      cases again with
      | raw => rfl

theorem lies_integer {order : ByteOrder} {value : Int}
    (told : (TwosComplement.encode value).length ≤ longestContent) :
    Lies order (.integer value)
      (lengthBytes order (TwosComplement.encode value).length ++ TwosComplement.encode value) := by
  refine .integer (standsFor_encode value) ?_ (led_of_told told)
  intro other stands
  rw [TwosComplement.length_encode]
  exact stands.minimalWidth_le

theorem encode_narrow32 (order : ByteOrder) (value : UInt32) {width : Nat}
    (fits : width * 8 ≤ 32) :
    (Item.narrow32 value width).encode order = .ok (order.encode width value.toNat) := by
  simp [Item.encode, Item.pieces, checkWidth_of_fits (by decide) fits, Except.map]

theorem encode_narrow64 (order : ByteOrder) (value : UInt64) {width : Nat}
    (fits : width * 8 ≤ 64) :
    (Item.narrow64 value width).encode order = .ok (order.encode width value.toNat) := by
  simp [Item.encode, Item.pieces, checkWidth_of_fits (by decide) fits, Except.map]

theorem flatten_lengthLed (order : ByteOrder) {content : Bytes}
    (told : content.length ≤ longestContent) :
    (lengthLed order content).map List.flatten =
      .ok (lengthBytes order content.length ++ content) := by
  simp [lengthLed_of_told told, Except.map]

/-- An item is written as the bytes of its format, or refused because it has none. -/
theorem lies_or_unfit (order : ByteOrder) (item : Item) :
    (∃ bytes, item.encode order = .ok bytes ∧ Lies order item bytes) ∨
      ∃ fault, item.encode order = .error fault ∧ Unfit item fault := by
  cases item with
  | scalar value =>
      refine .inl ⟨value.encode order, ?_, .scalar (value.holds_encode order)⟩
      simp [Item.encode, Item.pieces, Except.map]
  | narrow32 value width =>
      rcases checkWidth_cases width 32 with ⟨fits, -⟩ | ⟨fault, refused, wide⟩
      · exact .inl ⟨_, encode_narrow32 order value fits,
          .narrow32 (by omega) (holds_encode order width value.toNat)⟩
      · refine .inr ⟨fault, ?_, .narrow32 value wide⟩
        simp [Item.encode, Item.pieces, refused, Except.map]
  | narrow64 value width =>
      rcases checkWidth_cases width 64 with ⟨fits, -⟩ | ⟨fault, refused, wide⟩
      · exact .inl ⟨_, encode_narrow64 order value fits,
          .narrow64 (by omega) (holds_encode order width value.toNat)⟩
      · refine .inr ⟨fault, ?_, .narrow64 value wide⟩
        simp [Item.encode, Item.pieces, refused, Except.map]
  | text value =>
      by_cases told : (Utf8.encode value).length ≤ longestContent
      · exact .inl ⟨_, flatten_lengthLed _ told, .text (led_of_told told)⟩
      · refine .inr ⟨_, ?_, .text value (Nat.lt_of_not_le told)⟩
        simp [Item.encode, Item.pieces, lengthLed, Nat.lt_of_not_le told, Except.map]
  | integer value =>
      by_cases told : (TwosComplement.encode value).length ≤ longestContent
      · exact .inl ⟨_, flatten_lengthLed _ told, lies_integer told⟩
      · refine .inr ⟨_, ?_, .integer value (Nat.lt_of_not_le told)⟩
        simp [Item.encode, Item.pieces, lengthLed, Nat.lt_of_not_le told, Except.map]
  | raw data =>
      refine .inl ⟨data, ?_, .raw data⟩
      simp [Item.encode, Item.pieces, Except.map]

theorem Lies.not_unfit {order : ByteOrder} {item : Item} {bytes : Bytes} {fault : Fault}
    (lies : Lies order item bytes) : ¬Unfit item fault := by
  intro unfit
  cases unfit with
  | narrow32 value wide =>
      cases lies with
      | narrow32 fits holds => exact wide.not_fits (by decide) (by omega)
  | narrow64 value wide =>
      cases lies with
      | narrow64 fits holds => exact wide.not_fits (by decide) (by omega)
  | text value long =>
      cases lies with
      | text led => exact absurd led.told (Nat.not_le.mpr long)
  | integer value long =>
      cases lies with
      | integer stands fewest led =>
          have least := stands.minimalWidth_le
          rw [← TwosComplement.length_encode] at least
          exact absurd (Nat.le_trans least led.told) (Nat.not_le.mpr long)

theorem encode_eq_ok_iff {order : ByteOrder} {item : Item} {bytes : Bytes} :
    item.encode order = .ok bytes ↔ Lies order item bytes := by
  rcases lies_or_unfit order item with ⟨found, encoded, lies⟩ | ⟨fault, refused, unfit⟩
  · rw [encoded, Except.ok.injEq]
    constructor
    · rintro rfl
      exact lies
    · intro other
      exact lies.unique other
  · rw [refused]
    constructor
    · nofun
    · intro lies
      exact absurd unfit lies.not_unfit

theorem unfit_of_encode {order : ByteOrder} {item : Item} {fault : Fault}
    (refused : item.encode order = .error fault) : Unfit item fault := by
  rcases lies_or_unfit order item with ⟨found, encoded, lies⟩ | ⟨other, otherwise, unfit⟩
  · rw [encoded] at refused
    cases refused
  · rw [otherwise] at refused
    cases refused
    exact unfit

end Value

end ByteStreams
