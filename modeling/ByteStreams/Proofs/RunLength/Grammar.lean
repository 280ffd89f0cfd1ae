import ByteStreams.Proofs.RunLength.Splitting

/-! # What decoding accepts, and why it refuses the rest

The grammar of frames, stated on the numbers that indicators and lengths are, without
the parser's own way of reading them. Any bytes are whole frames and a rest in just one
way. Decoding accepts them just if there is no rest, and otherwise answers with the one
reason why the rest begins with no whole frame.
-/

namespace ByteStreams

namespace RunLength

open LittleEndian (weight weight_zero weight_succ)

namespace Frame

/-! ## Whole frames -/

/-- The top two bits of an indicator count the extension bytes, and `high` is the rest of it. -/
structure Announces (indicator : UInt8) (count high : Nat) : Prop where
  bits : indicator.toNat = 64 * count + high
  high_lt : high < 64
  few : count < 3

def writtenLength (high : Nat) (extension : Bytes) : Nat :=
  extension.foldl (fun length byte => 256 * length + byte.toNat) high

inductive Written (signal : UInt8) : Frame → Bytes → Prop
  | plain {byte : UInt8} (other : byte ≠ signal) : Written signal (.literal byte) [byte]
  | escaped : Written signal (.literal signal) [signal, 0xFF]
  | run {indicator : UInt8} {high : Nat} {extension : Bytes} (value : UInt8)
      (announces : Announces indicator extension.length high)
      (some' : 1 ≤ writtenLength high extension) :
      Written signal (.run value (writtenLength high extension))
        (signal :: indicator :: (extension ++ [value]))

theorem announces_iff {indicator : UInt8} {count high : Nat} :
    Announces indicator count high ↔
      extensionLength? indicator = some count ∧ lengthBits indicator = high := by
  unfold extensionLength? lengthBits
  constructor
  · rintro ⟨bits, high_lt, few⟩
    have top : indicator.toNat / 64 = count := by omega
    refine ⟨?_, by omega⟩
    simp only [top]
    exact if_pos few
  · rintro ⟨announced, rfl⟩
    simp only at announced
    split at announced
    · rename_i few
      cases announced
      exact ⟨by omega, Nat.mod_lt _ (by decide), few⟩
    · cases announced

theorem reserved_iff {indicator : UInt8} :
    0xC0 ≤ indicator.toNat ∧ indicator.toNat ≤ 0xFE ↔
      extensionLength? indicator = none ∧ indicator ≠ escape := by
  have small := indicator.toNat_lt
  have whole : indicator = escape ↔ indicator.toNat = 0xFF := UInt8.toNat_inj.symm
  unfold extensionLength?
  simp only
  split
  · simp only [reduceCtorEq, false_and, iff_false]
    omega
  · simp only [true_and, ne_eq, whole]
    omega

private theorem writtenLength_eq (high : Nat) (extension : Bytes) :
    writtenLength high extension =
      high * weight extension.length + ByteOrder.big.value extension := by
  unfold writtenLength
  induction extension generalizing high with
  | nil => simp [weight_zero, ByteOrder.value, ByteOrder.arrange, LittleEndian.value]
  | cons byte others induction =>
      rw [List.foldl_cons, induction, ByteOrder.big_value_cons, List.length_cons, weight_succ,
        Nat.add_mul, Nat.mul_right_comm 256 high, Nat.mul_comm (256 * _) high, Nat.add_assoc]

theorem writtenLength_lengthBits (indicator : UInt8) (extension : Bytes) :
    writtenLength (lengthBits indicator) extension = runLength indicator extension :=
  writtenLength_eq _ _

/-- The grammar on numbers is the grammar of the parser. -/
theorem written_iff_spelled {signal : UInt8} {frame : Frame} {code : Bytes} :
    Written signal frame code ↔ Spelled signal frame code := by
  constructor
  · intro written
    cases written with
    | plain other => exact .plain other
    | escaped => exact .escaped
    | run value announces some' =>
        rcases announces_iff.mp announces with ⟨announced, rfl⟩
        rw [writtenLength_lengthBits] at some' ⊢
        exact .run value announced (by omega)
  · intro spelled
    cases spelled with
    | plain other => exact .plain other
    | escaped => exact .escaped
    | run value announced some' =>
        rw [← writtenLength_lengthBits] at some' ⊢
        exact .run value (announces_iff.mpr ⟨announced, rfl⟩) (by omega)

theorem Written.parse_append {signal : UInt8} {frame : Frame} {code : Bytes}
    (written : Written signal frame code) (more : Bytes) :
    parse signal (code ++ more) = .frame frame code.length more :=
  (written_iff_spelled.mp written).parse_append more

theorem Written.unique {signal : UInt8} {frame other : Frame} {code front rest more : Bytes}
    (first : Written signal frame code) (second : Written signal other front)
    (same : code ++ rest = front ++ more) : frame = other ∧ code = front ∧ rest = more := by
  have parsed := first.parse_append rest
  rw [same, second.parse_append more, Parsed.frame.injEq] at parsed
  rcases parsed with ⟨rfl, -, rfl⟩
  exact ⟨rfl, List.append_cancel_right same, rfl⟩

end Frame

def Fault.advance (distance : Nat) : Fault → Fault
  | .truncated part offset => .truncated part (distance + offset)
  | fault => fault

namespace Frame

/-! ## What is no frame -/

/-- Why bytes at `offset` of some code, which are not at its end, begin with no whole frame. -/
inductive Stops (signal : UInt8) (offset : Nat) : Fault → Bytes → Prop
  | noIndicator : Stops signal offset (.truncated .indicator offset) [signal]
  | reserved {indicator : UInt8} (top : 0xC0 ≤ indicator.toNat ∧ indicator.toNat ≤ 0xFE)
      (more : Bytes) :
      Stops signal offset (.reservedIndicator indicator) (signal :: indicator :: more)
  | noExtension {indicator : UInt8} {count high : Nat} {extension : Bytes}
      (announces : Announces indicator count high) (short : extension.length < count) :
      Stops signal offset (.truncated .lengthExtension offset)
        (signal :: indicator :: extension)
  /-- A length of zero is not noticed before the value is there. -/
  | noValue {indicator : UInt8} {high : Nat} {extension : Bytes}
      (announces : Announces indicator extension.length high) :
      Stops signal offset (.truncated .runValue offset) (signal :: indicator :: extension)
  | empty {indicator : UInt8} {high : Nat} {extension : Bytes}
      (announces : Announces indicator extension.length high)
      (none' : writtenLength high extension = 0) (value : UInt8) (more : Bytes) :
      Stops signal offset .emptyRun (signal :: indicator :: (extension ++ value :: more))

theorem Stops.advance {signal : UInt8} {offset : Nat} {fault : Fault} {buffer : Bytes}
    (stops : Stops signal offset fault buffer) (distance : Nat) :
    Stops signal (distance + offset) (fault.advance distance) buffer := by
  cases stops with
  | noIndicator => exact .noIndicator
  | reserved top more => exact .reserved top more
  | noExtension announces short => exact .noExtension announces short
  | noValue announces => exact .noValue announces
  | empty announces none' value more => exact .empty announces none' value more

private theorem unfinished_of_announces {signal indicator : UInt8} {count high : Nat}
    {extension : Bytes} (announces : Announces indicator count high)
    (short : extension.length ≤ count) :
    parse signal (signal :: indicator :: extension) = .incomplete ∧
      missingPart (signal :: indicator :: extension) =
        if extension.length < count then .lengthExtension else .runValue := by
  rcases announces_iff.mp announces with ⟨announced, -⟩
  refine ⟨?_, by simp only [missingPart, announced]⟩
  rw [parse_signal_indicator (ne_escape_of_announced announced) announced,
    List.drop_eq_nil_of_le short]

private theorem stops_of_malformed {signal : UInt8} (offset : Nat) {fault : Fault}
    {buffer : Bytes} (malformed : parse signal buffer = .malformed fault) :
    Stops signal offset fault buffer := by
  cases flawed_of_parse malformed with
  | reserved body plain refused => exact .reserved (reserved_iff.mpr ⟨refused, plain⟩) body
  | empty value rest announced none' =>
      rw [← writtenLength_lengthBits] at none'
      exact .empty (announces_iff.mpr ⟨announced, rfl⟩) none' value rest

private theorem stops_of_incomplete {signal : UInt8} (offset : Nat) {buffer : Bytes}
    (some' : buffer ≠ []) (unfinished : parse signal buffer = .incomplete) :
    Stops signal offset (.truncated (missingPart buffer) offset) buffer := by
  cases buffer with
  | nil => exact absurd rfl some'
  | cons first body =>
      by_cases other : first = signal
      · subst other
        cases body with
        | nil => exact .noIndicator
        | cons indicator extension =>
            by_cases escapes : indicator = escape
            · simp [parse, escapes] at unfinished
            · cases announced : extensionLength? indicator with
              | none => simp [parse, escapes, announced] at unfinished
              | some count =>
                  have announces := announces_iff.mpr ⟨announced, rfl⟩
                  rw [parse_signal_indicator escapes announced] at unfinished
                  have short : extension.length ≤ count := by
                    rw [← List.drop_eq_nil_iff]
                    split at unfinished
                    · assumption
                    · split at unfinished <;> cases unfinished
                  simp only [missingPart, announced]
                  by_cases fewer : extension.length < count
                  · rw [if_pos fewer]
                    exact .noExtension announces fewer
                  · rw [if_neg fewer]
                    have all : count = extension.length := by omega
                    exact .noValue (all ▸ announces)
      · simp [parse, other] at unfinished

theorem stops_iff {signal : UInt8} {offset : Nat} {fault : Fault} {buffer : Bytes} :
    Stops signal offset fault buffer ↔
      parse signal buffer = .malformed fault ∨
        buffer ≠ [] ∧ parse signal buffer = .incomplete ∧
          fault = .truncated (missingPart buffer) offset := by
  constructor
  · intro stops
    cases stops with
    | noIndicator => exact .inr ⟨by simp, by simp [parse], rfl⟩
    | reserved top more =>
        rcases reserved_iff.mp top with ⟨refused, plain⟩
        have flawed : Flawed signal _ _ := .reserved more plain refused
        exact .inl (by simpa using flawed.parse_append [])
    | noExtension announces short =>
        rcases unfinished_of_announces announces (Nat.le_of_lt short) with ⟨unfinished, part⟩
        exact .inr ⟨by simp, unfinished, by rw [part, if_pos short]⟩
    | noValue announces =>
        rcases unfinished_of_announces announces (Nat.le_refl _) with ⟨unfinished, part⟩
        exact .inr ⟨by simp, unfinished, by rw [part, if_neg (Nat.lt_irrefl _)]⟩
    | empty announces none' value more =>
        rcases announces_iff.mp announces with ⟨announced, rfl⟩
        rw [writtenLength_lengthBits] at none'
        have flawed : Flawed signal _ _ := .empty value more announced none'
        exact .inl (by simpa using flawed.parse_append [])
  · rintro (malformed | ⟨some', unfinished, rfl⟩)
    · exact stops_of_malformed offset malformed
    · exact stops_of_incomplete offset some' unfinished

end Frame

/-! ## Cutting bytes into frames -/

open RunLength.Frame (Written Stops)

/-- Bytes cut into whole frames, each with its own bytes, and a rest that begins with no whole
frame. -/
structure Factors (signal : UInt8) (code : Bytes) (parts : List (Frame × Bytes))
    (rest : Bytes) : Prop where
  whole : ∀ part ∈ parts, Written signal part.1 part.2
  joined : code = parts.flatMap Prod.snd ++ rest
  noMore : ∀ {frame : Frame} {front : Bytes}, Written signal frame front → ¬front <+: rest

theorem Factors.tail {signal : UInt8} {code rest : Bytes} {part : Frame × Bytes}
    {parts : List (Frame × Bytes)} (factors : Factors signal code (part :: parts) rest) :
    Written signal part.1 part.2 ∧ code = part.2 ++ (parts.flatMap Prod.snd ++ rest) ∧
      Factors signal (parts.flatMap Prod.snd ++ rest) parts rest := by
  refine ⟨factors.whole part (List.mem_cons_self ..), ?_, ?_, rfl, factors.noMore⟩
  · rw [factors.joined, List.flatMap_cons, List.append_assoc]
  · intro other member
    exact factors.whole other (List.mem_cons_of_mem _ member)

theorem Factors.unique {signal : UInt8} {code rest other : Bytes}
    {parts others : List (Frame × Bytes)} (first : Factors signal code parts rest)
    (second : Factors signal code others other) : others = parts ∧ other = rest := by
  induction parts generalizing code others with
  | nil =>
      have joined : code = rest := first.joined
      cases others with
      | nil => exact ⟨rfl, second.joined.symm.trans joined⟩
      | cons part others =>
          rcases second.tail with ⟨written, split, -⟩
          exact absurd ⟨_, split.symm.trans joined⟩ (first.noMore written)
  | cons part parts induction =>
      rcases first.tail with ⟨written, split, tail⟩
      cases others with
      | nil =>
          have joined : code = other := second.joined
          exact absurd ⟨_, split.symm.trans joined⟩ (second.noMore written)
      | cons part' others =>
          rcases second.tail with ⟨written', split', tail'⟩
          rcases written.unique written' (split.symm.trans split') with ⟨frame, bytes, after⟩
          rcases induction tail (after ▸ tail') with ⟨rfl, rfl⟩
          exact ⟨congrArg (· :: others) (Prod.ext frame.symm bytes.symm), rfl⟩

theorem exists_factors (signal : UInt8) (code : Bytes) :
    ∃ parts rest, Factors signal code parts rest := by
  induction code using (measure List.length).wf.induction with
  | h code induction =>
      by_cases begins : ∃ frame size rest, Frame.parse signal code = .frame frame size rest
      · rcases begins with ⟨frame, size, after, parsed⟩
        rcases induction after (Frame.length_lt_of_parse parsed) with ⟨parts, rest, factors⟩
        rcases Frame.spelled_of_parse parsed with ⟨front, spelled, rfl, -⟩
        refine ⟨(frame, front) :: parts, rest, ?_, ?_, factors.noMore⟩
        · intro part member
          rcases List.mem_cons.mp member with rfl | later
          · exact Frame.written_iff_spelled.mpr spelled
          · exact factors.whole part later
        · rw [List.flatMap_cons, List.append_assoc, ← factors.joined]
      · refine ⟨[], code, by simp, rfl, ?_⟩
        rintro frame front written ⟨more, rfl⟩
        exact begins ⟨_, _, _, written.parse_append more⟩

theorem Factors.append {signal : UInt8} {code more rest : Bytes}
    {parts others : List (Frame × Bytes)} (first : Factors signal code parts [])
    (second : Factors signal more others rest) :
    Factors signal (code ++ more) (parts ++ others) rest := by
  refine ⟨?_, ?_, second.noMore⟩
  · intro part member
    rcases List.mem_append.mp member with former | latter
    · exact first.whole part former
    · exact second.whole part latter
  · rw [first.joined, second.joined, List.append_nil, List.flatMap_append, List.append_assoc]

private theorem spells_of_whole {signal : UInt8} {parts : List (Frame × Bytes)}
    (whole : ∀ part ∈ parts, Written signal part.1 part.2) :
    Spells signal (parts.map Prod.fst) (parts.flatMap Prod.snd) := by
  induction parts with
  | nil => exact .nil
  | cons part parts induction =>
      rw [List.map_cons, List.flatMap_cons]
      refine .cons (Frame.written_iff_spelled.mp (whole part (List.mem_cons_self ..))) ?_
      exact induction fun other member => whole other (List.mem_cons_of_mem _ member)

/-! ## Decoding -/

private theorem Factors.decode_eq {signal : UInt8} {code rest : Bytes}
    {parts : List (Frame × Bytes)} (factors : Factors signal code parts rest) :
    (∃ fault, Frame.parse signal rest = .malformed fault ∧
        decode signal code = .error fault) ∨
      Frame.parse signal rest = .incomplete ∧
        decode signal code =
          if rest.isEmpty then .ok (expand (parts.map Prod.fst))
          else .error (.truncated (Frame.missingPart rest)
            (parts.flatMap Prod.snd).length) := by
  have cut := (spells_of_whole factors.whole).split_append rest
  rw [← factors.joined] at cut
  cases parsed : Frame.parse signal rest with
  | frame frame size after =>
      rcases Frame.spelled_of_parse parsed with ⟨front, spelled, rfl, -⟩
      exact absurd ⟨after, rfl⟩ (factors.noMore (Frame.written_iff_spelled.mpr spelled))
  | malformed fault =>
      rw [split_of_malformed parsed] at cut
      exact .inl ⟨fault, rfl, by simp [decode, cut]⟩
  | incomplete =>
      rw [split_of_incomplete parsed] at cut
      have offset : code.length - rest.length = (parts.flatMap Prod.snd).length := by
        rw [factors.joined, List.length_append, Nat.add_sub_cancel]
      exact .inr ⟨rfl, by simp [decode, cut, offset]⟩

theorem Factors.decode_ok_iff {signal : UInt8} {code rest : Bytes}
    {parts : List (Frame × Bytes)} (factors : Factors signal code parts rest) {data : Bytes} :
    decode signal code = .ok data ↔ rest = [] ∧ data = expand (parts.map Prod.fst) := by
  rcases factors.decode_eq with ⟨fault, parsed, decoded⟩ | ⟨-, decoded⟩
  · have some' : rest ≠ [] := by
      rintro rfl
      cases parsed
    simp [decoded, some']
  · by_cases nothing : rest = []
    · simp [decoded, nothing, eq_comm]
    · simp [decoded, nothing]

theorem Factors.decode_error_iff {signal : UInt8} {code rest : Bytes}
    {parts : List (Frame × Bytes)} (factors : Factors signal code parts rest) {fault : Fault} :
    decode signal code = .error fault ↔
      Stops signal (parts.flatMap Prod.snd).length fault rest := by
  rw [Frame.stops_iff]
  rcases factors.decode_eq with ⟨fault', parsed, decoded⟩ | ⟨parsed, decoded⟩
  · simp [decoded, parsed]
  · by_cases nothing : rest = []
    · simp [decoded, nothing, Frame.parse]
    · rw [decoded, if_neg (by simpa using nothing), Except.error.injEq, parsed]
      simp [nothing, eq_comm]

/-- Any bytes are whole frames and a rest that begins with none, in just one way. They decode
just if nothing is left, and then to what the frames stand for; otherwise decoding answers
with the reason why the rest is no frame. Code that decodes can be followed by any bytes:
these decode as if they stood alone. -/
theorem decode_classifies (signal : UInt8) (code : Bytes) :
    ∃ parts rest, Factors signal code parts rest ∧
      (∀ others other, Factors signal code others other → others = parts ∧ other = rest) ∧
      (∀ data, decode signal code = .ok data ↔
        rest = [] ∧ data = expand (parts.map Prod.fst)) ∧
      (∀ fault, decode signal code = .error fault ↔
        Stops signal (parts.flatMap Prod.snd).length fault rest) ∧
      ∀ data, decode signal code = .ok data → ∀ more,
        (∀ later, decode signal more = .ok later →
          decode signal (code ++ more) = .ok (data ++ later)) ∧
        ∀ fault, decode signal more = .error fault →
          decode signal (code ++ more) = .error (fault.advance code.length) := by
  rcases exists_factors signal code with ⟨parts, rest, factors⟩
  refine ⟨parts, rest, factors, fun _ _ => factors.unique, fun _ => factors.decode_ok_iff,
    fun _ => factors.decode_error_iff, ?_⟩
  intro data decoded more
  rcases factors.decode_ok_iff.mp decoded with ⟨rfl, rfl⟩
  rcases exists_factors signal more with ⟨others, other, factorsMore⟩
  have both := factors.append factorsMore
  constructor
  · intro later decodedMore
    rcases factorsMore.decode_ok_iff.mp decodedMore with ⟨rfl, rfl⟩
    exact both.decode_ok_iff.mpr ⟨rfl, by rw [List.map_append, expand_append]⟩
  · intro fault refused
    have stops := (factorsMore.decode_error_iff.mp refused).advance code.length
    rw [factors.joined, List.append_nil, ← List.length_append, ← List.flatMap_append] at stops
    rw [both.decode_error_iff, factors.joined, List.append_nil]
    exact stops

/-- The checks come in the order of the bytes: a reserved indicator needs no more of them, and
an empty run is one only with its value. -/
example : decode 0xFF [0x41, 0xFF, 0xFF, 0xFF, 0xC0] = .error (.reservedIndicator 0xC0) ∧
    decode 0xFF [0x41, 0xFF, 0xFF, 0xFF, 0x40, 0x00] = .error (.truncated .runValue 3) ∧
    decode 0xFF [0x41, 0xFF, 0xFF, 0xFF, 0x40, 0x00, 0x41] = .error .emptyRun := by
  refine ⟨?_, ?_, ?_⟩ <;> cbv

end RunLength

end ByteStreams
