import ByteStreams.Proofs.Channel.Pulls
import ByteStreams.Proofs.Value.Accounting

/-! # Content that follows its length

The first bytes of a stream settle what reading a text or an integer comes to: there is no
whole length, the length is refused, the content is cut short, or it is there. A length that is
refused costs nothing but its own four bytes. Content is a text just if it is the UTF-8 form of
one. All content is an integer, also content that is longer than it need be.
-/

namespace ByteStreams

namespace Channel.Reading

variable {α β : Type}

/-- The calls of a program in a run, each with a buffer of as many bytes as it asks for. -/
def pulls : Reading α → Source → List Pull
  | .done _, _ => []
  | .read limit next, source =>
      ⟨limit, (source.read limit).1⟩ ::
        (next (source.read limit).1).pulls (source.read limit).2
  | .pull limit next, source =>
      ⟨limit, (source.pull limit).1⟩ ::
        (next (source.pull limit).1).pulls (source.pull limit).2

theorem pulls_bind (program : Reading α) (andThen : α → Reading β) (source : Source) :
    (program.bind andThen).pulls source =
      program.pulls source ++ (andThen (program.run source).1).pulls (program.run source).2 := by
  induction program generalizing source with
  | done result => rfl
  | read limit next induction => simp only [bind, pulls, run, induction, List.cons_append]
  | pull limit next induction => simp only [bind, pulls, run, induction, List.cons_append]

theorem pulls_map (program : Reading α) (change : α → β) (source : Source) :
    (program.map change).pulls source = program.pulls source := by
  rw [map, pulls_bind, pulls, List.append_nil]

theorem gatherAfter_pulls_le (found : List Bytes) (want : Nat) (source : Source) :
    ∀ pull ∈ (gatherAfter found want).pulls source, pull.limit ≤ want := by
  induction want using Nat.strongRecOn generalizing found source with
  | ind want induction =>
      intro pull member
      rw [gatherAfter] at member
      by_cases none' : want = 0
      · rw [if_pos none'] at member
        cases member
      · rw [if_neg none'] at member
        rcases List.mem_cons.mp member with rfl | later
        · exact Nat.le_refl _
        · rcases answered : (source.pull want).1 with failure | (_ | ⟨byte, more⟩)
          · rw [answered] at later
            cases later
          · rw [answered] at later
            cases later
          · rw [answered] at later
            have less := induction (want - (more.length + 1)) (by omega) _ _ pull later
            omega

end Channel.Reading

namespace Value

open Channel (Reading Sink Source)

/-! ## What a stream begins with -/

def signedLength (order : ByteOrder) (data : Bytes) : Int :=
  (order.value (data.take 4) : Int).bmod (2 ^ 32)

/-- Why a stream gives no content. -/
inductive Withheld (settings : Settings) (order : ByteOrder) (data : Bytes) : Fault → Prop
  | noLength (short : data.length < 4) :
      Withheld settings order data (.unexpectedEnd 4 data.length)
  | refused (whole : 4 ≤ data.length)
      (beyond : signedLength order data < 0 ∨ settings.longest < signedLength order data) :
      Withheld settings order data
        (.invalidLength (signedLength order data) settings.longest)
  | cut {length : Nat} (whole : 4 ≤ data.length) (told : signedLength order data = length)
      (allowed : length ≤ settings.longest) (missing : data.length - 4 < length) :
      Withheld settings order data (.unexpectedEnd length (data.length - 4))

/-- A stream is a length, the content that it tells and other bytes. -/
structure Frames (settings : Settings) (order : ByteOrder) (data content rest : Bytes) : Prop where
  whole : 4 ≤ data.length
  told : signedLength order data = content.length
  allowed : content.length ≤ settings.longest
  joined : data.drop 4 = content ++ rest

theorem leadingLength_eq (order : ByteOrder) (data : Bytes) :
    leadingLength order data = signedLength order data :=
  Int32.toInt_ofNat' ..

variable {settings : Settings} {order : ByteOrder} {own : Option ByteOrder}
  {data content rest : Bytes} {source : Source} {request : Request} {fault : Fault}

theorem frames_or_withheld (settings : Settings) (order : ByteOrder) (data : Bytes) :
    (∃ fault, Withheld settings order data fault) ∨
      ∃ content rest, Frames settings order data content rest := by
  by_cases short : data.length < 4
  · exact .inl ⟨_, .noLength short⟩
  · have whole := Nat.le_of_not_lt short
    by_cases beyond : signedLength order data < 0 ∨ settings.longest < signedLength order data
    · exact .inl ⟨_, .refused whole beyond⟩
    · rcases Int.eq_ofNat_of_zero_le (by omega : 0 ≤ signedLength order data) with ⟨length, told⟩
      have allowed : length ≤ settings.longest := by omega
      by_cases missing : data.length - 4 < length
      · exact .inl ⟨_, .cut whole told allowed missing⟩
      · have there : ((data.drop 4).take length).length = length := by
          rw [List.length_take_of_le]
          rw [List.length_drop]
          omega
        refine .inr ⟨(data.drop 4).take length, (data.drop 4).drop length, whole, ?_, ?_,
          (List.take_append_drop ..).symm⟩
        · rw [there, told]
        · rw [there]
          exact allowed

theorem Frames.leads (frames : Frames settings order data content rest) :
    Leads settings order data content.length :=
  ⟨frames.whole, (leadingLength_eq ..).trans frames.told, frames.allowed⟩

theorem Frames.length_le (frames : Frames settings order data content rest) :
    content.length ≤ longestContent := by
  have below : signedLength order data < ((2 ^ 32 : Nat) + 1) / 2 := Int.bmod_lt (by decide)
  rw [frames.told] at below
  unfold longestContent
  omega

/-! ## Reading -/

theorem read_eq_readLengthLed (settings : Settings) (own : Option ByteOrder)
    (led : request.LengthLed) :
    read settings request own =
      readLengthLed settings (settings.effective own)
        (request.make (settings.effective own)) := by
  cases led <;> rfl

theorem Withheld.makes (withheld : Withheld settings (settings.effective own) data fault)
    (led : request.LengthLed) :
    ∃ left, (read settings request own).Makes data (.error (.fault fault)) left := by
  rw [read_eq_readLengthLed settings own led]
  cases withheld with
  | noLength short => exact ⟨_, readLengthLed_makes_short short⟩
  | refused whole beyond =>
      rw [← leadingLength_eq] at beyond ⊢
      exact ⟨_, readLengthLed_makes_refused whole beyond⟩
  | @cut length whole told allowed missing =>
      have leads : Leads settings (settings.effective own) data length :=
        ⟨whole, (leadingLength_eq ..).trans told, allowed⟩
      rw [← List.length_drop] at missing ⊢
      exact ⟨_, leads.makes (readAs_makes_short _ missing)⟩

theorem Frames.makes (frames : Frames settings (settings.effective own) data content rest)
    (led : request.LengthLed) :
    (read settings request own).Makes data
      ((request.make (settings.effective own) content).mapError Failure.fault) rest := by
  rw [read_eq_readLengthLed settings own led]
  apply frames.leads.makes
  rw [frames.joined]
  have there : content.length ≤ (content ++ rest).length := by
    rw [List.length_append]
    omega
  have makes := readAs_makes (request.make (settings.effective own)) there
  rwa [List.take_left, List.drop_left] at makes

/-! ## Calls -/

theorem readFully_pulls_le (count : Nat) (source : Source) :
    ∀ pull ∈ (readFully count).pulls source, pull.limit ≤ count := by
  rw [readFully, Reading.pulls_map]
  exact Reading.gatherAfter_pulls_le [] count source

theorem read_pulls_le (led : request.LengthLed) (source : Source) :
    ∀ pull ∈ (read settings request own).pulls source, pull.limit ≤ max 4 settings.longest := by
  intro pull member
  rw [read_eq_readLengthLed settings own led, readLengthLed, Reading.pulls_bind] at member
  rcases List.mem_append.mp member with first | later
  · have less := readFully_pulls_le 4 source pull first
    omega
  · rcases obtained : ((readFully 4).run source).1 with failure | bytes
    · rw [obtained] at later
      cases later
    · rw [obtained] at later
      simp only at later
      split_ifs at later with allowed
      · rw [readAs, Reading.pulls_map] at later
        have less := readFully_pulls_le _ _ pull later
        omega
      · cases later

/-- What a run does that comes to no more than the length. -/
structure OnlyLength (settings : Settings) (own : Option ByteOrder) (request : Request)
    (source : Source) : Prop where
  calls : (read settings request own).pulls source = (readFully 4).pulls source
  buffers : ∀ pull ∈ (read settings request own).pulls source, pull.limit ≤ 4
  after : ((read settings request own).run source).2 = ((readFully 4).run source).2
  left : ((read settings request own).run source).2.remaining = source.remaining.drop 4

theorem onlyLength_of_refused (led : request.LengthLed) (faultless : source.Faultless)
    (whole : 4 ≤ source.remaining.length)
    (beyond : signedLength (settings.effective own) source.remaining < 0 ∨
      settings.longest < signedLength (settings.effective own) source.remaining) :
    OnlyLength settings own request source := by
  rcases (readFully_makes whole).run faultless with ⟨obtained, left, -⟩
  have refused : ¬(0 ≤ leadingLength (settings.effective own) source.remaining ∧
      leadingLength (settings.effective own) source.remaining ≤ settings.longest) := by
    rw [leadingLength_eq]
    omega
  simp only [leadingLength] at refused
  have calls : (read settings request own).pulls source = (readFully 4).pulls source := by
    rw [read_eq_readLengthLed settings own led, readLengthLed, Reading.pulls_bind, obtained]
    simp only [if_neg refused, Reading.pulls, List.append_nil]
  have after : ((read settings request own).run source).2 = ((readFully 4).run source).2 := by
    rw [read_eq_readLengthLed settings own led, readLengthLed, Reading.run_bind, obtained]
    simp only [if_neg refused, Reading.run]
  refine ⟨calls, ?_, after, after ▸ left⟩
  rw [calls]
  exact readFully_pulls_le 4 source

/-! ## Integers -/

/-- The integer that content is, most significant byte first in two's complement. No bytes are
zero. -/
def contentNumber (content : Bytes) : Int :=
  (ByteOrder.big.value content : Int).bmod (256 ^ content.length)

/-- What an integer is written as, in whatever byte order: the shortest of all bytes that stand
for it, of which there is at least one. -/
structure WrittenShortest (number : Int) (content : Bytes) : Prop where
  stands : StandsFor number content
  shortest : ∀ other, StandsFor number other → other = content ∨ content.length < other.length
  written : ∀ (settings : Settings) (own : Option ByteOrder) (sink : Sink), sink.Faultless →
    ∃ bytes after, (write settings (.integer number) own).run sink = (.ok (), after) ∧
      after.accepted = sink.accepted ++ bytes ∧ Led (settings.effective own) content bytes

theorem length_encode_contentNumber_le (content : Bytes) :
    (TwosComplement.encode (contentNumber content)).length ≤ max 1 content.length := by
  rw [TwosComplement.length_encode]
  by_cases nothing : content = []
  · subst nothing
    decide
  · have stands : StandsFor (contentNumber content) content := ⟨nothing, rfl⟩
    have least := stands.minimalWidth_le
    omega

theorem writtenShortest_encode {number : Int}
    (told : (TwosComplement.encode number).length ≤ longestContent) :
    WrittenShortest number (TwosComplement.encode number) where
  stands := standsFor_encode number
  shortest := by
    intro other stands
    have least := stands.minimalWidth_le
    rw [← TwosComplement.length_encode] at least
    rcases Nat.eq_or_lt_of_le least with same | more
    · exact .inl (stands.unique (standsFor_encode number) same.symm)
    · exact .inr more
  written := by
    intro settings own sink faultless
    have lies : Lies (settings.effective own) (.integer number) _ := lies_integer told
    have puts := write_puts settings (encode_eq_ok_iff.mpr lies)
    rcases puts.run faultless with ⟨after, run, -, accepted⟩
    exact ⟨_, after, run, accepted, led_of_told told⟩

/-! ## Both -/

/-- What the bytes of a source settle for a reader of text or an integer. -/
structure Decides (settings : Settings) (own : Option ByteOrder) (source : Source) : Prop where
  /-- There is a reason to give no content, or there is content. -/
  either : (∃ fault, Withheld settings (settings.effective own) source.remaining fault) ∨
    ∃ content rest, Frames settings (settings.effective own) source.remaining content rest
  withheld : ∀ {request fault}, Request.LengthLed request →
    Withheld settings (settings.effective own) source.remaining fault →
    ((read settings request own).run source).1 = .error (.fault fault)
  refused : ∀ {request}, Request.LengthLed request → 4 ≤ source.remaining.length →
    (signedLength (settings.effective own) source.remaining < 0 ∨
      settings.longest < signedLength (settings.effective own) source.remaining) →
    OnlyLength settings own request source
  text : ∀ {content rest},
    Frames settings (settings.effective own) source.remaining content rest → ∀ value,
      ((read settings .text own).run source).1 = .ok (.text value) ↔ Utf8.encode value = content
  noText : ∀ {content rest},
    Frames settings (settings.effective own) source.remaining content rest →
      ((∃ flaw, ((read settings .text own).run source).1 =
        .error (.fault (.invalidUtf8 flaw))) ↔ ¬∃ value, Utf8.encode value = content)
  integer : ∀ {content rest},
    Frames settings (settings.effective own) source.remaining content rest →
      ((read settings .integer own).run source).1 = .ok (.integer (contentNumber content)) ∧
        ∃ shortest, WrittenShortest (contentNumber content) shortest
  rest : ∀ {request content rest}, Request.LengthLed request →
    Frames settings (settings.effective own) source.remaining content rest →
      ((read settings request own).run source).2.remaining = rest
  buffers : ∀ {request}, Request.LengthLed request →
    ∀ pull ∈ (read settings request own).pulls source, pull.limit ≤ max 4 settings.longest

theorem make_text (order : ByteOrder) (content : Bytes) :
    (Request.text.make order content).mapError Failure.fault =
      match Utf8.decode content with
      | .ok value => .ok (.text value)
      | .error flaw => .error (.fault (.invalidUtf8 flaw)) := by
  rw [Request.make]
  cases Utf8.decode content <;> rfl

/-- The bytes of a stream settle what reading a text or an integer comes to. Content is a text
just if it is the UTF-8 form of one. All content is an integer, in every byte order the same,
and that is written again as the shortest bytes that stand for it. -/
theorem content_decides (settings : Settings) (own : Option ByteOrder) {source : Source}
    (faultless : source.Faultless) : Decides settings own source where
  either := frames_or_withheld settings _ _
  withheld := by
    intro request fault led withheld
    rcases withheld.makes led with ⟨left, makes⟩
    exact (makes.run faultless).1
  refused := fun led whole beyond => onlyLength_of_refused led faultless whole beyond
  text := by
    intro content rest frames value
    rw [((frames.makes .text).run faultless).1, make_text, ← Utf8.decode_eq_ok_iff]
    cases Utf8.decode content <;> simp
  noText := by
    intro content rest frames
    rw [((frames.makes .text).run faultless).1, make_text]
    simp only [← Utf8.decode_eq_ok_iff]
    cases Utf8.decode content <;> simp
  integer := by
    intro content rest frames
    rw [((frames.makes .integer).run faultless).1]
    have told := Nat.le_trans (length_encode_contentNumber_le content)
      (Nat.max_le.mpr ⟨by decide, frames.length_le⟩)
    refine ⟨?_, _, writtenShortest_encode told⟩
    rw [Request.make, TwosComplement.value_eq]
    rfl
  rest := fun led frames => ((frames.makes led).run faultless).2.1
  buffers := fun led => read_pulls_le led source

/-- Content of a byte more than is needed, in pieces. It is no text, and a reader of one byte
refuses it. -/
theorem content_decides_overlong :
    let source : Source :=
      ⟨[.ok [0, 0], .error (.bare .interrupted), .ok [0, 2, 0xFF], .ok [0x80, 7]]⟩
    source.Faultless ∧
      ((read ⟨.big, 2⟩ .integer none).run source).1 = .ok (.integer (-128)) ∧
      (∃ shortest, WrittenShortest (-128) shortest) ∧
      (∃ flaw, ((read ⟨.big, 2⟩ .text none).run source).1 =
        .error (.fault (.invalidUtf8 flaw))) ∧
      ((read ⟨.big, 1⟩ .text none).run source).1 = .error (.fault (.invalidLength 2 1)) := by
  intro source
  have faultless : source.Faultless := by
    simp [source, Source.Faultless, Channel.Failure.isInterruption, Channel.Failure.kind]
  have frames : Frames ⟨.big, 2⟩ .big source.remaining [0xFF, 0x80] [7] :=
    ⟨by decide, by decide, by decide, by decide⟩
  have decides := content_decides ⟨.big, 2⟩ none faultless
  have negative : contentNumber [0xFF, 0x80] = -128 := by decide
  have noText : ¬∃ value, Utf8.encode value = [0xFF, 0x80] := by
    rintro ⟨value, form⟩
    have decoded := Utf8.decode_eq_ok_iff.mpr form
    have refused : Utf8.decode [0xFF, 0x80] = .error (.invalid 1 0) := by cbv
    rw [refused] at decoded
    cases decoded
  have integer := decides.integer frames
  rw [negative] at integer
  have length : signedLength .big source.remaining = 2 := by decide
  have beyond : Withheld ⟨.big, 1⟩ .big source.remaining
      (.invalidLength (signedLength .big source.remaining) 1) :=
    .refused (by decide) (.inr (by rw [length]; decide))
  rw [length] at beyond
  exact ⟨faultless, integer.1, integer.2, (decides.noText frames).mpr noText,
    (content_decides ⟨.big, 1⟩ none faultless).withheld .text beyond⟩

/-- No bytes are read as zero, and zero is written as one. -/
theorem zero_is_written_longer :
    ((read .default .integer none).run ⟨[.ok [0, 0, 0, 0]]⟩).1 = .ok (.integer 0) ∧
      ((write .default (.integer 0) none).run .accepting).2.accepted = [0, 0, 0, 1] ++ [0] ∧
      ¬∀ other, contentNumber other = 0 → other = [0] ∨ ([0] : Bytes).length < other.length := by
  refine ⟨by decide +kernel, by decide +kernel, ?_⟩
  intro shortest
  rcases shortest [] (by decide) with same | longer
  · cases same
  · exact absurd longer (by decide)

end Value

end ByteStreams
