import ByteStreams.Proofs.Value.Streams

/-! # Requests see nothing but the bytes

What a request comes to depends on the bytes ahead, and not on how a source cuts them or how
often it interrupts. Nor does a request read ahead: how many bytes it takes follows from what it
comes to, so the next one begins at the same byte whatever the source.
-/

namespace ByteStreams

namespace Channel.Reading

variable {α β : Type} {program : Reading α} {data left : Bytes} {result : α}

/-- However a faultless source cuts these bytes, the program makes this of them and leaves the
others to the source. -/
def Makes (program : Reading α) (data : Bytes) (result : α) (left : Bytes) : Prop :=
  Always (fun outcome rest => outcome = result ∧ rest = left) program data

theorem Makes.bind {andThen : α → Reading β} {last : β} {rest : Bytes}
    (first : program.Makes data result left) (second : (andThen result).Makes left last rest) :
    (program.bind andThen).Makes data last rest := by
  apply Always.bind first
  rintro _ _ ⟨rfl, rfl⟩
  exact second

theorem Makes.map {change : α → β} {last : β} (makes : program.Makes data result left)
    (same : change result = last) : (program.map change).Makes data last left :=
  makes.bind ⟨same, rfl⟩

theorem Makes.run {source : Source} (makes : program.Makes source.remaining result left)
    (faultless : source.Faultless) :
    (program.run source).1 = result ∧ (program.run source).2.remaining = left ∧
      (program.run source).2.Faultless := by
  rcases Always.run makes faultless with ⟨⟨outcome, rest⟩, stays⟩
  exact ⟨outcome, rest, stays⟩

end Channel.Reading

namespace Value

open Channel (Reading Source)
open EncodedPipe (ReadAct)

/-! ## What a request comes to -/

inductive Request.Fixed : Request → Nat → Prop
  | scalar (kind : ScalarKind) : Fixed (.scalar kind) kind.width
  | narrow {kind : NarrowKind} {width : Nat} (holds : width * 8 ≤ kind.bits) :
      Fixed (.narrow kind width) width
  | raw (count : Nat) : Fixed (.raw count) count
  | skip (count : Nat) : Fixed (.skip count) count

inductive Request.LengthLed : Request → Prop
  | text : LengthLed .text
  | integer : LengthLed .integer

/-- What a request makes of its bytes, or of its content, when it has them all. -/
def Request.make (order : ByteOrder) : Request → Bytes → Except Fault Answer
  | .scalar kind, bytes => .ok (.scalar (Scalar.decode order kind bytes))
  | .narrow kind _, bytes => .ok (.scalar (kind.decode order bytes))
  | .text, bytes => ((Utf8.decode bytes).mapError Fault.invalidUtf8).map Answer.text
  | .integer, bytes => .ok (.integer (TwosComplement.value bytes))
  | .raw _, bytes => .ok (.raw bytes)
  | .skip _, _ => .ok .skipped

def leadingLength (order : ByteOrder) (data : Bytes) : Int :=
  (UInt32.ofNat (order.value (data.take 4))).toInt32.toInt

structure Leads (settings : Settings) (order : ByteOrder) (data : Bytes) (length : Nat) : Prop where
  whole : 4 ≤ data.length
  told : leadingLength order data = length
  allowed : length ≤ settings.longest

/-- What a request comes to with these bytes ahead, and how many of them it takes. -/
inductive Accounts (settings : Settings) (order : ByteOrder) (data : Bytes) :
    Request → Except Failure Answer → Nat → Prop
  | fixed {request : Request} {count : Nat} {answer : Answer} (fixed : request.Fixed count)
      (enough : count ≤ data.length) (made : request.make order (data.take count) = .ok answer) :
      Accounts settings order data request (.ok answer) count
  | led {request : Request} {length : Nat} {answer : Answer} (led : request.LengthLed)
      (leads : Leads settings order data length) (enough : 4 + length ≤ data.length)
      (made : request.make order ((data.drop 4).take length) = .ok answer) :
      Accounts settings order data request (.ok answer) (4 + length)
  | tooWide {kind : NarrowKind} {width : Nat} {fault : Fault}
      (wide : TooWide width kind.bits fault) :
      Accounts settings order data (.narrow kind width) (.error (.fault fault)) 0
  | invalidLength {request : Request} (led : request.LengthLed) (whole : 4 ≤ data.length)
      (refused : leadingLength order data < 0 ∨ settings.longest < leadingLength order data) :
      Accounts settings order data request
        (.error (.fault (.invalidLength (leadingLength order data) settings.longest))) 4
  | invalidUtf8 {length : Nat} {flaw : Utf8.Fault} (leads : Leads settings order data length)
      (enough : 4 + length ≤ data.length)
      (refused : Utf8.decode ((data.drop 4).take length) = .error flaw) :
      Accounts settings order data .text (.error (.fault (.invalidUtf8 flaw))) (4 + length)
  /-- The bytes that are there are counted towards the part that they do not fill. -/
  | cut {request : Request} {count : Nat} (fixed : request.Fixed count)
      (short : data.length < count) :
      Accounts settings order data request
        (.error (.fault (.unexpectedEnd count data.length))) data.length
  | cutLength {request : Request} (led : request.LengthLed) (short : data.length < 4) :
      Accounts settings order data request
        (.error (.fault (.unexpectedEnd 4 data.length))) data.length
  | cutContent {request : Request} {length : Nat} (led : request.LengthLed)
      (leads : Leads settings order data length) (short : data.length < 4 + length) :
      Accounts settings order data request
        (.error (.fault (.unexpectedEnd length (data.length - 4)))) data.length

variable {settings : Settings} {order : ByteOrder} {data : Bytes} {request : Request} {count : Nat}
  {outcome : Except Failure Answer} {taken : Nat}

theorem Accounts.taken_le (accounts : Accounts settings order data request outcome taken) :
    taken ≤ data.length := by
  cases accounts with
  | fixed fixed enough made => exact enough
  | led led leads enough made => exact enough
  | tooWide wide => exact Nat.zero_le _
  | invalidLength led whole refused => exact whole
  | invalidUtf8 leads enough refused => exact enough
  | cut | cutLength | cutContent => exact Nat.le_refl _

/-! ## Parts -/

theorem readFully_makes (enough : count ≤ data.length) :
    (readFully count).Makes data (.ok (data.take count)) (data.drop count) := by
  have takes := readFully_takes (data.take count) (data.drop count)
  rwa [List.length_take_of_le enough, List.take_append_drop] at takes

theorem readFully_makes_short (short : data.length < count) :
    (readFully count).Makes data (.error (.fault (.unexpectedEnd count data.length))) [] :=
  Reading.Makes.map (Reading.gather_short short) rfl

theorem readAs_makes {α : Type} (make : Bytes → Except Fault α) (enough : count ≤ data.length) :
    (readAs count make).Makes data ((make (data.take count)).mapError Failure.fault)
      (data.drop count) :=
  (readFully_makes enough).map rfl

theorem readAs_makes_short {α : Type} (make : Bytes → Except Fault α)
    (short : data.length < count) :
    (readAs count make).Makes data (.error (.fault (.unexpectedEnd count data.length))) [] :=
  (readFully_makes_short short).map rfl

private theorem accounts_of_content (led : request.LengthLed) {length : Nat}
    (leads : Leads settings order data length) (enough : 4 + length ≤ data.length) :
    Accounts settings order data request
      ((request.make order ((data.drop 4).take length)).mapError Failure.fault) (4 + length) := by
  cases led with
  | text =>
      cases decoded : Utf8.decode ((data.drop 4).take length) with
      | ok value =>
          have made : Request.text.make order ((data.drop 4).take length) = .ok (.text value) := by
            rw [Request.make, decoded]
            rfl
          rw [made]
          exact .led .text leads enough made
      | error flaw =>
          rw [Request.make, decoded]
          exact .invalidUtf8 leads enough decoded
  | integer => exact .led .integer leads enough rfl

theorem readLengthLed_makes_short {α : Type} {make : Bytes → Except Fault α}
    (short : data.length < 4) :
    (readLengthLed settings order make).Makes data
      (.error (.fault (.unexpectedEnd 4 data.length))) [] :=
  (readFully_makes_short short).bind ⟨rfl, rfl⟩

theorem readLengthLed_makes_refused {α : Type} {make : Bytes → Except Fault α}
    (whole : 4 ≤ data.length)
    (refused : leadingLength order data < 0 ∨ settings.longest < leadingLength order data) :
    (readLengthLed settings order make).Makes data
      (.error (.fault (.invalidLength (leadingLength order data) settings.longest)))
      (data.drop 4) := by
  apply (readFully_makes whole).bind
  have notAllowed : ¬(0 ≤ leadingLength order data ∧
      leadingLength order data ≤ settings.longest) := by omega
  simp only [leadingLength] at notAllowed
  simp only [if_neg notAllowed]
  exact ⟨rfl, rfl⟩

theorem Leads.makes {α : Type} {make : Bytes → Except Fault α} {length : Nat}
    {result : Except Failure α} {left : Bytes} (leads : Leads settings order data length)
    (content : (readAs length make).Makes (data.drop 4) result left) :
    (readLengthLed settings order make).Makes data result left := by
  apply (readFully_makes leads.whole).bind
  have allowed : 0 ≤ leadingLength order data ∧ leadingLength order data ≤ settings.longest := by
    rw [leads.told]
    exact ⟨Int.natCast_nonneg _, Int.ofNat_le.mpr leads.allowed⟩
  have same : (leadingLength order data).toNat = length := by
    rw [leads.told]
    rfl
  simp only [leadingLength] at allowed same
  simpa only [if_pos allowed, same] using content

theorem readLengthLed_accounts (settings : Settings) (order : ByteOrder) (data : Bytes)
    (led : request.LengthLed) :
    ∃ outcome taken, Accounts settings order data request outcome taken ∧
      (readLengthLed settings order (request.make order)).Makes data outcome
        (data.drop taken) := by
  by_cases short : data.length < 4
  · refine ⟨_, _, .cutLength led short, ?_⟩
    rw [List.drop_length]
    exact readLengthLed_makes_short short
  · have whole := Nat.le_of_not_lt short
    by_cases allowed : 0 ≤ leadingLength order data ∧ leadingLength order data ≤ settings.longest
    · rcases Int.eq_ofNat_of_zero_le allowed.1 with ⟨length, told⟩
      have leads : Leads settings order data length :=
        ⟨whole, told, Int.ofNat_le.mp (told ▸ allowed.2)⟩
      by_cases enough : 4 + length ≤ data.length
      · refine ⟨_, _, accounts_of_content led leads enough, leads.makes ?_⟩
        have there : length ≤ (data.drop 4).length := by
          rw [List.length_drop]
          omega
        have content := readAs_makes (request.make order) there
        rw [List.drop_drop] at content
        exact content
      · have cut := Nat.lt_of_not_le enough
        refine ⟨_, _, .cutContent led leads cut, leads.makes ?_⟩
        have missing : (data.drop 4).length < length := by
          rw [List.length_drop]
          omega
        have content := readAs_makes_short (request.make order) missing
        rw [List.length_drop] at content
        rw [List.drop_length]
        exact content
    · have refused : leadingLength order data < 0 ∨
          settings.longest < leadingLength order data := by omega
      exact ⟨_, _, .invalidLength led whole refused, readLengthLed_makes_refused whole refused⟩

theorem readAs_accounts (settings : Settings) (order : ByteOrder) (data : Bytes)
    (fixed : request.Fixed count)
    (made : ∀ bytes, ∃ answer, request.make order bytes = .ok answer) :
    ∃ outcome taken, Accounts settings order data request outcome taken ∧
      (readAs count (request.make order)).Makes data outcome (data.drop taken) := by
  by_cases enough : count ≤ data.length
  · rcases made (data.take count) with ⟨answer, made⟩
    have makes := readAs_makes (request.make order) enough
    rw [made] at makes
    exact ⟨_, _, .fixed fixed enough made, makes⟩
  · have short := Nat.lt_of_not_le enough
    refine ⟨_, _, .cut fixed short, ?_⟩
    rw [List.drop_length]
    exact readAs_makes_short _ short

theorem skipFully_accounts (settings : Settings) (order : ByteOrder) (data : Bytes) (count : Nat) :
    ∃ outcome taken, Accounts settings order data (.skip count) outcome taken ∧
      ((skipFully count).map fun outcome => outcome.map fun _ => Answer.skipped).Makes data outcome
        (data.drop taken) := by
  by_cases enough : count ≤ data.length
  · refine ⟨_, _, .fixed (.skip count) enough rfl, ?_⟩
    have takes := skipFully_takes (data.take count) (data.drop count)
    rw [List.length_take_of_le enough, List.take_append_drop] at takes
    exact Reading.Makes.map takes rfl
  · have short := Nat.lt_of_not_le enough
    refine ⟨_, _, .cut (.skip count) short, ?_⟩
    rw [List.drop_length]
    exact (Reading.Makes.map (Reading.skip_short short) rfl).map rfl

/-! ## Requests -/

theorem read_accounts (settings : Settings) (request : Request) (own : Option ByteOrder)
    (data : Bytes) :
    ∃ outcome taken, Accounts settings (settings.effective own) data request outcome taken ∧
      (read settings request own).Makes data outcome (data.drop taken) := by
  cases request with
  | scalar kind => exact readAs_accounts settings _ data (.scalar kind) fun bytes => ⟨_, rfl⟩
  | narrow kind width =>
      rcases checkWidth_cases width kind.bits with ⟨holds, checked⟩ | ⟨fault, refused, wide⟩
      · rw [read, checked]
        exact readAs_accounts settings _ data (.narrow holds) fun bytes => ⟨_, rfl⟩
      · refine ⟨_, _, .tooWide wide, ?_⟩
        rw [read, refused]
        exact ⟨rfl, rfl⟩
  | text => exact readLengthLed_accounts settings _ data .text
  | integer => exact readLengthLed_accounts settings _ data .integer
  | raw count => exact readAs_accounts settings _ data (.raw count) fun bytes => ⟨_, rfl⟩
  | skip count => exact skipFully_accounts settings _ data count

theorem requestAll_makes (settings : Settings) (acts : List ReadAct) (data : Bytes) :
    ∃ result left, (requestAll settings acts).Makes data result left := by
  induction acts generalizing settings data with
  | nil => exact ⟨_, _, rfl, rfl⟩
  | cons act acts induction =>
      cases act with
      | setOrder order => exact induction _ data
      | request request own =>
          rcases read_accounts settings request own data with ⟨outcome, taken, -, makes⟩
          rcases induction settings (data.drop taken) with ⟨⟨outcomes, last⟩, left, others⟩
          exact ⟨_, _, makes.bind (others.map rfl)⟩

/-- Two sources that give the same bytes, however they cut them and however often they
interrupt, cannot be told apart. After any requests they have the same bytes left, the next
request comes to the same with either, and takes as many bytes as that accounts for. -/
theorem requests_take_their_own (settings : Settings) (acts : List ReadAct) (request : Request)
    (own : Option ByteOrder) {first second : Source} (firstFaultless : first.Faultless)
    (secondFaultless : second.Faultless) (same : first.remaining = second.remaining) :
    let ran := (requestAll settings acts).run first
    let other := (requestAll settings acts).run second
    let next := (read ran.1.2 request own).run ran.2
    let otherNext := (read other.1.2 request own).run other.2
    ran.1 = other.1 ∧ ran.2.remaining = other.2.remaining ∧
      next.1 = otherNext.1 ∧ next.2.remaining = otherNext.2.remaining ∧
      ∃ taken,
        Accounts ran.1.2 (ran.1.2.effective own) ran.2.remaining request next.1 taken ∧
        next.2.remaining = ran.2.remaining.drop taken ∧
        next.2.left + taken = ran.2.left ∧ otherNext.2.left + taken = other.2.left := by
  intro ran other next otherNext
  rcases requestAll_makes settings acts first.remaining with ⟨result, left, makes⟩
  rcases makes.run firstFaultless with ⟨ranResult, ranLeft, ranFaultless⟩
  rw [same] at makes
  rcases makes.run secondFaultless with ⟨otherResult, otherLeft, otherFaultless⟩
  have sameResult : ran.1 = other.1 := ranResult.trans otherResult.symm
  have sameLeft : ran.2.remaining = other.2.remaining := ranLeft.trans otherLeft.symm
  rcases read_accounts ran.1.2 request own ran.2.remaining with
    ⟨outcome, taken, accounts, nextMakes⟩
  rcases nextMakes.run ranFaultless with ⟨nextOutcome, nextLeft, -⟩
  rw [sameResult, sameLeft] at nextMakes
  rcases nextMakes.run otherFaultless with ⟨otherOutcome, otherNextLeft, -⟩
  have within := accounts.taken_le
  refine ⟨sameResult, sameLeft, nextOutcome.trans otherOutcome.symm, ?_, taken, ?_, nextLeft, ?_,
    ?_⟩
  · rw [nextLeft, otherNextLeft, sameLeft]
  · rw [nextOutcome]
    exact accounts
  · rw [Source.left_eq, Source.left_eq, nextLeft, List.length_drop]
    omega
  · rw [sameLeft] at within
    rw [Source.left_eq, Source.left_eq, otherNextLeft, List.length_drop]
    omega

/-- A text, bytes that are none and a negative length are read before the source ends inside a
number. One source gives all its bytes at once, the other cuts them and interrupts. -/
theorem requests_take_their_own_cut_source :
    let acts : List ReadAct := [.request .text none, .request (.narrow .unsigned32 5) none,
      .request .text none, .request .integer (some .little)]
    let whole : Source := ⟨[.ok [0, 0, 0, 2, 0x68, 0x69, 0, 0, 0, 1, 0xFF, 0xFF, 0xFF, 0xFF, 0xFF,
      1, 2]]⟩
    let cut : Source := ⟨[.ok [0, 0, 0], .error (.bare .interrupted), .ok [2, 0x68],
      .ok [0x69, 0, 0], .ok [0, 1], .error (.bare .interrupted), .error (.bare .interrupted),
      .ok [0xFF, 0xFF, 0xFF], .ok [0xFF, 0xFF], .ok [1], .error (.bare .interrupted), .ok [2]]⟩
    let ran := (requestAll .default acts).run whole
    let other := (requestAll .default acts).run cut
    let otherNext := (read other.1.2 (.scalar .int32) none).run other.2
    whole.Faultless ∧ cut.Faultless ∧ whole.remaining = cut.remaining ∧ ran.1 = other.1 ∧
      ran.1.1 = [.ok (.text "hi"), .error (.fault (.invalidWidth 5 32)),
        .error (.fault (.invalidUtf8 (.invalid 1 0))),
        .error (.fault (.invalidLength (-1) defaultLongest))] ∧
      ran.2.left = 2 ∧ otherNext.1 = .error (.fault (.unexpectedEnd 4 2)) ∧
      otherNext.2.left = 0 := by
  intro acts whole cut ran other otherNext
  have wholeFaultless : whole.Faultless := by simp [whole, Source.Faultless]
  have cutFaultless : cut.Faultless := by
    simp [cut, Source.Faultless, Channel.Failure.isInterruption, Channel.Failure.kind]
  have bytes : whole.remaining = cut.remaining := by decide
  rcases requests_take_their_own .default acts (.scalar .int32) none wholeFaultless cutFaultless
    bytes with ⟨same, -⟩
  have answers : ran.1.1 = [.ok (.text "hi"), .error (.fault (.invalidWidth 5 32)),
        .error (.fault (.invalidUtf8 (.invalid 1 0))),
        .error (.fault (.invalidLength (-1) defaultLongest))] := by
    decide +kernel
  exact ⟨wholeFaultless, cutFaultless, bytes, same, answers, by decide +kernel, by decide +kernel,
    by decide +kernel⟩

end Value

end ByteStreams
