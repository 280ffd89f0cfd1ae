import ByteStreams.Proofs.EncodedPipe.RoundTrip
import ByteStreams.Proofs.Value.Layout

/-! # Streams of values

A stream of items lies in bytes as one item after another does, each in the byte order that
counts for its call. A call that names an order changes nothing for the calls after it. The
requests that match the items read them back, unless one leads more content than is read.
-/

namespace ByteStreams

namespace Value

open Channel (Reading Sink Source Writing)
open Channel.Reading (Always)
open EncodedPipe (Matches ReadAct WriteAct Writes)

/-! ## Writing -/

def perform (settings : Settings) : WriteAct → Writing (Except Failure Unit × Settings)
  | .item item order => (write settings item order).map fun outcome => (outcome, settings)
  | .setOrder order => .done (.ok (), { settings with order := order })
  | .flush => flush.map fun outcome => (outcome, settings)

def performAll (settings : Settings) :
    List WriteAct → Writing (List (Except Failure Unit) × Settings)
  | [] => .done ([], settings)
  | act :: acts =>
      (perform settings act).bind fun (outcome, settings) =>
        (performAll settings acts).map fun (outcomes, last) => (outcome :: outcomes, last)

/-- What acts come to from one byte order on: their outcomes, the bytes that they put and the
byte order that counts after them. -/
inductive Laid :
    ByteOrder → List WriteAct → List (Except Failure Unit) → Bytes → ByteOrder → Prop
  | nil (order : ByteOrder) : Laid order [] [] [] order
  | item {order last : ByteOrder} {item : Item} {own : Option ByteOrder}
      {acts : List WriteAct} {outcomes : List (Except Failure Unit)} {bytes data : Bytes}
      (lies : Lies (own.getD order) item bytes) (others : Laid order acts outcomes data last) :
      Laid order (.item item own :: acts) (.ok () :: outcomes) (bytes ++ data) last
  | unfit {order last : ByteOrder} {item : Item} {fault : Fault} {own : Option ByteOrder}
      {acts : List WriteAct} {outcomes : List (Except Failure Unit)} {data : Bytes}
      (unfit : Unfit item fault) (others : Laid order acts outcomes data last) :
      Laid order (.item item own :: acts) (.error (.fault fault) :: outcomes) data last
  | setOrder {before order last : ByteOrder} {acts : List WriteAct}
      {outcomes : List (Except Failure Unit)} {data : Bytes}
      (others : Laid order acts outcomes data last) :
      Laid before (.setOrder order :: acts) (.ok () :: outcomes) data last
  | flush {order last : ByteOrder} {acts : List WriteAct}
      {outcomes : List (Except Failure Unit)} {data : Bytes}
      (others : Laid order acts outcomes data last) :
      Laid order (.flush :: acts) (.ok () :: outcomes) data last

theorem write_refuses (settings : Settings) {item : Item} {order : Option ByteOrder}
    {fault : Fault} (refused : item.encode (settings.effective order) = .error fault) :
    (write settings item order).Puts [] (.error (.fault fault)) := by
  unfold Item.encode at refused
  unfold write
  cases found : item.pieces (settings.effective order) with
  | error other =>
      rw [found] at refused
      cases refused
      exact .done _
  | ok pieces =>
      rw [found] at refused
      cases refused

theorem perform_puts (settings : Settings) (act : WriteAct) :
    ∃ outcome data after, (perform settings act).Puts data (outcome, after) := by
  cases act with
  | item item own =>
      cases encoded : item.encode (settings.effective own) with
      | ok bytes => exact ⟨_, _, _, (write_puts settings encoded).map _⟩
      | error fault => exact ⟨_, _, _, (write_refuses settings encoded).map _⟩
  | setOrder order => exact ⟨_, _, _, .done _⟩
  | flush => exact ⟨_, _, _, flush_puts.map _⟩

theorem performAll_puts (settings : Settings) (acts : List WriteAct) :
    ∃ outcomes data last,
      (performAll settings acts).Puts data (outcomes, { settings with order := last }) ∧
        Laid settings.order acts outcomes data last := by
  induction acts generalizing settings with
  | nil => exact ⟨[], [], settings.order, .done _, .nil _⟩
  | cons act acts induction =>
      cases act with
      | item item own =>
          rcases induction settings with ⟨outcomes, data, last, puts, laid⟩
          cases encoded : item.encode (settings.effective own) with
          | ok bytes =>
              refine ⟨.ok () :: outcomes, bytes ++ data, last, ?_,
                .item (encode_eq_ok_iff.mp encoded) laid⟩
              exact ((write_puts settings encoded).map _).bind (puts.map _)
          | error fault =>
              refine ⟨.error (.fault fault) :: outcomes, data, last, ?_,
                .unfit (unfit_of_encode encoded) laid⟩
              exact ((write_refuses settings encoded).map _).bind (puts.map _)
      | setOrder order =>
          rcases induction { settings with order := order } with
            ⟨outcomes, data, last, puts, laid⟩
          exact ⟨.ok () :: outcomes, data, last, puts.map _, .setOrder laid⟩
      | flush =>
          rcases induction settings with ⟨outcomes, data, last, puts, laid⟩
          refine ⟨.ok () :: outcomes, data, last, ?_, .flush laid⟩
          exact (flush_puts.map _).bind (puts.map _)

theorem Laid.writes {order last : ByteOrder} {acts : List WriteAct}
    {outcomes : List (Except Failure Unit)} {data : Bytes}
    (laid : Laid order acts outcomes data last) (allOk : ∀ outcome ∈ outcomes, outcome = .ok ()) :
    Writes order acts data := by
  induction laid with
  | nil => exact .nil
  | item lies others induction =>
      refine .item (encode_eq_ok_iff.mpr lies) (induction ?_)
      intro outcome among
      exact allOk outcome (List.mem_cons_of_mem _ among)
  | unfit unfit others induction => cases allOk _ (List.mem_cons_self ..)
  | setOrder others induction =>
      refine .setOrder (induction ?_)
      intro outcome among
      exact allOk outcome (List.mem_cons_of_mem _ among)
  | flush others induction =>
      refine .flush (induction ?_)
      intro outcome among
      exact allOk outcome (List.mem_cons_of_mem _ among)

theorem Laid.allOk {order last : ByteOrder} {acts : List WriteAct}
    {outcomes : List (Except Failure Unit)} {data bytes : Bytes}
    (laid : Laid order acts outcomes data last) (writes : Writes order acts bytes) :
    ∀ outcome ∈ outcomes, outcome = .ok () := by
  induction laid generalizing bytes with
  | nil => nofun
  | item lies others induction =>
      cases writes with
      | item encoded later => exact List.forall_mem_cons.mpr ⟨rfl, induction later⟩
  | unfit unfit others induction =>
      cases writes with
      | item encoded later => exact absurd unfit (encode_eq_ok_iff.mp encoded).not_unfit
  | setOrder others induction =>
      cases writes with
      | setOrder later => exact List.forall_mem_cons.mpr ⟨rfl, induction later⟩
  | flush others induction =>
      cases writes with
      | flush later => exact List.forall_mem_cons.mpr ⟨rfl, induction later⟩

theorem contentLength_le_of_encode {order : ByteOrder} {item : Item} {bytes : Bytes}
    (encoded : item.encode order = .ok bytes) : item.contentLength ≤ longestContent := by
  cases item with
  | text value => exact told_of_lengthLed encoded
  | integer value => exact told_of_lengthLed encoded
  | _ => exact Nat.zero_le _

theorem contentLength_le_of_writes {order : ByteOrder} {acts : List WriteAct} {data : Bytes}
    (writes : Writes order acts data) :
    ∀ item own, WriteAct.item item own ∈ acts → item.contentLength ≤ longestContent := by
  induction writes with
  | nil => nofun
  | item encoded others induction =>
      intro item own among
      rcases List.mem_cons.mp among with same | among
      · cases same
        exact contentLength_le_of_encode encoded
      · exact induction item own among
  | setOrder others induction =>
      intro item own among
      rcases List.mem_cons.mp among with same | among
      · cases same
      · exact induction item own among
  | flush others induction =>
      intro item own among
      rcases List.mem_cons.mp among with same | among
      · cases same
      · exact induction item own among

/-! ## Reading -/

def requestAll (settings : Settings) :
    List ReadAct → Reading (List (Except Failure Answer) × Settings)
  | [] => .done ([], settings)
  | .setOrder order :: acts => requestAll { settings with order := order } acts
  | .request request own :: acts =>
      (read settings request own).bind fun outcome =>
        (requestAll settings acts).map fun (outcomes, last) => (outcome :: outcomes, last)

def Answer.contentLength : Answer → Nat
  | .text value => (Utf8.encode value).length
  | .integer value => (TwosComplement.encode value).length
  | .scalar _ | .raw _ | .skipped => 0

/-- Requests get their answers up to the first whose content is longer than is read. -/
inductive Answered (longest : Nat) : List Answer → List (Except Failure Answer) → Prop
  | nil : Answered longest [] []
  | ok {answer : Answer} {answers : List Answer} {outcomes : List (Except Failure Answer)}
      (short : answer.contentLength ≤ longest) (others : Answered longest answers outcomes) :
      Answered longest (answer :: answers) (.ok answer :: outcomes)
  | tooLong {answer : Answer} (answers : List Answer) (outcomes : List (Except Failure Answer))
      (long : longest < answer.contentLength) :
      Answered longest (answer :: answers)
        (.error (.fault (.invalidLength answer.contentLength longest)) :: outcomes)

theorem Answered.all_ok {longest : Nat} {answers : List Answer}
    {outcomes : List (Except Failure Answer)} (answered : Answered longest answers outcomes)
    (short : ∀ answer ∈ answers, answer.contentLength ≤ longest) :
    outcomes = answers.map .ok := by
  induction answered with
  | nil => rfl
  | ok here others induction =>
      rw [induction fun answer among => short answer (List.mem_cons_of_mem _ among)]
      rfl
  | tooLong answers outcomes long =>
      exact absurd (short _ (List.mem_cons_self ..)) (Nat.not_le.mpr long)

theorem always_trivial {α : Type} (program : Reading α) (data : Bytes) :
    Always (fun _ _ => True) program data := by
  induction program generalizing data with
  | done result => trivial
  | pull limit next induction =>
      intro piece rest served
      exact induction _ rest
  | read limit next induction =>
      exact ⟨fun piece rest served => induction _ rest, fun failure again => induction _ data⟩

theorem readLengthLed_refuses {α : Type} {settings : Settings} {order : ByteOrder}
    {make : Bytes → Except Fault α} {content : Bytes} (told : content.length ≤ longestContent)
    (long : settings.longest < content.length) (more : Bytes) :
    Always
      (fun result _ =>
        result = .error (.fault (.invalidLength content.length settings.longest)))
      (readLengthLed settings order make)
      (lengthBytes order content.length ++ content ++ more) := by
  rw [List.append_assoc]
  have first := readFully_takes (lengthBytes order content.length) (content ++ more)
  rw [length_lengthBytes] at first
  apply first.bind
  rintro result rest ⟨rfl, rfl⟩
  simp only [value_lengthBytes order told]
  rw [if_neg fun allowed => absurd (Int.ofNat_le.mp allowed.2) (Nat.not_le.mpr long)]
  rfl

theorem Reads.withLongest {before longest : Nat} {written asked : ByteOrder} {item : Item}
    {request : Request} {answer : Answer}
    (reads : Reads before written asked item request answer)
    (short : answer.contentLength ≤ longest) :
    Reads longest written asked item request answer := by
  cases reads with
  | scalar value agree => exact .scalar value agree
  | narrow32 value fits holds agree gives => exact .narrow32 value fits holds agree gives
  | narrow64 value fits holds agree gives => exact .narrow64 value fits holds agree gives
  | text value same told _ => exact .text value same told short
  | integer value same told _ => exact .integer value same told short
  | raw data => exact .raw data
  | skip lies => exact .skip lies

theorem Reads.refuses {before : Nat} {written : ByteOrder} {item : Item} {request : Request}
    {answer : Answer} {bytes : Bytes} (settings : Settings) (own : Option ByteOrder)
    (reads : Reads before written (settings.effective own) item request answer)
    (encoded : item.encode written = .ok bytes)
    (long : settings.longest < answer.contentLength) (more : Bytes) :
    Always
      (fun result _ =>
        result = .error (.fault (.invalidLength answer.contentLength settings.longest)))
      (read settings request own) (bytes ++ more) := by
  cases reads with
  | text value same told _ =>
      subst same
      have lies := flatten_lengthLed (settings.effective own) told
      cases encoded.symm.trans lies
      exact readLengthLed_refuses told long more
  | integer value same told _ =>
      subst same
      have lies := flatten_lengthLed (settings.effective own) told
      cases encoded.symm.trans lies
      exact readLengthLed_refuses told long more
  | _ => exact absurd long (Nat.not_lt_zero _)

theorem requestAll_always {written asked : ByteOrder} {writes : List WriteAct}
    {reads : List ReadAct} {answers : List Answer} {data : Bytes}
    (matches' : Matches longestContent written asked writes reads answers)
    (wrote : Writes written writes data) (longest : Nat) (more : Bytes) :
    Always
      (fun result rest => Answered longest answers result.1 ∧
        ((∀ answer ∈ answers, answer.contentLength ≤ longest) → rest = more))
      (requestAll ⟨asked, longest⟩ reads) (data ++ more) := by
  induction matches' generalizing data with
  | nil =>
      cases wrote
      exact ⟨.nil, fun _ => rfl⟩
  | @item written asked item request answer ownWritten ownAsked writes reads answers first
      others induction =>
      cases wrote with
      | @item _ _ _ _ bytes data encoded later =>
          rw [List.append_assoc]
          by_cases short : answer.contentLength ≤ longest
          · rcases (first.withLongest short).takes ⟨asked, longest⟩ ownAsked with
              ⟨found, lies, takes⟩
            cases encoded.symm.trans lies
            apply (takes (data ++ more)).bind
            rintro result rest ⟨rfl, rfl⟩
            apply (induction later).map
            rintro ⟨outcomes, last⟩ rest ⟨answered, left⟩
            refine ⟨.ok short answered, ?_⟩
            intro allShort
            exact left fun other among => allShort other (List.mem_cons_of_mem _ among)
          · have long := Nat.lt_of_not_le short
            apply (first.refuses ⟨asked, longest⟩ ownAsked encoded long (data ++ more)).bind
            rintro result rest rfl
            apply (always_trivial _ rest).map
            rintro ⟨outcomes, last⟩ rest -
            refine ⟨.tooLong answers outcomes long, ?_⟩
            intro allShort
            exact absurd (allShort answer (List.mem_cons_self ..)) short
  | setWritten others induction =>
      cases wrote with
      | setOrder later => exact induction later
  | setAsked others induction => exact induction wrote
  | flush others induction =>
      cases wrote with
      | flush later => exact induction later

/-! ## Both -/

/-- On channels that do not fail, acts lie in the sink as the formats of their items in the
byte orders of their calls, and a source of these bytes gives every item back to the matching
requests, up to the first whose content is longer than is read. -/
theorem stream_lies_and_reads_back (settings : Settings) (acts : List WriteAct) {sink : Sink}
    (faultless : sink.Faultless) :
    ∃ outcomes last data after,
      (performAll settings acts).run sink =
        ((outcomes, { settings with order := last }), after) ∧
      after.accepted = sink.accepted ++ data ∧
      Laid settings.order acts outcomes data last ∧
      ((∀ outcome ∈ outcomes, outcome = .ok ()) → ∃ reads answers,
        Matches longestContent settings.order settings.order acts reads answers) ∧
      ∀ reads answers,
        Matches longestContent settings.order settings.order acts reads answers →
        ∀ longest more (source : Source), source.Faultless → source.remaining = data ++ more →
          ∃ results asked rest,
            (requestAll ⟨settings.order, longest⟩ reads).run source =
              ((results, asked), rest) ∧
            Answered longest answers results ∧
            ((∀ answer ∈ answers, answer.contentLength ≤ longest) →
              results = answers.map .ok ∧ rest.remaining = more) := by
  rcases performAll_puts settings acts with ⟨outcomes, data, last, puts, laid⟩
  rcases puts.run faultless with ⟨after, run, -, accepted⟩
  refine ⟨outcomes, last, data, after, run, accepted, laid, ?_, ?_⟩
  · intro allOk
    have wrote := laid.writes allOk
    exact wrote.exists_matches (contentLength_le_of_writes wrote)
  · intro reads answers matches' longest more source sourceFaultless remaining
    rcases matches'.meet with ⟨bytes, writes, -⟩
    have wrote := laid.writes (laid.allOk writes)
    have always := requestAll_always matches' wrote longest more
    rw [← remaining] at always
    rcases always.run sourceFaultless with ⟨⟨answered, left⟩, -⟩
    refine ⟨_, _, _, rfl, answered, ?_⟩
    intro short
    exact ⟨answered.all_ok short, left short⟩

/-- An order of a call and one set for the calls after it, on channels that move a few bytes
at a time. The text is too long for a reader of two bytes. -/
theorem stream_lies_and_reads_back_piecemeal :
    let acts : List WriteAct := [.item (.scalar (.int16 (-2))) (some .little),
      .item (.scalar (.binary32 0x7FC00001)) none, .setOrder .little,
      .item (.narrow32 0xFFFFFF80 1) none, .item (.text "abc") none]
    let reads : List ReadAct := [.request (.scalar .int16) (some .little),
      .request (.scalar .binary32) none, .setOrder .little,
      .request (.narrow .signed32 1) none, .request .text none]
    let wire : Bytes := [0xFE, 0xFF, 0x7F, 0xC0, 0, 1, 0x80, 3, 0, 0, 0, 0x61, 0x62, 0x63]
    let sink : Sink := ⟨[.accept 1, .refuse (.bare .interrupted)], [], []⟩
    let source : Source := ⟨[.ok (wire.take 3), .error (.bare .interrupted), .ok (wire.drop 3)]⟩
    ∃ outcomes last after results asked rest,
      (performAll ⟨.big, 0⟩ acts).run sink = ((outcomes, last), after) ∧
      after.accepted = wire ∧
      (requestAll ⟨.big, 2⟩ reads).run source = ((results, asked), rest) ∧
      Answered 2 [.scalar (.int16 (-2)), .scalar (.binary32 0x7FC00001), .scalar (.int32 (-128)),
        .text "abc"] results := by
  intro acts reads wire sink source
  have sinkFaultless : sink.Faultless := by
    constructor <;> simp [sink, Channel.Reply.Faultless, Channel.Failure.isInterruption,
      Channel.Failure.kind]
  have sourceFaultless : source.Faultless := by
    simp [source, Source.Faultless, wire, Channel.Failure.isInterruption, Channel.Failure.kind]
  have gives : NarrowKind.Gives 1 (0xFFFFFF80 : UInt32).toNat .signed32 (.int32 (-128)) := by
    unfold NarrowKind.Gives
    decide
  have matches' : Matches longestContent .big .big acts reads
      [.scalar (.int16 (-2)), .scalar (.binary32 0x7FC00001), .scalar (.int32 (-128)),
        .text "abc"] :=
    .item (.scalar _ (.inr rfl)) <|
    .item (.scalar _ (.inr rfl)) <|
    .setWritten <| .setAsked <|
    .item (.narrow32 _ (by decide) (by decide) (.inr rfl) gives) <|
    .item (.text _ rfl (by decide +kernel) (by decide +kernel)) .nil
  rcases stream_lies_and_reads_back ⟨.big, 0⟩ acts sinkFaultless with
    ⟨outcomes, last, data, after, run, accepted, laid, -, readsBack⟩
  have total : ((performAll ⟨.big, 0⟩ acts).run sink).2.accepted = wire := by decide +kernel
  rw [run, accepted] at total
  have remaining : source.remaining = data ++ [] := by
    rw [List.append_nil]
    exact (show source.remaining = wire by decide +kernel).trans total.symm
  rcases readsBack reads _ matches' 2 [] source sourceFaultless remaining with
    ⟨results, asked, rest, answers, answered, -⟩
  exact ⟨outcomes, _, after, results, asked, rest, run, accepted.trans total, answers, answered⟩

end Value

end ByteStreams
