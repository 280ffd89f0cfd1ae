import ByteStreams.Proofs.EncodedPipe.RoundTrip
import ByteStreams.Proofs.Pipe.Ends
import ByteStreams.Proofs.Pipe.Traces
import ByteStreams.Proofs.RunLength.FailingRelays
import ByteStreams.Proofs.Value.Failures

/-! # What a reader sees of a writer that rests

While a writer rests, its pipe and its reader together have all the data that was written but
the run that the encoder holds back, and after a flush they have all of it. What they have, the
reader gets without waiting.
-/

namespace ByteStreams

namespace EncodedPipe

open Channel (Pull Reading Writing pulled)
open Channel.Reading (Always Insists)
open Pipe (Receiving Sending)
open PipeEnds (Fed NeverDry)
open RunLength (Decoder Encoder Outlook Spells expand)
open Value (Answer AnyFailed)

/-! ## Decoders over a pipe -/

/-- A decoder handed out these bytes and took code for them from the pipe. -/
structure Draws (decoder : Decoder) (ends : PipeEnds) (piece : Bytes) (after : Decoder)
    (left : PipeEnds) : Prop where
  step : decoder.outlook ends.pipe.content = (after.outlook left.pipe.content).prepend piece
  sound : left.pipe.Sound
  closed_eq : left.pipe.closed = ends.pipe.closed
  limit_eq : left.receiveLimit = ends.receiveLimit

theorem Draws.refl (decoder : Decoder) {ends : PipeEnds} (sound : ends.pipe.Sound) :
    Draws decoder ends [] decoder ends :=
  ⟨rfl, sound, rfl, rfl⟩

theorem Draws.trans {decoder middle after : Decoder} {ends between left : PipeEnds}
    {piece more : Bytes} (first : Draws decoder ends piece middle between)
    (second : Draws middle between more after left) :
    Draws decoder ends (piece ++ more) after left := by
  refine ⟨?_, second.sound, second.closed_eq.trans first.closed_eq,
    second.limit_eq.trans first.limit_eq⟩
  rw [first.step, second.step, Outlook.prepend_prepend]

theorem Draws.ending {decoder after : Decoder} {ends left : PipeEnds} {piece : Bytes}
    (draws : Draws decoder ends piece after left) :
    (after.outlook left.pipe.content).ending = (decoder.outlook ends.pipe.content).ending := by
  rw [draws.step, Outlook.ending_prepend]

def Handed (want : Nat) (decoder : Decoder) (ends : PipeEnds)
    (result : Except RunLength.Failure Bytes × Decoder) (left : PipeEnds) : Prop :=
  ∃ byte more, result.1 = .ok (byte :: more) ∧ (byte :: more).length ≤ want ∧
    Draws decoder ends (byte :: more) result.2 left

theorem drain_handed {decoder : Decoder} {want : Nat} (asked : want ≠ 0)
    (has : decoder.HasData) {ends : PipeEnds} (sound : ends.pipe.Sound) :
    Handed want decoder ends (decoder.drain want) ends := by
  rcases decoder.drainAfter_spec [] want with ⟨piece, after, run, fits, some', step⟩
  rw [Decoder.drain, run]
  cases piece with
  | nil => exact absurd rfl (some' (Nat.pos_of_ne_zero asked) has)
  | cons byte more => exact ⟨byte, more, rfl, fits, step _, sound, rfl, rfl⟩

/-- A decoder asks the pipe only when it needs more code, and then there is some in the pipe. -/
theorem decode_fed (decoder : Decoder) {want : Nat} (asked : want ≠ 0) {ends : PipeEnds}
    (sound : ends.pipe.Sound) (ahead : (decoder.outlook ends.pipe.content).data ≠ []) :
    Fed (Handed want decoder ends) (decoder.decode want) ends := by
  induction decoder using RunLength.Decoder.decode.induct want generalizing ends with
  | case1 decoder none' => exact absurd none' asked
  | case2 decoder _ owes =>
      rw [Decoder.decode, if_neg asked, if_pos owes]
      exact drain_handed asked (.inl owes) sound
  | case3 decoder _ pays frame size rest whole =>
      rw [Decoder.decode, if_neg asked, if_neg pays]
      split
      · exact drain_handed asked (.inr ⟨frame, size, rest, whole⟩) sound
      · simp_all
      · simp_all
  | case4 decoder _ pays fault refused =>
      have nothing := decoder.outlook_malformed (Nat.eq_zero_of_not_pos pays) refused
      exact absurd (nothing _).1 ahead
  | case5 decoder _ pays unfinished induction =>
      have ended := decoder.outlook_atEnd (Nat.eq_zero_of_not_pos pays) unfinished
      have some' : ends.pipe.content ≠ [] := by
        intro empty
        rw [empty] at ahead
        exact ahead ended.1
      rcases PipeEnds.receive_of_content sound some' Decoder.pullLimit_ne_zero with
        ⟨held, byte, more, left, received, loses⟩
      have same :
          { decoder with buffered := decoder.buffered ++ byte :: more }.outlook left.content =
            decoder.outlook ends.pipe.content := by
        rw [Decoder.outlook_pull, loses.content_eq]
      rw [Decoder.decode, if_neg asked, if_neg pays]
      split
      · simp_all
      · simp_all
      · refine ⟨held, byte :: more, _, received, ?_⟩
        apply (induction byte more loses.sound (by rwa [same])).mono
        rintro result after ⟨first, others, handed, fits, step, afterSound, closed, limit⟩
        exact ⟨first, others, handed, fits, same.symm.trans step, afterSound,
          closed.trans loses.closed_eq, limit⟩

theorem decode_times_out (decoder : Decoder) {want : Nat} (asked : want ≠ 0) {ends : PipeEnds}
    (sound : ends.pipe.Sound) (opened : ends.pipe.closed = false) {limit : Span}
    (patience : ends.receiveLimit = some limit) (expires : Pipe.mayExpire (some limit) = true)
    (whole : (decoder.outlook ends.pipe.content).ending = .ok [])
    (none' : (decoder.outlook ends.pipe.content).data = []) :
    ends.runReading (decoder.decode want) =
      some ((.error (.channel (.pipe (.timeout limit))), decoder), ends) := by
  rcases decoder.consumed_of_ends _ none' whole with ⟨empty, consumed⟩
  have pays : ¬ 0 < decoder.owed := by
    have paid := (List.replicate_eq_nil_iff _).mp (List.append_eq_nil_iff.mp none').1
    omega
  have unbuffered : decoder.buffered = [] := by
    rw [Decoder.outlook, empty] at consumed
    refine List.eq_nil_of_length_eq_zero ?_
    simp only [List.length_nil] at consumed
    omega
  have received := PipeEnds.receive_of_empty sound empty opened patience expires
    Decoder.pullLimit_ne_zero
  have unfinished : RunLength.Frame.parse decoder.signal decoder.buffered = .incomplete := by
    rw [unbuffered]
    rfl
  rw [Decoder.decode, if_neg asked, if_neg pays]
  split
  · simp_all
  · simp_all
  · rw [PipeEnds.runReading, Reading.toReceiving, PipeEnds.runReceiving, received]
    rfl

/-- Whatever is asked of the decoder, it hands out these bytes, and then its calls time out. -/
def HandsOut (decoder : Decoder) (pipe : Pipe) (visible : Bytes) : Prop :=
  ∀ sendLimit limit (wants : List Nat), Pipe.mayExpire (some limit) = true →
    (∀ want ∈ wants, want ≠ 0) → ∃ (pieces : List Bytes) (idle : Nat) (after : Decoder)
      (left : PipeEnds),
      PipeEnds.runReading (decoder.decodeAll wants) ⟨pipe, sendLimit, some limit⟩ =
        some ((pieces.map .ok ++
          List.replicate idle (.error (.channel (.pipe (.timeout limit)))), after), left) ∧
      pieces.flatten <+: visible ∧ (0 < idle → pieces.flatten = visible) ∧
      (visible.length < wants.length → 0 < idle)

private theorem decodeAll_draws (wants : List Nat) (asked : ∀ want ∈ wants, want ≠ 0)
    (decoder : Decoder) {ends : PipeEnds} (sound : ends.pipe.Sound)
    (opened : ends.pipe.closed = false) {limit : Span}
    (patience : ends.receiveLimit = some limit) (expires : Pipe.mayExpire (some limit) = true)
    (whole : (decoder.outlook ends.pipe.content).ending = .ok []) :
    ∃ (pieces : List Bytes) (idle : Nat) (after : Decoder) (left : PipeEnds),
      ends.runReading (decoder.decodeAll wants) =
        some ((pieces.map .ok ++
          List.replicate idle (.error (.channel (.pipe (.timeout limit)))), after), left) ∧
      pieces.length + idle = wants.length ∧ (∀ piece ∈ pieces, piece ≠ []) ∧
      Draws decoder ends pieces.flatten after left ∧
      (0 < idle → (after.outlook left.pipe.content).data = []) := by
  induction wants generalizing decoder ends with
  | nil => exact ⟨[], 0, decoder, ends, rfl, rfl, nofun, .refl decoder sound, nofun⟩
  | cons want wants induction =>
      have first := asked want (List.mem_cons_self ..)
      have others : ∀ want ∈ wants, want ≠ 0 := fun other member =>
        asked other (List.mem_cons_of_mem _ member)
      by_cases none' : (decoder.outlook ends.pipe.content).data = []
      · rcases induction others decoder sound opened patience whole with
          ⟨pieces, idle, after, left, ran, count, some', draws, -⟩
        have split := congrArg Outlook.data draws.step
        rw [none', Outlook.prepend, eq_comm, List.append_eq_nil_iff] at split
        rcases split with ⟨noBytes, noData⟩
        have few := RunLength.Decoder.length_le_length_flatten some'
        rw [noBytes, List.length_nil, Nat.le_zero, List.length_eq_zero_iff] at few
        subst few
        refine ⟨[], idle + 1, after, left, ?_, ?_, nofun, draws, fun _ => noData⟩
        · rw [Decoder.decodeAll, PipeEnds.runReading_bind,
            decode_times_out decoder first sound opened patience expires whole none']
          simp only [Option.bind_some, Reading.map, PipeEnds.runReading_bind, ran]
          rfl
        · rw [List.length_cons, ← count]
          simp
      · rcases (decode_fed decoder first sound none').run with
          ⟨⟨outcome, middle⟩, between, handed, byte, more, same, -, draws⟩
        cases same
        rcases induction others middle draws.sound (draws.closed_eq.trans opened)
          (draws.limit_eq.trans patience) (draws.ending.trans whole) with
          ⟨pieces, idle, after, left, ran, count, some', later, ended⟩
        refine ⟨(byte :: more) :: pieces, idle, after, left, ?_, ?_, ?_, draws.trans later, ended⟩
        · rw [Decoder.decodeAll, PipeEnds.runReading_bind, handed]
          simp only [Option.bind_some, Reading.map, PipeEnds.runReading_bind, ran]
          rfl
        · rw [List.length_cons, List.length_cons, ← count]
          omega
        · exact List.forall_mem_cons.mpr ⟨List.cons_ne_nil _ _, some'⟩

theorem handsOut {decoder : Decoder} {pipe : Pipe} (sound : pipe.Sound)
    (opened : pipe.closed = false) (whole : (decoder.outlook pipe.content).ending = .ok []) :
    HandsOut decoder pipe (decoder.outlook pipe.content).data := by
  intro sendLimit limit wants expires asked
  let ends : PipeEnds := ⟨pipe, sendLimit, some limit⟩
  have endsSound : ends.pipe.Sound := sound
  rcases decodeAll_draws wants asked decoder endsSound opened rfl expires whole with
    ⟨pieces, idle, after, left, ran, count, some', draws, ended⟩
  have split : (decoder.outlook pipe.content).data =
      pieces.flatten ++ (after.outlook left.pipe.content).data := congrArg Outlook.data draws.step
  refine ⟨pieces, idle, after, left, ran, ⟨_, split.symm⟩, ?_, ?_⟩
  · intro idles
    rw [split, ended idles, List.append_nil]
  · intro many
    have few := RunLength.Decoder.length_le_length_flatten some'
    have lengths := congrArg List.length split
    rw [List.length_append] at lengths
    omega

/-! ## Programs over a pipe -/

/-- A program that always ends well on the data that a decoder has ahead ends so over the pipe,
and never finds the pipe empty, if it insists on bytes. -/
theorem relay_fed {α : Type} {bad : α → Prop} {after : α → Bytes → Prop} {program : Reading α}
    (insists : program.Insists bad) (good : ∀ result rest, after result rest → ¬ bad result)
    {decoder : Decoder} {ends : PipeEnds} (sound : ends.pipe.Sound)
    (always : Always after program (decoder.outlook ends.pipe.content).data) :
    Fed (fun result left => after result.1 (result.2.outlook left.pipe.content).data)
      (decoder.relay program) ends := by
  induction insists generalizing decoder ends with
  | done result => exact always
  | @pull limit next vain others induction =>
      rcases (Insists.pull vain others).finds always good with ⟨asked, some'⟩
      apply (decode_fed decoder asked sound some').bind
      rintro ⟨outcome, middle⟩ between ⟨byte, more, same, fits, draws⟩
      cases same
      exact induction byte more draws.sound
        (always _ _ ⟨congrArg Outlook.data draws.step, fits, nofun⟩)

theorem Reader.relay_fed {α : Type} {bad : α → Prop} {after : α → Bytes → Prop}
    {program : Reading α} (insists : program.Insists bad)
    (good : ∀ result rest, after result rest → ¬ bad result) {reader : Reader} {ends : PipeEnds}
    (sound : ends.pipe.Sound)
    (always : Always after program (reader.decoder.outlook ends.pipe.content).data) :
    Fed (fun result left => after result.1 (result.2.decoder.outlook left.pipe.content).data)
      (reader.relay program) ends :=
  (EncodedPipe.relay_fed insists good sound always).bind fun _ _ ended => ended

/-- Whatever the time limit is, the requests get these answers, and none of them finds the pipe
empty. -/
def Serves (reader : Reader) (settings : Value.Settings) (pipe : Pipe) (acts : List ReadAct)
    (answers : List Answer) : Prop :=
  ∀ sendLimit receiveLimit,
    let program := reader.relay (Value.requestAll settings acts)
    let ends : PipeEnds := ⟨pipe, sendLimit, receiveLimit⟩
    NeverDry program ends ∧
      ∃ last after left, ends.runReading program = some (((answers.map .ok, last), after), left)

theorem not_anyFailed (answers : List Answer) : ¬ AnyFailed (answers.map .ok) := by
  rintro ⟨outcome, member, failure, rfl⟩
  simp at member

theorem serves {reader : Reader} {settings : Value.Settings} {pipe : Pipe} {acts : List ReadAct}
    {answers : List Answer} (sound : pipe.Sound)
    (finds : Finds settings acts (reader.decoder.outlook pipe.content).data answers) :
    Serves reader settings pipe acts answers := by
  intro sendLimit receiveLimit
  rw [← List.append_nil acts] at finds
  rcases Value.requestAll_always_first finds with
    ⟨first, rest, given, others, last, split, rfl, findsNone, always⟩
  cases findsNone
  rw [List.append_nil] at split ⊢
  have whole := always []
  rw [List.append_nil, ← split] at whole
  have good : ∀ (result : List (Except Value.Failure Answer) × Value.Settings) (rest : Bytes),
      result = (given.map .ok, last) ∧ rest = [] → ¬ AnyFailed result.1 := by
    rintro result rest ⟨rfl, -⟩
    exact not_anyFailed given
  let ends : PipeEnds := ⟨pipe, sendLimit, receiveLimit⟩
  have endsSound : ends.pipe.Sound := sound
  have fed := Reader.relay_fed (Value.requestAll_insists settings acts) good endsSound whole
  refine ⟨fed.neverDry, ?_⟩
  rcases fed.run with ⟨⟨outcomes, after⟩, left, ran, rfl, -⟩
  exact ⟨last, after, left, ran⟩

/-! ## Both threads -/

theorem Writes.unique {order : ByteOrder} {acts : List WriteAct} {data more : Bytes}
    (first : Writes order acts data) (second : Writes order acts more) : data = more := by
  induction first generalizing more with
  | nil =>
      cases second
      rfl
  | item lies others induction =>
      cases second with
      | item liesAgain later =>
          cases lies.symm.trans liesAgain
          rw [induction later]
  | setOrder others induction =>
      cases second with
      | setOrder later => exact induction later
  | flush others induction =>
      cases second with
      | flush later => exact induction later

theorem relay_flush_puts {α : Type} {encoder : Encoder} (ready : encoder.Ready)
    (settings : Value.Settings)
    (change : List (Except Value.Failure Unit) × Value.Settings → α) :
    (encoder.relay ((Value.performAll settings [.flush]).map change)).Puts
      (RunLength.encode encoder.signal encoder.pending.data)
      (change ([.ok ()], settings), encoder.withPending .idle) := by
  change (encoder.flush.bind _).Puts _ _
  exact ready.flush_puts.conclude (.done _)

theorem pending_of_flush (signal : UInt8) (settings : Value.Settings) (begun : List WriteAct)
    {code : Bytes} {result : List (Except Value.Failure Unit) × Value.Settings} {after : Encoder}
    (puts : ((Encoder.new signal).relay (Value.performAll settings (begun ++ [.flush]))).Puts code
      (result, after)) : after.pending = .idle := by
  rcases Value.performAll_puts settings begun with ⟨outcomes, data, last, begunPuts, -⟩
  rcases Encoder.relay_puts begunPuts (Encoder.ready_new signal) (RunLength.carried_nil signal)
    with ⟨pending, more, relayed, fits, -⟩
  rw [Value.performAll_append, Encoder.relay_bind] at puts
  have flushed := relay_flush_puts ((Encoder.ready_new signal).withPending fits)
    { settings with order := last } fun later => (outcomes ++ later.1, later.2)
  exact congrArg (fun result => result.2.pending) (puts.unique (relayed.bind flushed)).2

theorem performAll_sends {values : Value.Settings} {signal : UInt8} {writes : List WriteAct}
    {queued : Bytes} {closes : Bool} {outcomes : List (Except Value.Failure Unit)}
    {written : Value.Settings} {wrote : Writer}
    (goes : (Writer.relay ⟨values, .new signal⟩ (Value.performAll values writes)).toSending.Goes
      queued closes ((outcomes, written), wrote))
    (allWritten : ∀ outcome ∈ outcomes, outcome = .ok ()) :
    ∃ data frames, Writes values.order writes data ∧ Spells signal frames queued ∧
      data = expand frames ++ wrote.encoder.pending.data ∧ closes = false ∧
      (writes.getLast? = some .flush → wrote.encoder.pending = .idle) := by
  rcases Value.performAll_puts values writes with ⟨due, data, last, puts, laid⟩
  rcases Encoder.relay_puts puts (Encoder.ready_new signal) (RunLength.carried_nil signal) with
    ⟨pending, more, relayed, fits, carried⟩
  have yields := (Encoder.ready_new signal).relay_yields (Value.performAll_yields values writes)
    puts
  have relayYields : (Writer.relay ⟨values, .new signal⟩ (Value.performAll values writes)).Yields
      (Writing.Dooms fun result => AnyFailed result.1.1) :=
    yields.map fun failed dooms => dooms.bind fun result failed => failed
  rcases Pipe.Yields.sends relayYields (relayed.map _) goes with
    ⟨outcome, member, failure, failed⟩ | ⟨same, rfl, never⟩
  · rw [allWritten outcome member] at failed
    cases failed
  · cases same
    rcases carried.expansion with ⟨frames, spells, expansion⟩
    refine ⟨data, frames, laid.writes allWritten, spells, expansion, never, ?_⟩
    intro flushed
    rcases List.getLast?_eq_some_iff.mp flushed with ⟨begun, rfl⟩
    exact pending_of_flush signal values begun relayed

theorem requestAll_receives {values : Value.Settings} {signal : UInt8} {early : List ReadAct}
    {pulls : List Pull} {closes : Bool} {results : List (Except Value.Failure Answer)}
    {asked : Value.Settings} {had : Reader}
    (goes : (Reader.relay ⟨values, .new signal⟩ (Value.requestAll values early)).toReceiving.Goes
      pulls closes ((results, asked), had)) :
    closes = false ∧ ∃ upper, (Value.requestAll values early).Goes upper (results, asked) ∧
      (∀ pull ∈ upper, (Channel.brought pull.answer).length ≤ pull.limit) ∧
      ∀ wire, (Decoder.new signal).outlook (pulled pulls ++ wire) =
        (had.decoder.outlook wire).prepend (pulled upper) := by
  rcases Pipe.toReceiving_goes goes with ⟨goes, never⟩
  rcases goes.of_bind with ⟨first, ⟨result, decoder⟩, later, rfl, firstGoes, laterGoes⟩
  cases laterGoes
  rw [List.append_nil]
  exact ⟨never, Decoder.relay_goes firstGoes⟩

theorem finds_after {settings : Value.Settings} {writes : List WriteAct}
    {early late : List ReadAct} {answers : List Answer} {data visible : Bytes}
    {pulls : List Pull} {results : List (Except Value.Failure Answer)} {asked : Value.Settings}
    (writesData : Writes settings.order writes data)
    (meets : Matches settings.longest settings.order settings.order writes (early ++ late) answers)
    (goes : (Value.requestAll settings early).Goes pulls (results, asked))
    (fit : ∀ pull ∈ pulls, (Channel.brought pull.answer).length ≤ pull.limit)
    (split : data = pulled pulls ++ visible)
    (allRead : ∀ result ∈ results, ∃ answer, result = .ok answer) :
    ∃ given others, answers = given ++ others ∧ results = given.map .ok ∧
      Finds asked late visible others := by
  rcases meets.meet with ⟨again, writesAgain, finds⟩
  cases writesData.unique writesAgain
  rcases Value.requestAll_always_first finds with
    ⟨first, rest, given, others, settled, joined, answersSplit, findsLate, always⟩
  have unfailed : ¬ AnyFailed results := by
    rintro ⟨result, member, failure, failed⟩
    rcases allRead result member with ⟨answer, succeeded⟩
    cases failed.symm.trans succeeded
  have alwaysAll := always rest
  rw [← joined, split] at alwaysAll
  rcases (Value.requestAll_insists settings early).goes goes unfailed fit alwaysAll with
    ⟨same, left⟩
  cases same
  rw [← left] at findsLate
  exact ⟨given, others, answersSplit, rfl, findsLate⟩

/-- A thread that performs acts and then rests, and one that makes requests and then rests. -/
def resting (ends : PipeEnds) (writer : Writer) (reader : Reader) (writes : List WriteAct)
    (reads : List ReadAct) :
    Pipe.Exchange (Sending ((List (Except Value.Failure Unit) × Value.Settings) × Writer))
      (Receiving ((List (Except Value.Failure Answer) × Value.Settings) × Reader)) :=
  .start ends.pipe ends.sendLimit ends.receiveLimit
    (writer.relay (Value.performAll writer.values writes)).toSending
    (reader.relay (Value.requestAll reader.values reads)).toReceiving

/-- While a writer whose acts all succeeded rests, the bytes that were written are those that the
reader's requests pulled, those that its decoder hands out before it finds the pipe empty, and
the run that the encoder holds back. After a flush there is no such run, and if the requests all
succeeded so far, the others get their answers and never find the pipe empty. -/
theorem flush_shows_all {settings : Settings} {ends : PipeEnds} {writer : Writer}
    {reader : Reader} (created : create settings = .ok (ends, writer, reader))
    {writes : List WriteAct} {early : List ReadAct} {events : List Pipe.Exchange.Event}
    {last : Pipe.Exchange.Stepped
      (Sending ((List (Except Value.Failure Unit) × Value.Settings) × Writer))
      (Receiving ((List (Except Value.Failure Answer) × Value.Settings) × Reader))}
    (followed : (resting ends writer reader writes early).follow? events = some last)
    {outcomes : List (Except Value.Failure Unit)} {written : Value.Settings} {wrote : Writer}
    (sender : last.exchange.sender = .ready (.done ((outcomes, written), wrote)))
    {results : List (Except Value.Failure Answer)} {asked : Value.Settings} {had : Reader}
    (receiver : last.exchange.receiver = .ready (.done ((results, asked), had)))
    (allWritten : ∀ outcome ∈ outcomes, outcome = .ok ()) :
    ∃ data pulls visible,
      Writes settings.values.order writes data ∧
      (Value.requestAll settings.values early).Goes pulls (results, asked) ∧
      data = pulled pulls ++ visible ++ wrote.encoder.pending.data ∧
      HandsOut had.decoder last.exchange.pipe visible ∧
      (writes.getLast? = some .flush → wrote.encoder.pending = .idle ∧
        ∀ late answers,
          Matches settings.values.longest settings.values.order settings.values.order writes
            (early ++ late) answers →
          (∀ result ∈ results, ∃ answer, result = .ok answer) →
          ∃ given others, answers = given ++ others ∧ results = given.map .ok ∧
            Serves had asked last.exchange.pipe late others) := by
  rcases settings with ⟨capacity, sendLimit, receiveLimit, signal, values⟩
  by_cases usable : capacity = some 0
  · subst usable
    cases created
  · simp only [create, PipeEnds.create, Pipe.create_of_usable usable, Except.map] at created
    cases created
    have started := Pipe.Exchange.sound_start (Pipe.sound_empty usable) sendLimit receiveLimit
      (Writer.relay ⟨values, .new signal⟩ (Value.performAll values writes)).toSending
      (Reader.relay ⟨values, .new signal⟩ (Value.requestAll values early)).toReceiving
    have keeps := started.follow events followed
    rcases started.leads_of_follow events followed sender receiver with
      ⟨senderCloses, wirePulls, receiverCloses, leads, moved, stays⟩
    rcases performAll_sends leads.sends allWritten with
      ⟨data, frames, writesData, spells, expansion, senderKeeps, flushed⟩
    rcases requestAll_receives leads.receives with ⟨receiverKeeps, pulls, goes, fit, step⟩
    have opened : last.exchange.pipe.closed = false := stays senderKeeps receiverKeeps
    have queued : last.queued = pulled wirePulls ++ last.exchange.pipe.content := by
      rw [moved]
      exact keeps.conserved
    -- All that was queued is what the reader has pulled and what it has ahead.
    have ahead : (Decoder.new signal).outlook last.queued =
        (had.decoder.outlook last.exchange.pipe.content).prepend (pulled pulls) := by
      rw [queued, step]
    rw [Decoder.outlook_new_of_spells spells] at ahead
    have whole : (had.decoder.outlook last.exchange.pipe.content).ending = .ok [] := by
      rw [← Outlook.ending_prepend, ← ahead]
      rfl
    have split : expand frames =
        pulled pulls ++ (had.decoder.outlook last.exchange.pipe.content).data :=
      congrArg Outlook.data ahead
    rw [split] at expansion
    refine ⟨data, pulls, _, writesData, goes, expansion, handsOut keeps.sound.pipe opened whole, ?_⟩
    intro flush
    have idle := flushed flush
    refine ⟨idle, ?_⟩
    intro late answers matches' allRead
    rw [idle, RunLength.Pending.data, List.append_nil] at expansion
    rcases finds_after writesData matches' goes fit expansion allRead with
      ⟨given, others, joined, succeeded, finds⟩
    exact ⟨given, others, joined, succeeded, serves keeps.sound.pipe finds⟩

/-- A run goes on over two items and two requests. Without a flush, the run after it is held back
by the encoder. -/
theorem flush_shows_all_over_a_run :
    let begun : List WriteAct := [.item (.raw [7, 7]) none, .item (.raw [7, 8, 8]) none]
    let writer : Writer := ⟨.default, .new 0xE2⟩
    let reader : Reader := ⟨.default, .new 0xE2⟩
    let ends : PipeEnds := ⟨.empty (some 4), none, none⟩
    let had : Reader := ⟨.default, ⟨0xE2, [], 7, 1, 3⟩⟩
    create ⟨some 4, none, none, 0xE2, .default⟩ = .ok (ends, writer, reader) ∧
      (∃ last pulls visible,
        (resting ends writer reader begun [.request (.raw 2) none]).follow?
          [.sender false, .receiver false] = some last ∧
        pulled pulls ++ visible = [7, 7, 7] ∧ HandsOut had.decoder last.exchange.pipe visible) ∧
      ∃ last,
        (resting ends writer reader (begun ++ [.flush]) [.request (.raw 2) none]).follow?
          [.sender false, .receiver false, .sender false] = some last ∧
        Serves had .default last.exchange.pipe [.request (.raw 3) none] [.raw [7, 8, 8]] := by
  intro begun writer reader ends had
  have created : create ⟨some 4, none, none, 0xE2, .default⟩ = .ok (ends, writer, reader) := rfl
  have writes : Writes .big begun ([7, 7] ++ ([7, 8, 8] ++ [])) := .item rfl (.item rfl .nil)
  refine ⟨created, ?_, ?_⟩
  · have followed : (resting ends writer reader begun [.request (.raw 2) none]).follow?
        [.sender false, .receiver false] =
          some ⟨⟨⟨⟨[], []⟩, 0, some 4, false⟩, none, none,
            .ready (.done (([.ok (), .ok ()], .default),
              ⟨.default, ⟨0xE2, .holding 8 2, #[], true⟩⟩)),
            .ready (.done (([.ok (.raw [7, 7])], .default), had))⟩,
            [0xE2, 3, 7], [0xE2, 3, 7]⟩ := by
      simp only [begun, writer, reader, ends, had]
      cbv
    rcases flush_shows_all created followed rfl rfl (by simp) with
      ⟨data, pulls, visible, writesData, -, split, handsOut, -⟩
    refine ⟨_, pulls, visible, followed, ?_, handsOut⟩
    cases writes.unique writesData
    have same : [7, 7, 7] ++ [8, 8] = pulled pulls ++ visible ++ [8, 8] := split
    exact (List.append_cancel_right same).symm
  · have followed : (resting ends writer reader (begun ++ [.flush])
        [.request (.raw 2) none]).follow? [.sender false, .receiver false, .sender false] =
          some ⟨⟨⟨⟨[], [[8, 8]]⟩, 2, some 4, false⟩, none, none,
            .ready (.done (([.ok (), .ok (), .ok ()], .default),
              ⟨.default, ⟨0xE2, .idle, #[], true⟩⟩)),
            .ready (.done (([.ok (.raw [7, 7])], .default), had))⟩,
            [0xE2, 3, 7, 8, 8], [0xE2, 3, 7]⟩ := by
      simp only [begun, writer, reader, ends, had]
      cbv
    have matches' : Matches Value.defaultLongest .big .big (begun ++ [.flush])
        ([.request (.raw 2) none] ++ [.request (.raw 3) none]) [.raw [7, 7], .raw [7, 8, 8]] :=
      .item (.raw [7, 7]) (.item (.raw [7, 8, 8]) (.flush .nil))
    rcases flush_shows_all created followed rfl rfl (by simp) with
      ⟨data, pulls, visible, -, -, -, -, flushed⟩
    rcases (flushed rfl).2 _ _ matches' (by simp) with ⟨given, others, split, results, serves⟩
    rcases given with _ | ⟨first, _ | ⟨second, given⟩⟩
    · cases results
    · cases split
      exact ⟨_, followed, serves⟩
    · cases results

end EncodedPipe

end ByteStreams
