import ByteStreams.EncodedPipe.Basic
import ByteStreams.Proofs.Pipe.Programs
import ByteStreams.Proofs.RunLength.Relaying
import ByteStreams.Proofs.Value.RoundTrip

/-! # What is written to an encoded pipe is read from it

One thread writes items to an encoded pipe and ends, another one makes the requests that
read them back and then reads to the end. Whatever the capacity, the signal and the
schedule, no call fails and every item is read.
-/

namespace ByteStreams

namespace EncodedPipe

open Channel (Reading Writing)
open Pipe (Receiving Sending)
open RunLength (Carried Spells expand)
open Value (Answer Item Request)

/-! ## What the threads do -/

inductive WriteAct
  | item (item : Item) (order : Option ByteOrder)
  /-- Change the order of the calls that name none. -/
  | setOrder (order : ByteOrder)
  | flush

inductive Ending
  | finish
  /-- Close the writer, and drop it after that. -/
  | close
  | drop
deriving DecidableEq, Repr

inductive ReadAct
  | request (request : Request) (order : Option ByteOrder)
  | setOrder (order : ByteOrder)
deriving DecidableEq, Repr

namespace Writer

def setOrder (writer : Writer) (order : ByteOrder) : Writer :=
  { writer with values := { writer.values with order := order } }

def perform (writer : Writer) : WriteAct → Writing (Except Value.Failure Unit × Writer)
  | .item item order => writer.relay (Value.write writer.values item order)
  | .setOrder order => .done (.ok (), writer.setOrder order)
  | .flush => writer.relay Value.flush

def conclude (writer : Writer) : Ending → Writing (Except Failure Unit)
  | .finish => writer.finish
  | .close =>
      writer.close.bind fun (outcome, writer) =>
        writer.drop.map fun _ => outcome.mapError Failure.runLength
  | .drop => writer.drop.map fun _ => .ok ()

def performAll (writer : Writer) (ending : Ending) :
    List WriteAct → Writing (List (Except Value.Failure Unit) × Except Failure Unit)
  | [] => (writer.conclude ending).map fun outcome => ([], outcome)
  | act :: acts =>
      (writer.perform act).bind fun (outcome, writer) =>
        (writer.performAll ending acts).map fun (outcomes, last) => (outcome :: outcomes, last)

end Writer

structure Collected where
  outcomes : List (Except Value.Failure Answer)
  /-- What reading to the end gave after them. -/
  others : Bytes
  /-- Why reading to the end failed, if it did. -/
  failure : Option Channel.Failure
  consumed : Nat

namespace Reader

def setOrder (reader : Reader) (order : ByteOrder) : Reader :=
  { reader with values := { reader.values with order := order } }

def performAll (reader : Reader) : List ReadAct → Reading Collected
  | [] =>
      (reader.relay Reading.readToEnd).map fun ((others, failure), reader) =>
        ⟨[], others, failure, reader.decoder.consumed⟩
  | .setOrder order :: acts => (reader.setOrder order).performAll acts
  | .request request order :: acts =>
      (reader.relay (Value.read reader.values request order)).bind fun (outcome, reader) =>
        (reader.performAll acts).map fun collected =>
          { collected with outcomes := outcome :: collected.outcomes }

end Reader

/-- The requests read back the items, as these answers, from a writer and a reader with
these byte orders. -/
inductive Matches (longest : Nat) :
    ByteOrder → ByteOrder → List WriteAct → List ReadAct → List Answer → Prop
  | nil {written asked : ByteOrder} : Matches longest written asked [] [] []
  | item {written asked : ByteOrder} {item : Item} {request : Request} {answer : Answer}
      {ownWritten ownAsked : Option ByteOrder} {writes : List WriteAct} {reads : List ReadAct}
      {answers : List Answer}
      (first : Value.Reads longest (ownWritten.getD written) (ownAsked.getD asked) item request
        answer) (others : Matches longest written asked writes reads answers) :
      Matches longest written asked (.item item ownWritten :: writes)
        (.request request ownAsked :: reads) (answer :: answers)
  | setWritten {written asked order : ByteOrder} {writes : List WriteAct}
      {reads : List ReadAct} {answers : List Answer}
      (others : Matches longest order asked writes reads answers) :
      Matches longest written asked (.setOrder order :: writes) reads answers
  | setAsked {written asked order : ByteOrder} {writes : List WriteAct}
      {reads : List ReadAct} {answers : List Answer}
      (others : Matches longest written order writes reads answers) :
      Matches longest written asked writes (.setOrder order :: reads) answers
  | flush {written asked : ByteOrder} {writes : List WriteAct}
      {reads : List ReadAct} {answers : List Answer}
      (others : Matches longest written asked writes reads answers) :
      Matches longest written asked (.flush :: writes) reads answers

/-! ## The writing thread -/

/-- The acts write these bytes, from this byte order on. -/
inductive Writes : ByteOrder → List WriteAct → Bytes → Prop
  | nil {order : ByteOrder} : Writes order [] []
  | item {order : ByteOrder} {item : Item} {own : Option ByteOrder} {acts : List WriteAct}
      {bytes data : Bytes} (lies : item.encode (own.getD order) = .ok bytes)
      (others : Writes order acts data) : Writes order (.item item own :: acts) (bytes ++ data)
  | setOrder {before order : ByteOrder} {acts : List WriteAct} {data : Bytes}
      (others : Writes order acts data) : Writes before (.setOrder order :: acts) data
  | flush {order : ByteOrder} {acts : List WriteAct} {data : Bytes}
      (others : Writes order acts data) : Writes order (.flush :: acts) data

namespace Writer

/-- The code that was put stands for the data, but for what the encoder holds back. -/
structure Wrote (writer : Writer) (data code : Bytes) : Prop where
  ready : writer.encoder.Ready
  carried : Carried writer.encoder.signal data code writer.encoder.pending

theorem Wrote.setOrder {writer : Writer} {data code : Bytes} (wrote : writer.Wrote data code)
    (order : ByteOrder) : (writer.setOrder order).Wrote data code :=
  ⟨wrote.ready, wrote.carried⟩

theorem Wrote.relay {α : Type} {writer : Writer} {data code given : Bytes} {result : α}
    {program : Writing α} (wrote : writer.Wrote data code) (puts : program.Puts given result) :
    ∃ after more, (writer.relay program).Puts more (result, after) ∧
      after.Wrote (data ++ given) (code ++ more) ∧ after.values = writer.values ∧
      after.encoder.signal = writer.encoder.signal := by
  rcases RunLength.Encoder.relay_puts puts wrote.ready wrote.carried with
    ⟨pending, more, relayed, fits, carried⟩
  exact ⟨_, more, relayed.map _, ⟨wrote.ready.withPending fits, carried⟩, rfl, rfl⟩

theorem Wrote.conclude {writer : Writer} {data code : Bytes} (wrote : writer.Wrote data code)
    (ending : Ending) :
    (writer.conclude ending).Delivers
      (RunLength.encode writer.encoder.signal writer.encoder.pending.data) (.ok ()) := by
  have opened : writer.encoder.isOpen = true := wrote.ready.opened
  cases ending with
  | finish => exact wrote.ready.finish_puts.giveUp (.release (.done _))
  | close =>
      simp only [Writer.conclude, Writer.close, RunLength.Encoder.close, opened, if_true,
        Writing.map, Writing.bind_bind]
      apply wrote.ready.flushRun_puts.giveUp
      -- A writer that is closed has nothing to drop.
      exact .settle (.release (.done _))
  | drop =>
      simp only [Writer.conclude, Writer.drop, RunLength.Encoder.drop, opened, if_true,
        Writing.map, Writing.bind_bind]
      apply wrote.ready.flushRun_puts.giveUp
      exact .release (.done _)

theorem Wrote.performAll {order : ByteOrder} {acts : List WriteAct} {given : Bytes}
    (writes : Writes order acts given) (ending : Ending) {writer : Writer} {data code : Bytes}
    (wrote : writer.Wrote data code) (ordered : writer.values.order = order) :
    ∃ more frames,
      (writer.performAll ending acts).Delivers more (acts.map fun _ => .ok (), .ok ()) ∧
      Spells writer.encoder.signal frames (code ++ more) ∧ expand frames = data ++ given := by
  induction writes generalizing writer data code with
  | nil =>
      rcases wrote.carried.spells with ⟨frames, spells, expansion⟩
      exact ⟨_, frames, (wrote.conclude ending).map _, spells, by rw [expansion, List.append_nil]⟩
  | @item order item own acts bytes given lies others induction =>
      subst ordered
      rcases wrote.relay (Value.write_puts writer.values lies) with
        ⟨after, first, puts, afterWrote, values, signal⟩
      rcases induction afterWrote (congrArg Value.Settings.order values) with
        ⟨later, frames, delivers, spells, expansion⟩
      refine ⟨first ++ later, frames, puts.deliver (delivers.map _), ?_, ?_⟩
      · rwa [signal, List.append_assoc] at spells
      · rw [expansion, List.append_assoc]
  | @setOrder before order acts given others induction =>
      rcases induction (wrote.setOrder order) rfl with
        ⟨later, frames, delivers, spells, expansion⟩
      exact ⟨later, frames, delivers.map _, spells, expansion⟩
  | @flush order acts given others induction =>
      rcases wrote.relay Value.flush_puts with
        ⟨after, first, puts, afterWrote, values, signal⟩
      rw [List.append_nil] at afterWrote
      rcases induction afterWrote ((congrArg Value.Settings.order values).trans ordered) with
        ⟨later, frames, delivers, spells, expansion⟩
      refine ⟨first ++ later, frames, puts.deliver (delivers.map _), ?_, expansion⟩
      rwa [signal, List.append_assoc] at spells

theorem performAll_delivers (values : Value.Settings) (signal : UInt8) (ending : Ending)
    {acts : List WriteAct} {data : Bytes} (writes : Writes values.order acts data) :
    ∃ code frames,
      (performAll ⟨values, .new signal⟩ ending acts).Delivers code
        (acts.map fun _ => .ok (), .ok ()) ∧
      Spells signal frames code ∧ expand frames = data := by
  have wrote : Wrote ⟨values, .new signal⟩ [] [] :=
    ⟨RunLength.Encoder.ready_new signal, RunLength.carried_nil signal⟩
  exact wrote.performAll writes ending rfl

end Writer

/-! ## The reading thread -/

/-- The acts read this data, as these answers. -/
inductive Finds : Value.Settings → List ReadAct → Bytes → List Answer → Prop
  | nil {settings : Value.Settings} : Finds settings [] [] []
  | request {settings : Value.Settings} {request : Request} {own : Option ByteOrder}
      {acts : List ReadAct} {bytes data : Bytes} {answer : Answer} {answers : List Answer}
      (takes : Value.Takes (Value.read settings request own) bytes answer)
      (others : Finds settings acts data answers) :
      Finds settings (.request request own :: acts) (bytes ++ data) (answer :: answers)
  | setOrder {settings : Value.Settings} {order : ByteOrder} {acts : List ReadAct}
      {data : Bytes} {answers : List Answer}
      (others : Finds { settings with order := order } acts data answers) :
      Finds settings (.setOrder order :: acts) data answers

namespace Reader

theorem relay_always {α : Type} {after : α → Bytes → Prop} {program : Reading α}
    {reader : Reader} {wire : Bytes} (sound : (reader.decoder.outlook wire).ending = .ok [])
    (always : Reading.Always after program (reader.decoder.outlook wire).data) :
    Reading.Always
      (fun result rest =>
        result.2.values = reader.values ∧
          RunLength.Decoder.Leaves after (reader.decoder.outlook wire)
            (result.1, result.2.decoder) rest)
      (reader.relay program) wire := by
  apply (RunLength.Decoder.relay_always rfl sound always).map
  intro result rest leaves
  exact ⟨rfl, leaves⟩

private theorem readToEnd_always {reader : Reader} {wire : Bytes}
    (sound : (reader.decoder.outlook wire).ending = .ok [])
    (none' : (reader.decoder.outlook wire).data = []) :
    Reading.Always
      (fun collected rest =>
        rest = [] ∧ collected = ⟨[], [], none, (reader.decoder.outlook wire).size⟩)
      (reader.performAll []) wire := by
  have always : Reading.Always (fun result rest => result = ([], none) ∧ rest = [])
      Reading.readToEnd (reader.decoder.outlook wire).data := by
    rw [none']
    exact Reading.readToEnd_always
  apply (relay_always sound always).map
  rintro ⟨result, after⟩ rest ⟨-, leaves⟩
  have afterSound := leaves.sound sound
  rcases leaves with ⟨⟨same, nothing⟩, given, step⟩
  cases same
  rcases after.decoder.consumed_of_ends rest nothing afterSound with ⟨left, consumed⟩
  refine ⟨left, ?_⟩
  rw [step]
  exact congrArg (Collected.mk [] [] none) consumed

theorem performAll_always {settings : Value.Settings} {acts : List ReadAct} {data : Bytes}
    {answers : List Answer} (finds : Finds settings acts data answers) (reader : Reader)
    (set : reader.values = settings) {wire : Bytes}
    (sound : (reader.decoder.outlook wire).ending = .ok [])
    (ahead : (reader.decoder.outlook wire).data = data) :
    Reading.Always
      (fun collected rest =>
        rest = [] ∧
          collected = ⟨answers.map .ok, [], none, (reader.decoder.outlook wire).size⟩)
      (reader.performAll acts) wire := by
  induction finds generalizing reader wire with
  | nil => exact readToEnd_always sound ahead
  | @setOrder settings order acts data answers others induction =>
      subst set
      exact induction (reader.setOrder order) rfl sound ahead
  | @request settings request own acts bytes data answer answers takes others induction =>
      subst set
      have always := takes data
      rw [← ahead] at always
      apply (relay_always sound always).bind
      rintro ⟨result, after⟩ rest ⟨set, leaves⟩
      have afterSound := leaves.sound sound
      rcases leaves with ⟨⟨same, left⟩, given, step⟩
      subst same
      apply (induction after set afterSound left).map
      rintro collected last ⟨nothing, rfl⟩
      refine ⟨nothing, ?_⟩
      rw [step]
      rfl

theorem performAll_of_spells {values : Value.Settings} {signal : UInt8} {acts : List ReadAct}
    {answers : List Answer} {frames : List RunLength.Frame} {code : Bytes}
    (finds : Finds values acts (expand frames) answers) (spells : Spells signal frames code) :
    Reading.Always
      (fun collected rest => rest = [] ∧ collected = ⟨answers.map .ok, [], none, code.length⟩)
      (performAll ⟨values, .new signal⟩ acts) code := by
  have sees := RunLength.Decoder.outlook_new_of_spells spells
  have sound : ((RunLength.Decoder.new signal).outlook code).ending = .ok [] := by
    rw [sees]
    rfl
  have always := performAll_always finds ⟨values, .new signal⟩ rfl sound
    (congrArg RunLength.Outlook.data sees)
  rw [sees] at always
  exact always

end Reader

/-! ## Both threads -/

/-- What is written can be read back: the acts of both sides move the same data. -/
theorem Matches.meet {longest : Nat} {written asked : ByteOrder} {writes : List WriteAct}
    {reads : List ReadAct} {answers : List Answer}
    (matches' : Matches longest written asked writes reads answers) :
    ∃ data, Writes written writes data ∧ Finds ⟨asked, longest⟩ reads data answers := by
  induction matches' with
  | nil => exact ⟨[], .nil, .nil⟩
  | @item written asked item request answer ownWritten ownAsked writes reads answers first
      others induction =>
      rcases induction with ⟨data, writesOthers, findsOthers⟩
      rcases Value.Reads.takes ⟨asked, longest⟩ ownAsked first with ⟨bytes, lies, takes⟩
      exact ⟨bytes ++ data, .item lies writesOthers, .request takes findsOthers⟩
  | setWritten others induction =>
      rcases induction with ⟨data, writesOthers, findsOthers⟩
      exact ⟨data, .setOrder writesOthers, findsOthers⟩
  | setAsked others induction =>
      rcases induction with ⟨data, writesOthers, findsOthers⟩
      exact ⟨data, writesOthers, .setOrder findsOthers⟩
  | flush others induction =>
      rcases induction with ⟨data, writesOthers, findsOthers⟩
      exact ⟨data, .flush writesOthers, findsOthers⟩

/-- Acts that can be written have matching ones, if no item holds more content than is read. -/
theorem Writes.exists_matches {longest : Nat} {order : ByteOrder} {acts : List WriteAct}
    {data : Bytes} (writes : Writes order acts data)
    (short : ∀ item own, WriteAct.item item own ∈ acts → item.contentLength ≤ longest) :
    ∃ reads answers, Matches longest order order acts reads answers := by
  induction writes with
  | nil => exact ⟨[], [], .nil⟩
  | @item order item own acts bytes data lies others induction =>
      rcases Value.exists_reads lies (short item own (List.mem_cons_self ..)) with
        ⟨request, answer, first, -⟩
      rcases induction fun item own member => short item own (List.mem_cons_of_mem _ member) with
        ⟨reads, answers, later⟩
      exact ⟨.request request own :: reads, answer :: answers, .item first later⟩
  | @setOrder before order acts data others induction =>
      rcases induction fun item own member => short item own (List.mem_cons_of_mem _ member) with
        ⟨reads, answers, later⟩
      exact ⟨.setOrder order :: reads, answers, .setWritten (.setAsked later)⟩
  | flush others induction =>
      rcases induction fun item own member => short item own (List.mem_cons_of_mem _ member) with
        ⟨reads, answers, later⟩
      exact ⟨reads, answers, .flush later⟩

def exchange (ends : PipeEnds) (writer : Writer) (reader : Reader) (ending : Ending)
    (writes : List WriteAct) (reads : List ReadAct) :
    Pipe.Exchange (Sending (List (Except Value.Failure Unit) × Except Failure Unit))
      (Receiving Collected) :=
  .start ends.pipe ends.sendLimit ends.receiveLimit (writer.performAll ending writes).toSending
    (reader.performAll reads).toReceiving

/-- Under any schedule over an encoded pipe without time limits, a writer that has finished
saw no failure, and a reader that has finished got every item, found nothing after them and
consumed all the code that went through the pipe. Both can always finish. -/
theorem exchange_reads_back (settings : Settings) (usable : settings.capacity ≠ some 0)
    (patient : settings.sendLimit = none ∧ settings.receiveLimit = none)
    {writes : List WriteAct} {reads : List ReadAct} {answers : List Answer}
    (matches' : Matches settings.values.longest settings.values.order settings.values.order
      writes reads answers) (ending : Ending) :
    ∃ ends writer reader, create settings = .ok (ends, writer, reader) ∧
      ∀ events last,
        (exchange ends writer reader ending writes reads).follow? events = some last →
        (∀ task, last.exchange.sender.finished? = some task →
          task.result? = some (writes.map fun _ => .ok (), .ok ())) ∧
        (∀ task, last.exchange.receiver.finished? = some task →
          last.delivered = last.queued ∧
            task.result? = some ⟨answers.map .ok, [], none, last.delivered.length⟩) ∧
        last.exchange.Completes := by
  rcases settings with ⟨capacity, sendLimit, receiveLimit, signal, values⟩
  rcases patient with ⟨rfl, rfl⟩
  rcases matches'.meet with ⟨data, writesData, findsData⟩
  rcases Writer.performAll_delivers values signal ending writesData with
    ⟨code, frames, delivers, spells, rfl⟩
  have always := Reader.performAll_of_spells findsData spells
  rcases Pipe.Delivers.sends delivers with ⟨calls, sends⟩
  refine ⟨⟨.empty capacity, none, none⟩, ⟨values, .new signal⟩, ⟨values, .new signal⟩, ?_, ?_⟩
  · simp only [create, PipeEnds.create, Pipe.create_of_usable usable]
    rfl
  · intro events last followed
    rcases Pipe.passes (Pipe.sound_empty usable) rfl rfl sends (Pipe.Always.receives always)
      followed with ⟨-, senderEnds, receiverEnds, completes⟩
    refine ⟨?_, ?_, completes⟩
    · intro task finished
      exact (senderEnds task finished).2
    · intro task finished
      rcases receiverEnds task finished with ⟨queued, delivered, answer, ended, rfl⟩
      rw [ended, queued, delivered]
      exact ⟨rfl, rfl⟩

/-- A run that two values share goes through a pipe of three bytes. -/
theorem exchange_reads_back_through_three_bytes :
    let writes : List WriteAct := [.item (.scalar (.uint32 0x41414141)) none,
      .item (.narrow32 0xFFFFFF41 1) none, .setOrder .little, .item (.integer (-129)) none,
      .flush, .item (.raw [0xE2]) none]
    let reads : List ReadAct := [.request (.scalar .uint32) none,
      .request (.narrow .signed32 1) none, .request .integer (some .little),
      .request (.raw 1) none]
    ∃ ends writer reader events last sender receiver,
      create ⟨some 3, none, none, 0xE2, ⟨.big, 16⟩⟩ = .ok (ends, writer, reader) ∧
      (exchange ends writer reader .close writes reads).follow? events = some last ∧
      last.exchange.sender.finished? = some sender ∧
      last.exchange.receiver.finished? = some receiver ∧
      sender.result? = some ([.ok (), .ok (), .ok (), .ok (), .ok (), .ok ()], .ok ()) ∧
      receiver.result? = some
        ⟨[.ok (.scalar (.uint32 0x41414141)), .ok (.scalar (.int32 0x41)), .ok (.integer (-129)),
          .ok (.raw [0xE2])], [], none, last.delivered.length⟩ := by
  intro writes reads
  have gives : Value.NarrowKind.Gives 1 (0xFFFFFF41 : UInt32).toNat .signed32 (.int32 0x41) := by
    unfold Value.NarrowKind.Gives
    decide
  have matches' : Matches 16 .big .big writes reads [.scalar (.uint32 0x41414141),
      .scalar (.int32 0x41), .integer (-129), .raw [0xE2]] :=
    .item (.scalar _ (.inr rfl)) <|
    .item (.narrow32 _ (by decide) (by decide) (.inl (by decide)) gives) <|
    .setWritten <|
    .item (.integer (-129) rfl (by decide +kernel) (by decide +kernel)) <|
    .flush <|
    .item (.raw [0xE2]) .nil
  rcases exchange_reads_back ⟨some 3, none, none, 0xE2, ⟨.big, 16⟩⟩ (by decide) ⟨rfl, rfl⟩
    matches' .close with ⟨ends, writer, reader, created, always⟩
  rcases always [] _ rfl with ⟨-, -, events, last, -, followed, senderEnds, receiverEnds⟩
  rcases Option.isSome_iff_exists.mp senderEnds with ⟨sender, senderOver⟩
  rcases Option.isSome_iff_exists.mp receiverEnds with ⟨receiver, receiverOver⟩
  rcases always events last followed with ⟨senderResult, receiverResult, -⟩
  exact ⟨ends, writer, reader, events, last, sender, receiver, created, followed, senderOver,
    receiverOver, senderResult sender senderOver, (receiverResult receiver receiverOver).2⟩

end EncodedPipe

end ByteStreams
