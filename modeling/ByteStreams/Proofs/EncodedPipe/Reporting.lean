import ByteStreams.Command.Exit
import ByteStreams.Proofs.EncodedPipe.RoundTrip
import ByteStreams.Proofs.Pipe.Hearing
import ByteStreams.Proofs.RunLength.Reporting
import ByteStreams.Proofs.Value.Failures

/-! # Failures cross the layers unchanged

Whatever fails under a value that is written or read, the call fails with it and with nothing
else, and what is said of it is what the layer that failed says: a fault of the pipe, a fault of
the code that was read, or that the encoder is closed. No call goes on after a failure.
-/

namespace ByteStreams

/-- A failure to write or read a value is this failure of the channel below, as it is, whether
or not it is taken for one of the whole stack. -/
structure Value.Failure.Carries (failure : Value.Failure) (cause : Channel.Failure) : Prop where
  below : failure = .channel cause
  bare : failure.toChannel = cause
  stacked : (EncodedPipe.Failure.value failure).toChannel = cause

theorem Value.Failure.carries (cause : Channel.Failure) :
    (Value.Failure.channel cause).Carries cause :=
  ⟨rfl, rfl, rfl⟩

namespace EncodedPipe

open Channel (Call Fruitful Pull Reading Reports Writing brought pulled)
open Pipe (Counted Heard HeardAll Receiving Sending Supplied)
open RunLength (Encoder Decoder expand split)
open RunLength.Decoder (Serves Stands)
open Value (Answer Item Own Reflects Request)

/-! ## Programs over an encoder -/

section Encoding

variable {encoder after : Encoder} {calls : List Call} {outcome : Except Value.Failure Unit}

theorem relay_writePieces_reports {pieces : List Bytes} (orderly : encoder.Orderly)
    (opened : encoder.isOpen = true)
    (goes : (encoder.relay (Value.writePieces pieces)).Goes calls (outcome, after)) :
    Reports Value.Failure.channel calls outcome ∧ after.Orderly ∧ after.isOpen = true := by
  induction pieces generalizing encoder calls with
  | nil =>
      cases goes
      exact ⟨.nothing _, orderly, opened⟩
  | cons piece pieces induction =>
      rw [Value.writePieces, Encoder.relay] at goes
      split at goes
      · exact induction orderly opened goes
      · rcases goes.of_bind with ⟨first, ⟨passed, middle⟩, later, rfl, firstGoes, laterGoes⟩
        have stays := orderly.encode_staysOpen opened firstGoes
        cases passed with
        | error failure =>
            cases laterGoes
            rw [List.append_nil]
            exact ⟨stays.reports.mapError (Value.Failure.channel ∘ RunLength.Failure.toChannel),
              stays.orderly, stays.opened⟩
        | ok =>
            rcases induction stays.orderly stays.opened laterGoes with
              ⟨reports, afterOrderly, afterOpened⟩
            exact ⟨reports.after stays.reports.unfailed, afterOrderly, afterOpened⟩

theorem relay_flush_reports (orderly : encoder.Orderly) (opened : encoder.isOpen = true)
    (goes : (encoder.relay Value.flush).Goes calls (outcome, after)) :
    Reports Value.Failure.channel calls outcome ∧ after.Orderly ∧ after.isOpen = true := by
  rw [Value.flush, Encoder.relay] at goes
  rcases goes.of_bind with ⟨first, ⟨passed, middle⟩, later, rfl, firstGoes, laterGoes⟩
  have stays := orderly.flush_staysOpen opened firstGoes
  cases laterGoes
  rw [List.append_nil]
  refine ⟨?_, stays.orderly, stays.opened⟩
  cases passed with
  | error failure =>
      exact stays.reports.mapError (Value.Failure.channel ∘ RunLength.Failure.toChannel)
  | ok => exact .succeeds stays.reports.unfailed

theorem relay_writePieces_of_closed (closed : encoder.isOpen = false) (pieces : List Bytes) :
    encoder.relay (Value.writePieces pieces) =
      .done (if pieces.flatten = [] then .ok () else .error (.channel (.runLength .closed)),
        encoder) := by
  induction pieces with
  | nil => rfl
  | cons piece pieces induction =>
      rw [Value.writePieces, Encoder.relay]
      cases piece with
      | nil => exact induction
      | cons byte more => simp [Encoder.encode, closed, Writing.bind, Encoder.answer,
          Except.mapError, RunLength.Failure.toChannel, Encoder.relay]

theorem relay_flush_of_closed (orderly : encoder.Orderly) (closed : encoder.isOpen = false) :
    encoder.relay Value.flush = .done (.error (.channel (.runLength .closed)), encoder) := by
  rw [Value.flush, Encoder.relay, orderly.flush_of_closed closed]
  rfl

end Encoding

/-! ## Writing -/

namespace WriteAct

/-- What an act comes to if nothing below it fails. -/
def due (settings : Value.Settings) : WriteAct → Except Value.Failure Unit
  | .item value own =>
      ((value.encode (settings.effective own)).map fun _ => ()).mapError Value.Failure.fault
  | .setOrder _ | .flush => .ok ()

def Asks (settings : Value.Settings) : WriteAct → Prop
  | .item value own => ∃ bytes, value.encode (settings.effective own) = .ok bytes ∧ bytes ≠ []
  | .setOrder _ => False
  | .flush => True

variable {settings : Value.Settings} {item : Item} {own : Option ByteOrder}

theorem due_of_refused {fault : Value.Fault}
    (refused : item.pieces (settings.effective own) = .error fault) :
    due settings (.item item own) = .error (.fault fault) := by
  rw [due, Item.encode, refused]
  rfl

theorem due_of_laid {pieces : List Bytes}
    (laid : item.pieces (settings.effective own) = .ok pieces) :
    due settings (.item item own) = .ok () := by
  rw [due, Item.encode, laid]
  rfl

theorem not_asks_of_refused {fault : Value.Fault}
    (refused : item.pieces (settings.effective own) = .error fault) :
    ¬Asks settings (.item item own) := by
  rintro ⟨bytes, encoded, -⟩
  rw [Item.encode, refused] at encoded
  cases encoded

theorem asks_iff_of_laid {pieces : List Bytes}
    (laid : item.pieces (settings.effective own) = .ok pieces) :
    Asks settings (.item item own) ↔ pieces.flatten ≠ [] := by
  have encoded : item.encode (settings.effective own) = .ok pieces.flatten := by
    rw [Item.encode, laid]
    rfl
  simp [Asks, encoded]

end WriteAct

/-- How an act of a writer comes out, and what its sends answer. -/
inductive ActEnds (writer : Writer) :
    WriteAct → List (Except Pipe.Fault Nat) → Except Value.Failure Unit → Prop
  /-- No send fails, and no encoder is missing. -/
  | unfailed {act : WriteAct} {answers : List (Except Pipe.Fault Nat)} (counted : Counted answers)
      (able : writer.encoder.isOpen = true ∨ ¬act.Asks writer.values ∧ answers = []) :
      ActEnds writer act answers (act.due writer.values)
  /-- The last send fails. -/
  | failed {act : WriteAct} {answers : List (Except Pipe.Fault Nat)} {fault : Pipe.Fault}
      {failure : Value.Failure} (opened : writer.encoder.isOpen = true) (counted : Counted answers)
      (carries : failure.Carries (.pipe fault)) :
      ActEnds writer act (answers ++ [.error fault]) (.error failure)
  | closed {act : WriteAct} {failure : Value.Failure} (closed : writer.encoder.isOpen = false)
      (asks : act.Asks writer.values) (carries : failure.Carries (.runLength .closed)) :
      ActEnds writer act [] (.error failure)

/-- How closing a writer comes out whose encoder is open or not, what its sends answer, and
whether the encoder is open after it. -/
inductive CloseEnds :
    Bool → List (Except Pipe.Fault Nat) → Except RunLength.Failure Unit → Bool → Prop
  | closes {answers : List (Except Pipe.Fault Nat)} (counted : Counted answers) :
      CloseEnds true answers (.ok ()) false
  | failed {answers : List (Except Pipe.Fault Nat)} {fault : Pipe.Fault}
      (counted : Counted answers) :
      CloseEnds true (answers ++ [.error fault]) (.error (.channel (.pipe fault))) true
  | again : CloseEnds false [] (.ok ()) false

inductive WriteCall
  | act (act : WriteAct)
  | close

inductive WriteOutcome
  | act (outcome : Except Value.Failure Unit)
  | close (outcome : Except RunLength.Failure Unit)
deriving DecidableEq

/-- What calls of a writer come to, and what the sends answer. Each call makes its own sends, and
the answers to them are a branch of its program. -/
inductive WriteLog : Writer → List WriteCall → List (Except Pipe.Fault Nat) →
    List WriteOutcome → Prop
  | nil {writer : Writer} : WriteLog writer [] [] []
  | act {writer after : Writer} {act : WriteAct} {calls : List WriteCall}
      {answers more : List (Except Pipe.Fault Nat)} {outcome : Except Value.Failure Unit}
      {outcomes : List WriteOutcome}
      (hears : (writer.perform act).toSending.Hears answers (outcome, after))
      (ends : ActEnds writer act answers outcome)
      (kept : after.encoder.isOpen = writer.encoder.isOpen)
      (others : WriteLog after calls more outcomes) :
      WriteLog writer (.act act :: calls) (answers ++ more) (.act outcome :: outcomes)
  | close {writer after : Writer} {calls : List WriteCall}
      {answers more : List (Except Pipe.Fault Nat)} {outcome : Except RunLength.Failure Unit}
      {outcomes : List WriteOutcome}
      (hears : writer.close.toSending.Hears answers (outcome, after))
      (ends : CloseEnds writer.encoder.isOpen answers outcome after.encoder.isOpen)
      (others : WriteLog after calls more outcomes) :
      WriteLog writer (.close :: calls) (answers ++ more) (.close outcome :: outcomes)

namespace Writer

def serve (writer : Writer) : WriteCall → Writing (WriteOutcome × Writer)
  | .act act => (writer.perform act).map fun (outcome, after) => (.act outcome, after)
  | .close => writer.close.map fun (outcome, after) => (.close outcome, after)

def serveAll (writer : Writer) : List WriteCall → Writing (List WriteOutcome)
  | [] => .done []
  | call :: calls =>
      (writer.serve call).bind fun (outcome, after) =>
        (after.serveAll calls).map fun outcomes => outcome :: outcomes

variable {writer after : Writer} {made : List Call} {answers : List (Except Pipe.Fault Nat)}

private theorem actEnds_of_reports {act : WriteAct} {outcome : Except Value.Failure Unit}
    (opened : writer.encoder.isOpen = true) (heard : HeardAll made answers)
    (reports : Reports Value.Failure.channel made outcome) (due : act.due writer.values = .ok ()) :
    ActEnds writer act answers outcome := by
  rcases heard.reports reports with
    ⟨counted, rfl⟩ | ⟨counts, fault, rfl, counted, rfl⟩
  · rw [← due]
    exact .unfailed counted (.inl opened)
  · exact .failed opened counted (Value.Failure.carries _)

private theorem item_ends {item : Item} {own : Option ByteOrder}
    {outcome : Except Value.Failure Unit} (orderly : writer.encoder.Orderly)
    (goes : (writer.perform (.item item own)).Goes made (outcome, after))
    (heard : HeardAll made answers) :
    ActEnds writer (.item item own) answers outcome ∧ after.encoder.Orderly ∧
      after.encoder.isOpen = writer.encoder.isOpen := by
  rcases goes.of_map with ⟨⟨result, encoder⟩, relayed, same⟩
  cases same
  rw [Value.write] at relayed
  cases laid : item.pieces (writer.values.effective own) with
  | error fault =>
      rw [laid] at relayed
      cases relayed
      cases heard
      rw [← WriteAct.due_of_refused laid]
      exact ⟨.unfailed Pipe.counted_nil (.inr ⟨WriteAct.not_asks_of_refused laid, rfl⟩), orderly,
        rfl⟩
  | ok pieces =>
      rw [laid] at relayed
      have due := WriteAct.due_of_laid laid
      cases opened : writer.encoder.isOpen with
      | true =>
          rcases relay_writePieces_reports orderly opened relayed with
            ⟨reports, afterOrderly, afterOpened⟩
          exact ⟨actEnds_of_reports opened heard reports due, afterOrderly, afterOpened⟩
      | false =>
          have asks := WriteAct.asks_iff_of_laid laid
          simp only [relay_writePieces_of_closed opened] at relayed
          cases relayed
          cases heard
          refine ⟨?_, orderly, opened⟩
          by_cases nothing : pieces.flatten = []
          · rw [if_pos nothing, ← due]
            exact .unfailed Pipe.counted_nil (.inr ⟨fun some' => asks.mp some' nothing, rfl⟩)
          · rw [if_neg nothing]
            exact .closed opened (asks.mpr nothing) (Value.Failure.carries _)

theorem perform_ends {act : WriteAct} {outcome : Except Value.Failure Unit}
    (orderly : writer.encoder.Orderly) (goes : (writer.perform act).Goes made (outcome, after))
    (heard : HeardAll made answers) :
    ActEnds writer act answers outcome ∧ after.encoder.Orderly ∧
      after.encoder.isOpen = writer.encoder.isOpen := by
  cases act with
  | item item own => exact item_ends orderly goes heard
  | setOrder order =>
      cases goes
      cases heard
      exact ⟨.unfailed Pipe.counted_nil (.inr ⟨id, rfl⟩), orderly, rfl⟩
  | flush =>
      rcases goes.of_map with ⟨⟨result, encoder⟩, relayed, same⟩
      cases same
      cases opened : writer.encoder.isOpen with
      | true =>
          rcases relay_flush_reports orderly opened relayed with
            ⟨reports, afterOrderly, afterOpened⟩
          exact ⟨actEnds_of_reports opened heard reports rfl, afterOrderly, afterOpened⟩
      | false =>
          rw [relay_flush_of_closed orderly opened] at relayed
          cases relayed
          cases heard
          exact ⟨.closed opened trivial (Value.Failure.carries _), orderly, opened⟩

theorem close_ends {outcome : Except RunLength.Failure Unit} (orderly : writer.encoder.Orderly)
    (goes : writer.close.Goes made (outcome, after)) (heard : HeardAll made answers) :
    CloseEnds writer.encoder.isOpen answers outcome after.encoder.isOpen ∧
      after.encoder.Orderly := by
  rcases goes.of_map with ⟨⟨result, encoder⟩, closes, same⟩
  cases same
  cases opened : writer.encoder.isOpen with
  | true =>
      rcases orderly.close_reports opened closes heard.settles with
        ⟨reports, afterOrderly, givenUp, kept⟩
      refine ⟨?_, afterOrderly⟩
      rcases heard.reports reports with
        ⟨counted, rfl⟩ | ⟨counts, fault, rfl, counted, rfl⟩
      · rw [givenUp rfl]
        exact .closes counted
      · rw [kept nofun]
        exact .failed counted
  | false =>
      rw [Encoder.close, if_neg (by simp [opened])] at closes
      cases closes
      cases heard
      rw [opened]
      exact ⟨.again, orderly⟩

theorem serveAll_logs {calls : List WriteCall} {outcomes : List WriteOutcome}
    (orderly : writer.encoder.Orderly)
    (hears : (writer.serveAll calls).toSending.Hears answers outcomes) :
    WriteLog writer calls answers outcomes := by
  induction calls generalizing writer answers outcomes with
  | nil =>
      cases hears
      exact .nil
  | cons call calls induction =>
      rcases Pipe.toSending_hears_bind hears with
        ⟨answers, ⟨outcome, middle⟩, more, rfl, served, laterHears⟩
      rcases Pipe.toSending_hears_map laterHears with ⟨others, othersHear, rfl⟩
      cases call with
      | act act =>
          rcases Pipe.toSending_hears_map served with ⟨⟨result, after⟩, performed, same⟩
          cases same
          rcases Pipe.toSending_hears performed with ⟨made, goes, heard⟩
          rcases perform_ends orderly goes heard with ⟨ends, afterOrderly, kept⟩
          exact .act performed ends kept (induction afterOrderly othersHear)
      | close =>
          rcases Pipe.toSending_hears_map served with ⟨⟨result, after⟩, closes, same⟩
          cases same
          rcases Pipe.toSending_hears closes with ⟨made, goes, heard⟩
          rcases close_ends orderly goes heard with ⟨ends, afterOrderly⟩
          exact .close closes ends (induction afterOrderly othersHear)

end Writer

/-! ## Reading -/

/-- How a request comes out, and what its receives answer, when its reader has pulled `code` in
the end and handed out `data` of it. -/
inductive RequestVerdict (signal : UInt8) (code data : Bytes) :
    List (Except Pipe.Fault Bytes) → Except Value.Failure Answer → Prop
  | own {heard : List (Except Pipe.Fault Bytes)} {outcome : Except Value.Failure Answer}
      (supplied : Supplied heard) (own : Own outcome) :
      RequestVerdict signal code data heard outcome
  /-- The pipe has ended after whole frames. -/
  | ended {heard : List (Except Pipe.Fault Bytes)} {expected obtained : Nat}
      (supplied : Supplied heard) (whole : RunLength.decode signal code = .ok data) :
      RequestVerdict signal code data (heard ++ [.ok []])
        (.error (.fault (.unexpectedEnd expected obtained)))
  /-- The pipe has ended in a frame. -/
  | truncated {heard : List (Except Pipe.Fault Bytes)} {part : RunLength.Part} {offset : Nat}
      {failure : Value.Failure} (supplied : Supplied heard)
      (met : RunLength.decode signal code = .error (.truncated part offset))
      (carries : failure.Carries (.runLength (.truncated part offset))) :
      RequestVerdict signal code data (heard ++ [.ok []]) (.error failure)
  /-- No bytes after those that came make frames of them. -/
  | malformed {heard : List (Except Pipe.Fault Bytes)} {fault : RunLength.Fault}
      {failure : Value.Failure} (supplied : Supplied heard)
      (met : ∀ wire, RunLength.decode signal (code ++ wire) = .error fault)
      (invalid : (Channel.Failure.runLength fault).kind = .invalidData)
      (carries : failure.Carries (.runLength fault)) :
      RequestVerdict signal code data heard (.error failure)
  /-- The last receive fails. -/
  | failed {heard : List (Except Pipe.Fault Bytes)} {fault : Pipe.Fault}
      {failure : Value.Failure} (supplied : Supplied heard)
      (carries : failure.Carries (.pipe fault)) :
      RequestVerdict signal code data (heard ++ [.error fault]) (.error failure)

/-- What a request comes to of a reader that has pulled `code` and handed out `data` of it, what
its receives answer, and what the decoder hands out for it. -/
structure RequestEnds (signal : UInt8) (values : Value.Settings) (code data : Bytes)
    (request : Request) (own : Option ByteOrder) (heard : List (Except Pipe.Fault Bytes))
    (given : Bytes) (outcome : Except Value.Failure Answer) : Prop where
  verdict :
    RequestVerdict signal (code ++ heard.flatMap brought) (data ++ given) heard outcome
  /-- Only bytes that whole frames stand for are handed out. -/
  front : data ++ given <+: expand (split signal (code ++ heard.flatMap brought)).frames
  /-- An outcome that tells of no failure is made of bytes that were handed out, and of no call
  that brought none. -/
  made : Own outcome → ∃ pulls, (Value.read values request own).Goes pulls outcome ∧
    Fruitful pulls ∧ pulled pulls = given

/-- What requests of a reader come to that has pulled `code` and handed out `data` of it, and
what the receives answer. Each request makes its own receives, and the answers to them are a
branch of its program. -/
inductive ReadLog (signal : UInt8) : Reader → (code data : Bytes) → List ReadAct →
    List (Except Pipe.Fault Bytes) → List (Except Value.Failure Answer) → Prop
  | nil {reader : Reader} {code data : Bytes} : ReadLog signal reader code data [] [] []
  | setOrder {reader : Reader} {order : ByteOrder} {code data : Bytes} {acts : List ReadAct}
      {heard : List (Except Pipe.Fault Bytes)} {outcomes : List (Except Value.Failure Answer)}
      (others : ReadLog signal (reader.setOrder order) code data acts heard outcomes) :
      ReadLog signal reader code data (.setOrder order :: acts) heard outcomes
  | request {reader after : Reader} {code data given : Bytes} {request : Request}
      {own : Option ByteOrder} {acts : List ReadAct} {heard more : List (Except Pipe.Fault Bytes)}
      {outcome : Except Value.Failure Answer} {outcomes : List (Except Value.Failure Answer)}
      (hears : (reader.relay (Value.read reader.values request own)).toReceiving.Hears heard
        (outcome, after))
      (ends : RequestEnds signal reader.values code data request own heard given outcome)
      (others : ReadLog signal after (code ++ heard.flatMap brought) (data ++ given) acts more
        outcomes) :
      ReadLog signal reader code data (.request request own :: acts) (heard ++ more)
        (outcome :: outcomes)

namespace Reader

def answerAll (reader : Reader) : List ReadAct → Reading (List (Except Value.Failure Answer))
  | [] => .done []
  | .setOrder order :: acts => (reader.setOrder order).answerAll acts
  | .request request own :: acts =>
      (reader.relay (Value.read reader.values request own)).bind fun (outcome, after) =>
        (after.answerAll acts).map fun outcomes => outcome :: outcomes

def Heard (pulls : List Pull) (heard : List (Except Pipe.Fault Bytes)) : Prop :=
  pulls.map Pull.answer = heard.map fun answer => answer.mapError .pipe

variable {pulls upper first later : List Pull} {heard : List (Except Pipe.Fault Bytes)}

theorem Heard.of_append (all : Heard (first ++ later) heard) :
    ∃ early late, heard = early ++ late ∧ Heard first early ∧ Heard later late := by
  rw [Heard, List.map_append] at all
  rcases List.map_eq_append_iff.mp all.symm with ⟨early, late, rfl, firstSame, laterSame⟩
  exact ⟨early, late, rfl, firstSame.symm, laterSame.symm⟩

theorem Heard.pulled_eq (all : Heard pulls heard) : pulled pulls = heard.flatMap brought := by
  have sum := congrArg (List.flatMap brought) all
  rw [List.flatMap_map, List.flatMap_map] at sum
  simp only [Decoder.brought_mapError] at sum
  exact sum

theorem Heard.supplied (all : Heard pulls heard) (fruitful : Fruitful pulls) : Supplied heard := by
  intro answer member
  have passed : answer.mapError .pipe ∈ pulls.map Pull.answer := by
    rw [all]
    exact List.mem_map_of_mem member
  rcases List.mem_map.mp passed with ⟨pull, among, same⟩
  rcases fruitful pull among with ⟨byte, more, brings⟩
  rw [brings] at same
  cases answer with
  | error fault => cases same
  | ok piece =>
      cases same
      exact ⟨byte, more, rfl⟩

theorem Heard.of_stop {pull : Pull} (all : Heard (first ++ (later ++ [pull])) heard)
    (fruitful : Fruitful first) (others : Fruitful later) :
    ∃ early answer, heard = early ++ [answer] ∧ Supplied early ∧
      pull.answer = answer.mapError .pipe := by
  rw [← List.append_assoc] at all
  rcases all.of_append with ⟨early, late, rfl, earlyHeard, lateHeard⟩
  rcases List.map_eq_singleton_iff.mp lateHeard.symm with ⟨answer, rfl, same⟩
  exact ⟨early, answer, rfl, earlyHeard.supplied (fruitful.append others), same.symm⟩

variable {signal : UInt8} {values : Value.Settings} {code data : Bytes}
  {decoder after : Decoder} {outcome : Except Value.Failure Answer}

private theorem verdict_of_stopped {said : Except RunLength.Failure Bytes} {how : Reading.Ending}
    (tells : Decoder.Tells later said after)
    (stops : Reading.Stops (said.mapError RunLength.Failure.toChannel) how)
    (reflects : Reflects how outcome) (fruitful : Fruitful first)
    (all : Heard (first ++ later) heard) (stands : Stands signal code data after) :
    RequestVerdict signal code data heard outcome := by
  cases tells with
  | hands others some' =>
      cases stops
      exact absurd rfl some'
  | ended others none' whole =>
      rcases all.of_stop fruitful others with ⟨early, answer, rfl, supplied, same⟩
      cases stops
      rcases reflects with ⟨expected, obtained, rfl⟩
      cases answer <;> cases same
      exact .ended supplied (stands.whole whole none')
  | cut others met =>
      rcases all.of_stop fruitful others with ⟨early, answer, rfl, supplied, same⟩
      cases stops
      cases reflects
      cases answer <;> cases same
      have decoded := stands.fault [] met
      rw [List.append_nil] at decoded
      exact .truncated supplied decoded (Value.Failure.carries _)
  | malformed others invalid met =>
      cases stops
      cases reflects
      exact .malformed (all.supplied (fruitful.append others))
        (fun wire => stands.fault wire (met wire)) invalid (Value.Failure.carries _)
  | failed others =>
      rcases all.of_stop fruitful others with ⟨early, answer, rfl, supplied, same⟩
      cases stops
      cases reflects
      cases answer <;> cases same
      exact .failed supplied (Value.Failure.carries _)

theorem request_ends {request : Request} {own : Option ByteOrder}
    (goes : (Value.read values request own).Goes upper outcome)
    (serves : Serves decoder upper pulls after) (all : Heard pulls heard)
    (stands : Stands signal code data decoder) :
    RequestEnds signal values code data request own heard (pulled upper) outcome := by
  have handed := stands.serves serves
  rw [all.pulled_eq] at handed
  rcases (Value.read_heeds values request own).goes goes with ⟨how, ends, reflects⟩
  refine ⟨?_, handed.front, ?_⟩
  · cases ends with
    | complete fruitful => exact .own (all.supplied (serves.fruitful fruitful)) reflects
    | stopped fruitful asked stops =>
        rcases serves.of_concat with ⟨first, later, middle, said, rfl, earlier, call, rfl⟩
        exact verdict_of_stopped (Decoder.decode_tells asked _ call) stops reflects
          (earlier.fruitful fruitful) all handed
  · intro ownOutcome
    cases ends with
    | complete fruitful => exact ⟨upper, goes, fruitful, rfl⟩
    | stopped fruitful asked stops =>
        cases stops with
        | ended =>
            rcases reflects with ⟨expected, obtained, rfl⟩
            exact ownOutcome.elim
        | failed failure =>
            cases reflects
            exact ownOutcome.elim

theorem answerAll_logs {reader : Reader} {acts : List ReadAct}
    {outcomes : List (Except Value.Failure Answer)}
    (hears : (reader.answerAll acts).toReceiving.Hears heard outcomes)
    (stands : Stands signal code data reader.decoder) :
    ReadLog signal reader code data acts heard outcomes := by
  induction acts generalizing reader code data heard outcomes with
  | nil =>
      cases hears
      exact .nil
  | cons act acts induction =>
      cases act with
      | setOrder order => exact .setOrder (induction hears stands)
      | request request own =>
          rcases Pipe.toReceiving_hears_bind hears with
            ⟨heard, ⟨outcome, after⟩, more, rfl, requested, laterHears⟩
          rcases Pipe.toReceiving_hears_map laterHears with ⟨others, othersHear, rfl⟩
          rcases Pipe.toReceiving_hears requested with ⟨pulls, goes, all⟩
          rcases goes.of_map with ⟨⟨result, decoder⟩, relayed, same⟩
          cases same
          rcases Decoder.relay_serves relayed with ⟨upper, upperGoes, serves⟩
          have handed := stands.serves serves
          rw [Heard.pulled_eq all] at handed
          exact .request requested (request_ends upperGoes serves all stands)
            (induction othersHear handed)

end Reader

/-! ## Both ends of an encoded pipe -/

/-- In every run of an encoded pipe, whatever the other thread does and whatever time limits are
set: a write, a flush or a read that fails with the pipe fails with the pipe's fault, one that
meets faulty code with the fault of the code, and one without an open encoder as closed. Its
failure is of that kind and says just that, none is tried again, and a command that refuses by it
refuses as it does by the fault itself. A call that is not over yet may still hear `rest`. -/
theorem failures_cross_unchanged {settings : Settings} {ends : PipeEnds} {writer : Writer}
    {reader : Reader} (created : create settings = .ok (ends, writer, reader)) :
    writer.encoder.isOpen = true ∧
      (∀ (ρ : Type) [Pipe.ReceiveTask ρ] (receiver : ρ) (calls : List WriteCall) sent received
          (last : Pipe.Exchange (Sending (List WriteOutcome)) ρ) rest outcomes,
        (Pipe.Exchange.start ends.pipe ends.sendLimit ends.receiveLimit
          (writer.serveAll calls).toSending receiver).Runs sent received last →
        last.sender.Hears rest outcomes → WriteLog writer calls (sent ++ rest) outcomes) ∧
      (∀ (σ : Type) [Pipe.SendTask σ] (sender : σ) (acts : List ReadAct) sent received
          (last : Pipe.Exchange σ (Receiving (List (Except Value.Failure Answer)))) rest outcomes,
        (Pipe.Exchange.start ends.pipe ends.sendLimit ends.receiveLimit sender
          (reader.answerAll acts).toReceiving).Runs sent received last →
        last.receiver.Hears rest outcomes →
        ReadLog settings.signal reader [] [] acts (received ++ rest) outcomes) ∧
      (Channel.Failure.runLength .closed).kind = .brokenPipe ∧
      (∀ part offset, (Channel.Failure.runLength (.truncated part offset)).kind = .invalidData) ∧
      (∀ fault, (Channel.Failure.pipe fault).isInterruption = false) ∧
      (∀ fault, (Channel.Failure.runLength fault).isInterruption = false) ∧
      (∀ context failure, Command.Refusal.ofRunLength context failure =
        Command.Refusal.ofChannel context failure.toChannel) ∧
      ∀ context fault,
        Command.Refusal.ofPipe context fault = Command.Refusal.ofChannel context (.pipe fault) ↔
          ∀ capacity, fault ≠ .invalidCapacity capacity := by
  have usable : settings.capacity ≠ some 0 := by
    intro zero
    simp [create, PipeEnds.create, Pipe.create, zero, Except.map] at created
  rw [create, PipeEnds.create, Pipe.create_of_usable usable] at created
  cases created
  refine ⟨rfl, ?_, ?_, rfl, fun _ _ => rfl, ?_, ?_, ?_, ?_⟩
  · intro ρ _ receiver calls sent received last rest outcomes runs hears
    exact Writer.serveAll_logs (Encoder.orderly_new settings.signal)
      (runs.started_hears (Pipe.sound_empty usable) hears)
  · intro σ _ sender acts sent received last rest outcomes runs hears
    exact Reader.answerAll_logs (runs.receiver_hears hears) (Decoder.stands_new settings.signal)
  · intro fault
    cases fault <;> rfl
  · intro fault
    cases fault <;> rfl
  · rintro context (fault | failure)
    · cases fault <;> rfl
    · rfl
  · intro context fault
    cases fault with
    | closed => exact ⟨fun _ => by simp, fun _ => rfl⟩
    | timeout allowed => exact ⟨fun _ => by simp, fun _ => rfl⟩
    | invalidCapacity capacity =>
        refine ⟨fun same => ?_, fun usual => absurd rfl (usual capacity)⟩
        cases congrArg Command.Refusal.exit same

/-- A pipe of three bytes takes no more in time of the seven that a value is written as, and
a reader is sent the start of a frame that there is not. -/
theorem failures_cross_unchanged_late_and_malformed :
    let span := Span.ofMilliseconds 50
    let settings : Settings := ⟨some 3, some span, none, 0xE2, .default⟩
    let calls : List WriteCall := [.act (.item (.scalar (.uint64 0x0102030405060708)) none)]
    let acts : List ReadAct := [.request (.scalar .uint8) none]
    let wire : Sending Unit := .send [0xE2, 0xC0] fun _ => .done ()
    let sent : List (Except Pipe.Fault Nat) := [.ok 3, .error (.timeout span)]
    let received : List (Except Pipe.Fault Bytes) := [.ok [0xE2, 0xC0]]
    ∃ ends writer reader, create settings = .ok (ends, writer, reader) ∧
      (∃ last : Pipe.Exchange (Sending (List WriteOutcome)) (Receiving Unit),
        (Pipe.Exchange.start ends.pipe ends.sendLimit ends.receiveLimit
          (writer.serveAll calls).toSending (.done ())).Runs sent [] last ∧
        WriteLog writer calls (sent ++ []) [.act (.error (.channel (.pipe (.timeout span))))]) ∧
      ∃ last : Pipe.Exchange (Sending Unit) (Receiving (List (Except Value.Failure Answer))),
        (Pipe.Exchange.start ends.pipe ends.sendLimit ends.receiveLimit wire
          (reader.answerAll acts).toReceiving).Runs [.ok 2] received last ∧
        ReadLog 0xE2 reader [] [] acts (received ++ [])
          [.error (.channel (.runLength (.reservedIndicator 0xC0)))] := by
  intro span settings calls acts wire sent received
  let ends : PipeEnds := ⟨.empty (some 3), some span, none⟩
  let writer : Writer := ⟨.default, .new 0xE2⟩
  let reader : Reader := ⟨.default, .new 0xE2⟩
  have created : create settings = .ok (ends, writer, reader) := rfl
  rcases failures_cross_unchanged created with ⟨-, writes, reads, -⟩
  refine ⟨ends, writer, reader, created, ?_, ?_⟩
  · let first := Pipe.Exchange.start ends.pipe ends.sendLimit ends.receiveLimit
      (writer.serveAll calls).toSending (Receiving.done ())
    let events : List Pipe.Exchange.Event := [.sender true, .sender true, .sender false]
    have moves : (first.follow? events).bind
        (fun last => last.exchange.sender.finished?.bind Sending.result?) =
          some [.act (.error (.channel (.pipe (.timeout span))))] := by decide +kernel
    rcases Option.bind_eq_some_iff.mp moves with ⟨last, followed, finished⟩
    have answered : first.sendAnswers events = sent ∧ first.receiveAnswers events = [] := by
      decide +kernel
    have runs := Pipe.Exchange.Runs.refl.of_follow events followed
    rw [answered.1, answered.2] at runs
    exact ⟨last.exchange, runs, writes _ _ calls sent [] last.exchange [] _ runs
      (Pipe.SenderState.hears_of_finished finished)⟩
  · let first := Pipe.Exchange.start ends.pipe ends.sendLimit ends.receiveLimit wire
      (reader.answerAll acts).toReceiving
    let events : List Pipe.Exchange.Event := [.sender false, .receiver false, .receiver false]
    have moves : (first.follow? events).bind
        (fun last => last.exchange.receiver.finished?.bind Receiving.result?) =
          some [.error (.channel (.runLength (.reservedIndicator 0xC0)))] := by decide +kernel
    rcases Option.bind_eq_some_iff.mp moves with ⟨last, followed, finished⟩
    have answered : first.sendAnswers events = [.ok 2] ∧
        first.receiveAnswers events = received := by decide +kernel
    have runs := Pipe.Exchange.Runs.refl.of_follow events followed
    rw [answered.1, answered.2] at runs
    exact ⟨last.exchange, runs, reads _ wire acts [.ok 2] received last.exchange [] _ runs
      (Pipe.ReceiverState.hears_of_finished finished)⟩

end EncodedPipe

end ByteStreams
