import ByteStreams.Proofs.Channel.Yielding
import ByteStreams.Proofs.Value.Streams
import ByteStreams.Value.StagingWriter

/-! # Writers of values on sinks that fail

A writer stages a value in a buffer of its own, which it keeps from call to call, also past
a call that failed. Each call clears the buffer first, so nothing of it shows: what a call
leaves in the sink is a matter of its own item and of how far the sink took it. Text and
integers go to the sink in two calls, and the sink may fail between them.
-/

namespace ByteStreams

namespace Value

open Channel (Call Event Noted Sink Writing bytesTaken bytesTaken_append bytesTaken_flatten)
open EncodedPipe (WriteAct)

/-! ## The buffer does not show -/

namespace StagingWriter

def perform (writer : StagingWriter) :
    WriteAct → Writing (Except Failure Unit × StagingWriter)
  | .item item own => writer.write item own
  | .setOrder order =>
      .done (.ok (), { writer with settings := { writer.settings with order := order } })
  | .flush => flush.map fun outcome => (outcome, writer)

def performAll (writer : StagingWriter) :
    List WriteAct → Writing (List (Except Failure Unit) × StagingWriter)
  | [] => .done ([], writer)
  | act :: acts =>
      (writer.perform act).bind fun (outcome, writer) =>
        (writer.performAll acts).map fun (outcomes, last) => (outcome :: outcomes, last)

/-- The result of a program, without the buffer. -/
def forget {α : Type} (result : α × StagingWriter) : α × Settings :=
  (result.1, result.2.settings)

private def offer (settings : Settings) :
    Except Fault (List Bytes) → Writing (Except Failure Unit × Settings)
  | .error fault => .done (.error (.fault fault), settings)
  | .ok pieces => (writePieces pieces).map fun outcome => (outcome, settings)

private theorem perform_item (settings : Settings) (item : Item) (own : Option ByteOrder) :
    Value.perform settings (.item item own) =
      offer settings (item.pieces (settings.effective own)) := by
  simp only [Value.perform, Value.write]
  cases item.pieces (settings.effective own) <;> rfl

private theorem pass_forget (writer : StagingWriter) (data : Bytes) :
    (writer.pass data).map forget = offer writer.settings (.ok [data]) := by
  apply congrArg (Writing.writeAll data)
  funext answer
  cases answer <;> rfl

private theorem staged_put_clear (writer : StagingWriter) (bytes : Bytes) :
    (writer.clear.put bytes).staged = bytes :=
  List.nil_append bytes

private theorem stage_forget (writer : StagingWriter) (bytes : Bytes) :
    (writer.stage bytes).map forget = offer writer.settings (.ok [bytes]) := by
  rw [stage, staged_put_clear]
  apply congrArg (Writing.writeAll bytes)
  funext answer
  cases answer <;> rfl

private theorem stageNarrow_forget (writer : StagingWriter) (order : ByteOrder)
    (value width bits : Nat) :
    (writer.stageNarrow order value width bits).map forget =
      offer writer.settings
        ((checkWidth width bits).map fun _ => [order.encode width value]) := by
  unfold stageNarrow
  cases checkWidth width bits with
  | error fault => cases fault <;> rfl
  | ok _ => exact stage_forget writer _

private theorem writeLed_forget (writer : StagingWriter) (order : ByteOrder)
    (content : Bytes) :
    (writer.writeLed order content).map forget =
      offer writer.settings (lengthLed order content) := by
  unfold writeLed lengthLed
  by_cases long : longestContent < content.length
  · simp only [if_pos long]
    rfl
  · simp only [if_neg long]
    rw [stage, staged_put_clear]
    apply congrArg (Writing.writeAll _)
    funext answer
    cases answer with
    | error failure => rfl
    | ok _ => exact pass_forget _ content

theorem perform_forget (writer : StagingWriter) (act : WriteAct) :
    (writer.perform act).map forget = Value.perform writer.settings act := by
  cases act with
  | setOrder order => rfl
  | flush =>
      apply congrArg Writing.settle
      funext answer
      rfl
  | item item own =>
      rw [perform_item]
      cases item with
      | scalar value => exact stage_forget ..
      | narrow32 value width => exact stageNarrow_forget ..
      | narrow64 value width => exact stageNarrow_forget ..
      | text value => exact writeLed_forget ..
      | integer value => exact writeLed_forget ..
      | raw data => exact pass_forget ..

/-- Whatever is left in its buffer, a writer asks of the sink what one without a buffer asks,
and has the same outcomes. -/
theorem performAll_forget (writer : StagingWriter) (acts : List WriteAct) :
    (writer.performAll acts).map forget = Value.performAll writer.settings acts := by
  induction acts generalizing writer with
  | nil => rfl
  | cons act acts induction =>
      rw [performAll, Value.performAll, ← perform_forget]
      simp only [Writing.map, Writing.bind_bind]
      apply congrArg (Writing.bind _)
      funext result
      have others := congrArg (Writing.map fun later => (result.1 :: later.1, later.2))
        (induction result.2)
      simp only [Writing.map, Writing.bind_bind] at others
      exact others

end StagingWriter

/-! ## Sinks that fail -/

/-- What a sink notes of a write of some bytes, and what is reported then. A failure is reported
just if an offer broke off. -/
inductive Gets (bytes : Bytes) : Except Failure Unit → List Event → Prop
  | whole {events : List Event} (taken : bytesTaken events = bytes)
      (unbroken : events.any Event.breaks = false) : Gets bytes (.ok ()) events
  | cut {events : List Event} {left : Bytes} {failure : Channel.Failure}
      (joined : bytes = bytesTaken events ++ left) (lacking : left ≠ [])
      (broken : events.any Event.breaks = true) (final : failure.isInterruption = false) :
      Gets bytes (.error (.channel failure)) events

inductive Leaves (order : ByteOrder) : WriteAct → Except Failure Unit → List Event → Prop
  | item {item : Item} {own : Option ByteOrder} {bytes : Bytes} {events : List Event}
      {outcome : Except Failure Unit} (lies : Lies (own.getD order) item bytes)
      (gets : Gets bytes outcome events) : Leaves order (.item item own) outcome events
  | unfit {item : Item} {own : Option ByteOrder} {fault : Fault} (unfit : Unfit item fault) :
      Leaves order (.item item own) (.error (.fault fault)) []
  | setOrder (next : ByteOrder) : Leaves order (.setOrder next) (.ok ()) []
  | flushed {events : List Event} (nothing : bytesTaken events = []) :
      Leaves order .flush (.ok ()) events
  | flushRefused {events : List Event} {failure : Channel.Failure}
      (nothing : bytesTaken events = []) (final : failure.isInterruption = false) :
      Leaves order .flush (.error (.channel failure)) events

def orderAfter (order : ByteOrder) : WriteAct → ByteOrder
  | .setOrder next => next
  | .item .. | .flush => order

inductive LeavesAll :
    ByteOrder → List WriteAct → List (Except Failure Unit) → List (List Event) → ByteOrder → Prop
  | nil (order : ByteOrder) : LeavesAll order [] [] [] order
  | cons {order last : ByteOrder} {act : WriteAct} {acts : List WriteAct}
      {outcome : Except Failure Unit} {outcomes : List (Except Failure Unit)}
      {events : List Event} {others : List (List Event)} (first : Leaves order act outcome events)
      (later : LeavesAll (orderAfter order act) acts outcomes others last) :
      LeavesAll order (act :: acts) (outcome :: outcomes) (events :: others) last

theorem Gets.prepend {rest : Bytes} {events more : List Event} {outcome : Except Failure Unit}
    (gets : Gets rest outcome more) (unbroken : events.any Event.breaks = false) :
    Gets (bytesTaken events ++ rest) outcome (events ++ more) := by
  have breaks : (events ++ more).any Event.breaks = more.any Event.breaks := by
    rw [List.any_append, unbroken, Bool.false_or]
  cases gets with
  | whole taken goesOn =>
      refine .whole ?_ (breaks.trans goesOn)
      rw [bytesTaken_append, taken]
  | cut joined lacking broken final =>
      refine .cut ?_ lacking (breaks.trans broken) final
      rw [bytesTaken_append, List.append_assoc, ← joined]

theorem writePieces_goes {pieces : List Bytes} {calls : List Call} {events : List Event}
    {outcome : Except Failure Unit} (goes : (writePieces pieces).Goes calls outcome)
    (noted : Noted calls events) : Gets pieces.flatten outcome events := by
  induction pieces generalizing calls events with
  | nil =>
      cases goes
      cases noted
      exact .whole rfl rfl
  | cons piece pieces induction =>
      cases goes with
      | writeAll first others =>
          cases noted with
          | cons firstNoted othersNoted =>
              rw [List.flatten_cons]
              cases first with
              | all =>
                  have gets := (induction others othersNoted).prepend firstNoted.breaks
                  rw [firstNoted.taken] at gets
                  exact gets
              | @part taken left failure joined more final =>
                  cases others
                  cases othersNoted
                  have lacking := List.append_ne_nil_of_left_ne_nil more pieces.flatten
                  rw [List.append_nil]
                  refine .cut ?_ lacking firstNoted.breaks final
                  rw [firstNoted.taken, joined, List.append_assoc]
                  rfl

theorem write_goes {settings : Settings} {item : Item} {own : Option ByteOrder}
    {calls : List Call} {events : List Event} {outcome : Except Failure Unit}
    (goes : (write settings item own).Goes calls outcome) (noted : Noted calls events) :
    Leaves settings.order (.item item own) outcome events := by
  unfold write at goes
  cases found : item.pieces (settings.effective own) with
  | error fault =>
      rw [found] at goes
      cases goes
      cases noted
      have refused : item.encode (settings.effective own) = .error fault := by
        rw [Item.encode, found]
        rfl
      exact .unfit (unfit_of_encode refused)
  | ok pieces =>
      rw [found] at goes
      have encoded : item.encode (settings.effective own) = .ok pieces.flatten := by
        rw [Item.encode, found]
        rfl
      exact .item (encode_eq_ok_iff.mp encoded) (writePieces_goes goes noted)

private theorem settleUnder_final (replies : List (Option Channel.Failure)) (sink : Sink)
    {failure : Channel.Failure} (failed : (sink.settleUnder replies).1 = .error failure) :
    failure.isInterruption = false := by
  induction replies generalizing sink with
  | nil => cases failed
  | cons reply replies induction =>
      cases reply with
      | none => cases failed
      | some refusal =>
          cases again : refusal.isInterruption with
          | true =>
              simp only [Sink.settleUnder, again] at failed
              exact induction _ failed
          | false =>
              simp only [Sink.settleUnder, again] at failed
              cases failed
              exact again

theorem flush_goes {calls : List Call} {outcome : Except Failure Unit}
    (goes : flush.Goes calls outcome) : calls.flatMap Call.taken = [] := by
  cases goes with
  | settle answer others =>
      cases others
      rfl

theorem flush_leaves (order : ByteOrder) (sink : Sink) {events : List Event}
    (nothing : bytesTaken events = []) : Leaves order .flush (flush.run sink).1 events := by
  have reported : (flush.run sink).1 = sink.settle.1.mapError Failure.channel := rfl
  rw [reported]
  cases answered : sink.settle.1 with
  | ok _ => exact .flushed nothing
  | error failure => exact .flushRefused nothing (settleUnder_final _ _ answered)

theorem perform_run (settings : Settings) (act : WriteAct) (sink : Sink) :
    ∃ outcome events after,
      (perform settings act).run sink =
        ((outcome, { settings with order := orderAfter settings.order act }), after) ∧
      after.history = sink.history ++ events ∧ Leaves settings.order act outcome events := by
  cases act with
  | setOrder order => exact ⟨_, [], sink, rfl, (List.append_nil _).symm, .setOrder order⟩
  | flush =>
      rcases flush.run_goes sink with ⟨calls, events, goes, noted, grown⟩
      have nothing := noted.bytesTaken_eq.trans (flush_goes goes)
      exact ⟨_, events, _, Writing.run_bind .., grown, flush_leaves _ sink nothing⟩
  | item item own =>
      rcases (write settings item own).run_goes sink with ⟨calls, events, goes, noted, grown⟩
      exact ⟨_, events, _, Writing.run_bind .., grown, write_goes goes noted⟩

theorem performAll_run (settings : Settings) (acts : List WriteAct) (sink : Sink) :
    ∃ outcomes events last after,
      (performAll settings acts).run sink =
        ((outcomes, { settings with order := last }), after) ∧
      after.history = sink.history ++ events.flatten ∧
      LeavesAll settings.order acts outcomes events last := by
  induction acts generalizing settings sink with
  | nil => exact ⟨[], [], settings.order, sink, rfl, (List.append_nil _).symm, .nil _⟩
  | cons act acts induction =>
      rcases perform_run settings act sink with ⟨outcome, events, middle, run, grown, first⟩
      rcases induction { settings with order := orderAfter settings.order act } middle with
        ⟨outcomes, others, last, after, ran, total, later⟩
      refine ⟨outcome :: outcomes, events :: others, last, after, ?_, ?_, .cons first later⟩
      · rw [performAll, Writing.run_bind, run]
        simp only [Writing.map, Writing.run_bind, ran]
        rfl
      · rw [total, grown, List.flatten_cons, List.append_assoc]

/-- Whatever is left in the buffer of a writer and whatever the sink answers, the sink takes
of each act in turn its whole item, a front of it that lacks something, or nothing. -/
theorem performAll_leaves (writer : StagingWriter) (acts : List WriteAct) (sink : Sink) :
    ∃ outcomes events last staged after,
      (writer.performAll acts).run sink =
        ((outcomes, ⟨{ writer.settings with order := last }, staged⟩), after) ∧
      (performAll writer.settings acts).run sink =
        ((outcomes, { writer.settings with order := last }), after) ∧
      after.history = sink.history ++ events.flatten ∧
      after.accepted = sink.accepted ++ (events.map bytesTaken).flatten ∧
      LeavesAll writer.settings.order acts outcomes events last := by
  rcases performAll_run writer.settings acts sink with
    ⟨outcomes, events, last, after, run, grown, leaves⟩
  have accepted : after.accepted = sink.accepted ++ (events.map bytesTaken).flatten := by
    rw [← bytesTaken_flatten]
    exact (congrArg bytesTaken grown).trans (bytesTaken_append ..)
  have forgotten := congrArg (Writing.run · sink) (writer.performAll_forget acts)
  simp only [Writing.map, Writing.run_bind, run] at forgotten
  rcases staging : (writer.performAll acts).run sink with ⟨⟨found, ⟨settings, staged⟩⟩, rest⟩
  rw [staging] at forgotten
  cases forgotten
  exact ⟨found, events, last, staged, rest, rfl, run, grown, accepted, leaves⟩

/-- The sink fails behind the length of the text and its first letter. -/
example :
    let writer : StagingWriter := ⟨.default, [9, 9]⟩
    let sink : Sink := ⟨[.accept 4, .accept 1, .refuse (.bare .brokenPipe)], [], []⟩
    let acts : List WriteAct := [.item (.text "abc") none, .item (.scalar (.uint8 7)) none]
    ((writer.performAll acts).run sink).2.accepted = [0, 0, 0, 3, 0x61, 7] := by
  decide +kernel

end Value

end ByteStreams
