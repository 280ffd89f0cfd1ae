import ByteStreams.Channel.Sink

/-! # The calls of a program, whatever the sink answers

On any sink, a program goes down one branch of its tree. The calls along that branch say
what the program asked and what became of it, and the sink notes the same of them. So a
statement about every sink is proved on the branches of the tree, without a script.
-/

namespace ByteStreams

namespace Channel

/-! ## Events -/

def Event.breaks : Event → Bool
  | .accepted offered taken => offered ≠ 0 && taken.isEmpty
  | .refused _ failure => !failure.isInterruption
  | _ => false

def Sink.history (sink : Sink) : List Event := sink.journal.reverse

def bytesTaken (events : List Event) : Bytes := events.flatMap Event.taken

@[simp] theorem bytesTaken_nil : bytesTaken [] = [] := rfl

@[simp] theorem bytesTaken_append (first second : List Event) :
    bytesTaken (first ++ second) = bytesTaken first ++ bytesTaken second :=
  List.flatMap_append

theorem bytesTaken_flatten (events : List (List Event)) :
    bytesTaken events.flatten = (events.map bytesTaken).flatten := by
  induction events with
  | nil => rfl
  | cons events others induction =>
      rw [List.flatten_cons, bytesTaken_append, induction, List.map_cons, List.flatten_cons]

theorem bytesTaken_eq_nil {events : List Event} (nothing : ∀ event ∈ events, event.taken = []) :
    bytesTaken events = [] :=
  List.flatMap_eq_nil_iff.mpr nothing

/-- The sink took nothing after an offer that broke off. -/
def Unbroken (events : List Event) : Prop :=
  events.Pairwise fun earlier later => earlier.breaks = true → later.taken = []

instance (events : List Event) : Decidable (Unbroken events) :=
  inferInstanceAs (Decidable (events.Pairwise _))

/-! ## Calls -/

inductive Call
  | offered (data : Bytes) (answer : Except Failure Nat)
  | wrote (data : Bytes)
  /-- Not all bytes of a write were taken. -/
  | cut (taken left : Bytes) (failure : Failure)
  | flushed (answer : Except Failure Unit)
  | settled (answer : Except Failure Unit)
  | released
deriving Repr

namespace Call

def taken : Call → Bytes
  | .offered data (.ok count) => data.take count
  | .wrote data => data
  | .cut taken _ _ => taken
  | _ => []

def breaks : Call → Bool
  | .offered data (.ok count) => data.length ≠ 0 && (data.take count).isEmpty
  | .offered _ (.error failure) => !failure.isInterruption
  | .cut .. => true
  | _ => false

/-- A write of `data` may go this way, and is answered so. -/
inductive Writes (data : Bytes) : Call → Except Failure Unit → Prop
  | all : Writes data (.wrote data) (.ok ())
  | part {taken left : Bytes} {failure : Failure} (joined : data = taken ++ left)
      (more : left ≠ []) (final : failure.isInterruption = false) :
      Writes data (.cut taken left failure) (.error failure)

structure Noted (call : Call) (events : List Event) : Prop where
  taken : bytesTaken events = call.taken
  breaks : events.any Event.breaks = call.breaks

end Call

/-- What the sink took in some calls until the first that broke off. -/
def intact : List Call → Bytes
  | [] => []
  | call :: calls => call.taken ++ if call.breaks then [] else intact calls

def Whole (calls : List Call) : Prop := ∀ call ∈ calls, call.breaks = false

@[simp] theorem intact_nil : intact [] = [] := rfl

@[simp] theorem intact_singleton (call : Call) : intact [call] = call.taken := by
  cases breaks : call.breaks <;> simp [intact, breaks]

theorem whole_nil : Whole [] := fun _ none' => nomatch none'

theorem whole_append {calls more : List Call} :
    Whole (calls ++ more) ↔ Whole calls ∧ Whole more :=
  List.forall_mem_append

theorem whole_cons {call : Call} {calls : List Call} :
    Whole (call :: calls) ↔ call.breaks = false ∧ Whole calls :=
  List.forall_mem_cons

theorem not_whole_of_mem {call : Call} {calls : List Call} (member : call ∈ calls)
    (breaks : call.breaks = true) : ¬ Whole calls := by
  intro whole
  rw [whole call member] at breaks
  cases breaks

theorem intact_append_of_whole {calls : List Call} (whole : Whole calls) (more : List Call) :
    intact (calls ++ more) = intact calls ++ intact more := by
  induction calls with
  | nil => rfl
  | cons call calls induction =>
      rcases whole_cons.mp whole with ⟨goesOn, others⟩
      simp [intact, goesOn, induction others]

theorem intact_append_of_not_whole {calls : List Call} (broken : ¬ Whole calls)
    (more : List Call) : intact (calls ++ more) = intact calls := by
  induction calls with
  | nil => exact absurd whole_nil broken
  | cons call calls induction =>
      cases breaks : call.breaks with
      | true => simp [intact, breaks]
      | false =>
          have later : ¬ Whole calls := fun whole => broken (whole_cons.mpr ⟨breaks, whole⟩)
          simp [intact, breaks, induction later]

theorem intact_append_of_nothing {more : List Call} (nothing : intact more = [])
    (calls : List Call) : intact (calls ++ more) = intact calls := by
  by_cases whole : Whole calls
  · rw [intact_append_of_whole whole, nothing, List.append_nil]
  · exact intact_append_of_not_whole whole more

/-- A sink notes these events in the course of some calls. -/
inductive Noted : List Call → List Event → Prop
  | nil : Noted [] []
  | cons {call : Call} {calls : List Call} {events more : List Event}
      (first : call.Noted events) (others : Noted calls more) :
      Noted (call :: calls) (events ++ more)

theorem Noted.bytesTaken_isPrefix {calls : List Call} {events moment : List Event}
    (noted : Noted calls events) (reached : moment <+: events) (unbroken : Unbroken moment) :
    bytesTaken moment <+: intact calls := by
  induction noted generalizing moment with
  | nil =>
      rw [List.prefix_nil.mp reached]
      exact List.nil_prefix
  | @cons call calls events more first _ induction =>
      rw [intact]
      rcases List.prefix_or_prefix_of_prefix reached (List.prefix_append events more) with
        ⟨others, rfl⟩ | ⟨later, rfl⟩
      · rw [← first.taken, bytesTaken_append, List.append_assoc]
        exact List.prefix_append _ _
      · have laterReached := (List.prefix_append_right_inj events).mp reached
        rcases List.pairwise_append.mp unbroken with ⟨-, laterUnbroken, across⟩
        rw [bytesTaken_append, first.taken]
        apply (List.prefix_append_right_inj _).mpr
        cases breaks : call.breaks with
        | false => exact induction laterReached laterUnbroken
        | true =>
            rw [← first.breaks, List.any_eq_true] at breaks
            rcases breaks with ⟨event, member, broke⟩
            rw [bytesTaken_eq_nil fun other later => across event member other later broke]
            exact List.nil_prefix

/-! ## Branches -/

/-- The program may make these calls and have this result. -/
inductive Writing.Goes {α : Type} : Writing α → List Call → α → Prop
  | done (result : α) : Goes (.done result) [] result
  | write {data : Bytes} {next : Except Failure Nat → Writing α} {calls : List Call} {result : α}
      (answer : Except Failure Nat) (others : Goes (next answer) calls result) :
      Goes (.write data next) (.offered data answer :: calls) result
  | writeAll {data : Bytes} {next : Except Failure Unit → Writing α} {call : Call}
      {calls : List Call} {answer : Except Failure Unit} {result : α}
      (first : call.Writes data answer) (others : Goes (next answer) calls result) :
      Goes (.writeAll data next) (call :: calls) result
  | flush {next : Except Failure Unit → Writing α} {calls : List Call} {result : α}
      (answer : Except Failure Unit) (others : Goes (next answer) calls result) :
      Goes (.flush next) (.flushed answer :: calls) result
  | settle {next : Except Failure Unit → Writing α} {calls : List Call} {result : α}
      (answer : Except Failure Unit) (others : Goes (next answer) calls result) :
      Goes (.settle next) (.settled answer :: calls) result
  | release {next : Writing α} {calls : List Call} {result : α}
      (others : Goes next calls result) : Goes (.release next) (.released :: calls) result

namespace Writing

variable {α β : Type}

theorem Goes.of_bind {program : Writing α} {andThen : α → Writing β} {calls : List Call}
    {last : β} (goes : (program.bind andThen).Goes calls last) :
    ∃ first result later, calls = first ++ later ∧ program.Goes first result ∧
      (andThen result).Goes later last := by
  induction program generalizing calls with
  | done result => exact ⟨[], result, calls, rfl, .done result, goes⟩
  | write data next induction =>
      cases goes with
      | write answer others =>
          rcases induction answer others with ⟨first, result, later, rfl, goes, laterGoes⟩
          exact ⟨_ :: first, result, later, rfl, .write answer goes, laterGoes⟩
  | writeAll data next induction =>
      cases goes with
      | writeAll call others =>
          rcases induction _ others with ⟨first, result, later, rfl, goes, laterGoes⟩
          exact ⟨_ :: first, result, later, rfl, .writeAll call goes, laterGoes⟩
  | flush next induction =>
      cases goes with
      | flush answer others =>
          rcases induction answer others with ⟨first, result, later, rfl, goes, laterGoes⟩
          exact ⟨_ :: first, result, later, rfl, .flush answer goes, laterGoes⟩
  | settle next induction =>
      cases goes with
      | settle answer others =>
          rcases induction answer others with ⟨first, result, later, rfl, goes, laterGoes⟩
          exact ⟨_ :: first, result, later, rfl, .settle answer goes, laterGoes⟩
  | release next induction =>
      cases goes with
      | release others =>
          rcases induction others with ⟨first, result, later, rfl, goes, laterGoes⟩
          exact ⟨_ :: first, result, later, rfl, .release goes, laterGoes⟩

theorem Goes.of_map {program : Writing α} {change : α → β} {calls : List Call} {last : β}
    (goes : (program.map change).Goes calls last) :
    ∃ result, program.Goes calls result ∧ change result = last := by
  rcases goes.of_bind with ⟨first, result, later, rfl, firstGoes, laterGoes⟩
  cases laterGoes
  rw [List.append_nil]
  exact ⟨result, firstGoes, rfl⟩

end Writing

/-! ## Scripted sinks -/

namespace Sink

private theorem write_noted (sink : Sink) (data : Bytes) :
    ∃ events, Call.Noted (.offered data (sink.write data).1) events ∧
      (sink.write data).2.history = sink.history ++ events := by
  rcases sink with ⟨replies, flushReplies, journal⟩
  cases replies with
  | nil =>
      refine ⟨[.accepted data.length data], ⟨?_, ?_⟩, by simp [write, history]⟩
      · simp [bytesTaken, Event.taken, write, Call.taken]
      · simp [Event.breaks, write, Call.breaks]
  | cons reply replies =>
      cases reply with
      | accept most =>
          have same : data.take (data.take most).length = data.take most := by
            rw [List.length_take, ← List.take_eq_take_min]
          refine ⟨[.accepted data.length (data.take most)], ⟨?_, ?_⟩, by simp [write, history]⟩
          · simp only [write, Call.taken, same]
            exact List.flatMap_singleton ..
          · simp only [write, Call.breaks, same]
            exact Bool.or_false _
      | refuse failure =>
          refine ⟨[.refused data.length failure], ⟨?_, ?_⟩, by simp [write, history]⟩
          · simp [bytesTaken, Event.taken, write, Call.taken]
          · simp [Event.breaks, write, Call.breaks]

private theorem writes_after {data piece rest : Bytes} {call : Call} {answer : Except Failure Unit}
    {event : Event} {events : List Event} (joined : data = piece ++ rest)
    (took : event.taken = piece) (goesOn : event.breaks = false)
    (writes : call.Writes rest answer) (noted : call.Noted events) :
    ∃ whole : Call, whole.Writes data answer ∧ whole.Noted (event :: events) := by
  subst joined took
  have taken : bytesTaken (event :: events) = event.taken ++ call.taken := by
    rw [← noted.taken]
    rfl
  have breaks : (event :: events).any Event.breaks = call.breaks := by
    rw [List.any_cons, goesOn, Bool.false_or, noted.breaks]
  cases writes with
  | all => exact ⟨.wrote _, .all, taken, breaks⟩
  | @part taken' left failure joined more final =>
      subst joined
      exact ⟨.cut (event.taken ++ taken') left failure,
        .part (List.append_assoc ..).symm more final, taken, breaks⟩

private theorem writeAllUnder_noted (replies : List Reply) (sink : Sink) (data : Bytes) :
    ∃ call events, Call.Writes data call (sink.writeAllUnder data replies).1 ∧
      call.Noted events ∧
      (sink.writeAllUnder data replies).2.history = sink.history ++ events := by
  induction replies generalizing sink data with
  | nil =>
      by_cases nothing : data = []
      · subst nothing
        exact ⟨.wrote [], [], .all, ⟨rfl, rfl⟩, by simp [writeAllUnder, history]⟩
      · refine ⟨.wrote data, [.accepted data.length data], ?_, ⟨?_, ?_⟩, ?_⟩
        · simpa [writeAllUnder, nothing] using Call.Writes.all
        · exact List.flatMap_singleton ..
        · simp [Event.breaks, nothing, Call.breaks]
        · simp [writeAllUnder, nothing, history]
  | cons reply replies induction =>
      by_cases nothing : data = []
      · subst nothing
        exact ⟨.wrote [], [], .all, ⟨rfl, rfl⟩, by simp [writeAllUnder, history]⟩
      · cases reply with
        | accept most =>
            by_cases none' : most = 0
            · subst none'
              refine ⟨.cut [] data .writeZero, [.accepted data.length []], ?_, ⟨rfl, ?_⟩, ?_⟩
              · simpa [writeAllUnder, nothing] using
                  Call.Writes.part (List.nil_append data).symm nothing rfl
              · simp [Event.breaks, nothing, Call.breaks]
              · simp [writeAllUnder, nothing, history]
            · let event : Event := .accepted data.length (data.take most)
              have goesOn : event.breaks = false := by
                simp [event, Event.breaks, nothing, none']
              rcases induction
                { sink with replies := replies, journal := event :: sink.journal }
                (data.drop most) with ⟨call, events, writes, noted, grown⟩
              rcases writes_after (List.take_append_drop most data).symm rfl goesOn writes
                noted with ⟨whole, wholeWrites, wholeNoted⟩
              refine ⟨whole, event :: events, ?_, wholeNoted, ?_⟩
              · simpa [writeAllUnder, nothing, none'] using wholeWrites
              · simpa [writeAllUnder, nothing, none', history] using grown
        | refuse failure =>
            let event : Event := .refused data.length failure
            by_cases again : failure.isInterruption = true
            · have goesOn : event.breaks = false := by
                simp [event, Event.breaks, again]
              rcases induction
                { sink with replies := replies, journal := event :: sink.journal }
                data with ⟨call, events, writes, noted, grown⟩
              rcases writes_after (List.nil_append data).symm rfl goesOn writes noted with
                ⟨whole, wholeWrites, wholeNoted⟩
              refine ⟨whole, event :: events, ?_, wholeNoted, ?_⟩
              · simpa [writeAllUnder, nothing, again] using wholeWrites
              · simpa [writeAllUnder, nothing, again, history] using grown
            · have final : failure.isInterruption = false := eq_false_of_ne_true again
              refine ⟨.cut [] data failure, [event], ?_, ⟨rfl, ?_⟩, ?_⟩
              · simpa [writeAllUnder, nothing, final] using
                  Call.Writes.part (List.nil_append data).symm nothing final
              · simp [event, Event.breaks, final, Call.breaks]
              · simp [writeAllUnder, nothing, final, history, event]

private theorem flush_noted (sink : Sink) :
    ∃ events, Call.Noted (.flushed sink.flush.1) events ∧
      sink.flush.2.history = sink.history ++ events := by
  rcases sink with ⟨replies, flushReplies, journal⟩
  cases flushReplies with
  | nil => exact ⟨[.flushed], ⟨rfl, rfl⟩, by simp [flush, history]⟩
  | cons reply flushReplies =>
      cases reply with
      | none => exact ⟨[.flushed], ⟨rfl, rfl⟩, by simp [flush, history]⟩
      | some failure => exact ⟨[.flushRefused failure], ⟨rfl, rfl⟩, by simp [flush, history]⟩

private theorem settleUnder_noted (flushReplies : List (Option Failure)) (sink : Sink) :
    ∃ events, Call.Noted (.settled (sink.settleUnder flushReplies).1) events ∧
      (sink.settleUnder flushReplies).2.history = sink.history ++ events := by
  induction flushReplies generalizing sink with
  | nil => exact ⟨[.flushed], ⟨rfl, rfl⟩, by simp [settleUnder, history]⟩
  | cons reply flushReplies induction =>
      cases reply with
      | none => exact ⟨[.flushed], ⟨rfl, rfl⟩, by simp [settleUnder, history]⟩
      | some failure =>
          let event : Event := .flushRefused failure
          by_cases again : failure.isInterruption = true
          · rcases induction
              { sink with flushReplies := flushReplies, journal := event :: sink.journal } with
              ⟨events, noted, grown⟩
            refine ⟨event :: events, ⟨noted.taken, noted.breaks⟩, ?_⟩
            simpa [settleUnder, again, history] using grown
          · exact ⟨[event], ⟨rfl, rfl⟩, by simp [settleUnder, again, history, event]⟩

end Sink

/-- On any sink, a program goes down a branch of its tree, and the sink notes its calls. -/
theorem Writing.run_goes {α : Type} (program : Writing α) (sink : Sink) :
    ∃ calls events, program.Goes calls (program.run sink).1 ∧ Noted calls events ∧
      (program.run sink).2.history = sink.history ++ events := by
  induction program generalizing sink with
  | done result => exact ⟨[], [], .done result, .nil, (List.append_nil _).symm⟩
  | write data next induction =>
      rcases sink.write_noted data with ⟨events, noted, grown⟩
      rcases induction (sink.write data).1 (sink.write data).2 with
        ⟨calls, more, goes, others, total⟩
      refine ⟨_, events ++ more, .write _ goes, .cons noted others, ?_⟩
      rw [← List.append_assoc, ← grown]
      exact total
  | writeAll data next induction =>
      rcases sink.writeAllUnder_noted sink.replies data with ⟨call, events, writes, noted, grown⟩
      rcases induction (sink.writeAll data).1 (sink.writeAll data).2 with
        ⟨calls, more, goes, others, total⟩
      refine ⟨_, events ++ more, .writeAll writes goes, .cons noted others, ?_⟩
      rw [← List.append_assoc, ← grown]
      exact total
  | flush next induction =>
      rcases sink.flush_noted with ⟨events, noted, grown⟩
      rcases induction sink.flush.1 sink.flush.2 with ⟨calls, more, goes, others, total⟩
      refine ⟨_, events ++ more, .flush _ goes, .cons noted others, ?_⟩
      rw [← List.append_assoc, ← grown]
      exact total
  | settle next induction =>
      rcases sink.settleUnder_noted sink.flushReplies with ⟨events, noted, grown⟩
      rcases induction sink.settle.1 sink.settle.2 with ⟨calls, more, goes, others, total⟩
      refine ⟨_, events ++ more, .settle _ goes, .cons noted others, ?_⟩
      rw [← List.append_assoc, ← grown]
      exact total
  | release next induction =>
      have noted : Call.Noted .released [.released] := ⟨rfl, rfl⟩
      rcases induction sink.release with ⟨calls, more, goes, others, total⟩
      refine ⟨_, [.released] ++ more, .release goes, .cons noted others, ?_⟩
      have grown : sink.release.history = sink.history ++ [.released] := by
        simp [Sink.release, Sink.history]
      rw [← List.append_assoc, ← grown]
      exact total

end Channel

end ByteStreams
