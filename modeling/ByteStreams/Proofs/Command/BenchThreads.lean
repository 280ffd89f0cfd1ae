import ByteStreams.Command.Bench
import ByteStreams.Proofs.Pipe.Steps

/-! # The threads of the bench and their buffers

Each thread asks for its buffer once, and takes part in the exchange only when it holds it.
Buffers that can be had leave the exchange as it is, unless there is no memory for one and the
program is stopped. With buffers that no memory can hold nothing happens between the threads.
-/

namespace ByteStreams

namespace Command

namespace Refusal

variable {size : Nat}

theorem ofBuffer?_of_large (large : Bytes.longestBuffer < size) (granted : Bool) :
    ofBuffer? size granted = some overflow :=
  if_pos large

theorem ofBuffer?_of_fits (fits : size ≤ Bytes.longestBuffer) (granted : Bool) :
    ofBuffer? size granted = if granted then none else some (outOfMemory size) :=
  if_neg (Nat.not_lt.mpr fits)

theorem ofBuffer?_eq_none_iff {granted : Bool} :
    ofBuffer? size granted = none ↔ size ≤ Bytes.longestBuffer ∧ granted = true := by
  rcases Nat.lt_or_ge Bytes.longestBuffer size with large | fits
  · simp [ofBuffer?_of_large large, Nat.not_le.mpr large]
  · cases granted <;> simp [ofBuffer?_of_fits fits, fits]

end Refusal

namespace BenchOrder

open Pipe (PatternChecker PatternSender)
open Pipe.Exchange (Stepped)

variable {order : BenchOrder} {threads : Threads} {event : Event} {events : List Event}
  {reached : Except Refusal Threads}

/-! ## Steps -/

/-- All that can happen. -/
inductive Steps (order : BenchOrder) (threads : Threads) : Event → Except Refusal Threads → Prop
  | senderHolds (wanted : threads.senderBuffer = .wanted)
      (fits : order.chunk ≤ Bytes.longestBuffer) :
      Steps order threads (.senderAsks true) (.ok { threads with senderBuffer := .held })
  | senderBreaks {granted : Bool} (wanted : threads.senderBuffer = .wanted)
      (large : Bytes.longestBuffer < order.chunk) :
      Steps order threads (.senderAsks granted)
        (.ok { threads with exchange := threads.exchange.close, senderBuffer := .lost })
  | senderStops (wanted : threads.senderBuffer = .wanted)
      (fits : order.chunk ≤ Bytes.longestBuffer) :
      Steps order threads (.senderAsks false) (.error (.outOfMemory order.chunk))
  | checkerHolds (wanted : threads.checkerBuffer = .wanted)
      (fits : order.chunk ≤ Bytes.longestBuffer) :
      Steps order threads (.checkerAsks true) (.ok { threads with checkerBuffer := .held })
  | checkerBreaks {granted : Bool} (wanted : threads.checkerBuffer = .wanted)
      (large : Bytes.longestBuffer < order.chunk) :
      Steps order threads (.checkerAsks granted) (.error .overflow)
  | checkerStops (wanted : threads.checkerBuffer = .wanted)
      (fits : order.chunk ≤ Bytes.longestBuffer) :
      Steps order threads (.checkerAsks false) (.error (.outOfMemory order.chunk))
  | exchange {event : Pipe.Exchange.Event} {stepped : Stepped PatternSender PatternChecker}
      (holds : threads.holds event = true) (steps : threads.exchange.Steps event stepped) :
      Steps order threads (.exchange event) (.ok { threads with exchange := stepped.exchange })

theorem steps_of_step? (happens : order.step? threads event = some reached) :
    order.Steps threads event reached := by
  cases event with
  | senderAsks granted =>
      rw [step?, Option.ite_none_right_eq_some, Option.some.injEq, senderAsks] at happens
      rcases happens with ⟨wanted, rfl⟩
      rcases Nat.lt_or_ge Bytes.longestBuffer order.chunk with large | fits
      · rw [Refusal.ofBuffer?_of_large large]
        exact .senderBreaks wanted large
      · rw [Refusal.ofBuffer?_of_fits fits]
        cases granted with
        | true => exact .senderHolds wanted fits
        | false => exact .senderStops wanted fits
  | checkerAsks granted =>
      rw [step?, Option.ite_none_right_eq_some, Option.some.injEq, checkerAsks] at happens
      rcases happens with ⟨wanted, rfl⟩
      rcases Nat.lt_or_ge Bytes.longestBuffer order.chunk with large | fits
      · rw [Refusal.ofBuffer?_of_large large]
        exact .checkerBreaks wanted large
      · rw [Refusal.ofBuffer?_of_fits fits]
        cases granted with
        | true => exact .checkerHolds wanted fits
        | false => exact .checkerStops wanted fits
  | exchange event =>
      rw [step?, Option.ite_none_right_eq_some, Option.map_eq_some_iff] at happens
      rcases happens with ⟨holds, stepped, steps, rfl⟩
      exact .exchange holds (Pipe.Exchange.step?_eq_some_iff.mp steps)

theorem follow?_cons_cases (followed : order.follow? threads (event :: events) = some reached) :
    (∃ refusal, order.Steps threads event (.error refusal) ∧ events = [] ∧
      reached = .error refusal) ∨
      ∃ next, order.Steps threads event (.ok next) ∧ order.follow? next events = some reached := by
  rw [follow?] at followed
  cases happens : order.step? threads event with
  | none =>
      rw [happens] at followed
      cases followed
  | some first =>
      have steps := steps_of_step? happens
      rw [happens] at followed
      cases first with
      | ok next => exact .inr ⟨next, steps, followed⟩
      | error refusal =>
          simp only [Option.ite_none_right_eq_some, Option.some.injEq, List.isEmpty_iff] at followed
          exact .inl ⟨refusal, steps, followed.1, followed.2.symm⟩

/-! ## Schedules -/

def Event.exchange? : Event → Option Pipe.Exchange.Event
  | .exchange event => some event
  | .senderAsks _ | .checkerAsks _ => none

def exchanged (events : List Event) : List Pipe.Exchange.Event := events.filterMap Event.exchange?

def Threads.waiting (threads : Threads) : Nat :=
  (if threads.senderBuffer = .wanted then 1 else 0) +
    if threads.checkerBuffer = .wanted then 1 else 0

theorem length_le_exchanged (followed : order.follow? threads events = some reached) :
    events.length ≤ (exchanged events).length + threads.waiting := by
  induction events generalizing threads with
  | nil => exact Nat.zero_le _
  | cons event events induction =>
      rcases follow?_cons_cases followed with ⟨refusal, steps, rfl, -⟩ | ⟨next, steps, later⟩
      · cases steps with
        | senderStops wanted | checkerBreaks wanted | checkerStops wanted =>
            simp only [Threads.waiting, wanted, if_true, List.length_singleton]
            omega
      · have others := induction later
        cases steps with
        | senderHolds wanted | senderBreaks wanted | checkerHolds wanted =>
            simp only [exchanged, List.filterMap_cons, Event.exchange?, List.length_cons,
              Threads.waiting, wanted, reduceCtorEq, if_true, if_false] at others ⊢
            omega
        | exchange =>
            simp only [exchanged, List.filterMap_cons, Event.exchange?, List.length_cons,
              Threads.waiting] at others ⊢
            omega

/-! ## Buffers that can be had -/

structure Threads.Whole (threads : Threads) : Prop where
  sender : threads.senderBuffer ≠ .lost
  checker : threads.checkerBuffer ≠ .lost

/-- Where a schedule leads when it has led the exchange there. -/
inductive Reaches (order : BenchOrder) (events : List Event)
    (last : Stepped PatternSender PatternChecker) : Except Refusal Threads → Prop
  | goesOn {threads : Threads} (whole : threads.Whole) (same : last.exchange = threads.exchange) :
      Reaches order events last (.ok threads)
  | stopped (refused : .senderAsks false ∈ events ∨ .checkerAsks false ∈ events) :
      Reaches order events last (.error (.outOfMemory order.chunk))

theorem Reaches.cons {last : Stepped PatternSender PatternChecker}
    {next : Stepped PatternSender PatternChecker} (reaches : order.Reaches events last reached)
    (event : Event) (same : next.exchange = last.exchange) :
    order.Reaches (event :: events) next reached := by
  cases reaches with
  | goesOn whole sameAs => exact .goesOn whole (same.trans sameAs)
  | stopped refused =>
      exact .stopped (refused.imp (List.mem_cons_of_mem _) (List.mem_cons_of_mem _))

theorem reaches_of_follow (fits : order.chunk ≤ Bytes.longestBuffer) (whole : threads.Whole)
    (followed : order.follow? threads events = some reached) :
    ∃ last, threads.exchange.follow? (exchanged events) = some last ∧
      order.Reaches events last reached := by
  induction events generalizing threads with
  | nil =>
      cases followed
      exact ⟨_, rfl, .goesOn whole rfl⟩
  | cons event events induction =>
      rcases follow?_cons_cases followed with ⟨refusal, steps, rfl, rfl⟩ | ⟨next, steps, later⟩
      · refine ⟨.still threads.exchange, ?_, ?_⟩
        · cases steps <;> rfl
        · cases steps with
          | senderStops => exact .stopped (.inl (List.mem_cons_self ..))
          | checkerStops => exact .stopped (.inr (List.mem_cons_self ..))
          | checkerBreaks wanted large => exact absurd fits (Nat.not_le.mpr large)
      · cases steps with
        | senderBreaks wanted large => exact absurd fits (Nat.not_le.mpr large)
        | senderHolds =>
            have kept : Threads.Whole { threads with senderBuffer := .held } :=
              ⟨by simp, whole.checker⟩
            rcases induction kept later with ⟨last, ran, reaches⟩
            exact ⟨last, ran, reaches.cons _ rfl⟩
        | checkerHolds =>
            have kept : Threads.Whole { threads with checkerBuffer := .held } :=
              ⟨whole.sender, by simp⟩
            rcases induction kept later with ⟨last, ran, reaches⟩
            exact ⟨last, ran, reaches.cons _ rfl⟩
        | @exchange event stepped holds steps =>
            have kept : Threads.Whole { threads with exchange := stepped.exchange } :=
              ⟨whole.sender, whole.checker⟩
            rcases induction kept later with ⟨last, ran, reaches⟩
            exact ⟨_, Pipe.Exchange.follow?_cons_eq_some_iff.mpr ⟨_, last, steps, ran, rfl⟩,
              reaches.cons _ rfl⟩

/-! ## Buffers that cannot be had -/

/-- The checker has not asked for a buffer that it cannot have, or has broken down over it. -/
inductive BreaksDown : Except Refusal Threads → Prop
  | waits {threads : Threads} (without : threads.senderBuffer ≠ .held)
      (wanted : threads.checkerBuffer = .wanted)
      (unfinished : threads.exchange.receiver.finished? = none) : BreaksDown (.ok threads)
  | ended : BreaksDown (.error .overflow)

private theorem finished?_close {exchange : Pipe.Exchange PatternSender PatternChecker}
    (unfinished : exchange.receiver.finished? = none) :
    exchange.close.receiver.finished? = none := by
  unfold Pipe.Exchange.close
  split
  · exact unfinished
  · simp only [Pipe.Exchange.wakeAll]
    cases state : exchange.receiver with
    | finished task =>
        rw [state] at unfinished
        cases unfinished
    | ready | awake | parked => rfl

theorem breaksDown_of_follow (large : Bytes.longestBuffer < order.chunk)
    (starts : BreaksDown (.ok threads))
    (followed : order.follow? threads events = some reached) :
    exchanged events = [] ∧ BreaksDown reached := by
  induction events generalizing threads with
  | nil =>
      cases followed
      exact ⟨rfl, starts⟩
  | cons event events induction =>
      cases starts with
      | waits without wanted unfinished =>
          rcases follow?_cons_cases followed with ⟨refusal, steps, rfl, rfl⟩ | ⟨next, steps, later⟩
          · cases steps with
            | checkerBreaks => exact ⟨rfl, .ended⟩
            | senderStops _ fits | checkerStops _ fits => exact absurd fits (Nat.not_le.mpr large)
          · cases steps with
            | senderHolds _ fits | checkerHolds _ fits => exact absurd fits (Nat.not_le.mpr large)
            | senderBreaks =>
                have still : BreaksDown (.ok { threads with
                    exchange := threads.exchange.close
                    senderBuffer := .lost }) :=
                  .waits (by simp) wanted (finished?_close unfinished)
                exact induction still later
            | exchange holds steps =>
                cases steps <;> simp [Threads.holds, without, wanted] at holds

end BenchOrder

end Command

end ByteStreams
