import ByteStreams.Proofs.Command.BenchThreads
import ByteStreams.Proofs.Command.EndToEnd
import ByteStreams.Proofs.Pipe.PatternProgress

/-! # The bench never blames the data

Whatever the schedule of its two threads is, whichever of their waits reach their time limit and
whether or not they get their buffers, the bench finds that all bytes arrived in order, or it
fails with the wait that was too long, or it ends suddenly for want of a buffer. A pipe that one
thread finds closed is never its verdict, since the thread that closed it has a better reason.
-/

namespace ByteStreams

namespace Command

open Pipe (PatternChecker PatternSender)
open Pipe.Exchange (MovesPattern Stepped)

namespace BenchOrder

variable {order : BenchOrder} {pipe : Pipe} {events : List Event}
  {transfer : Except Refusal Nat} {reached : Except Refusal Threads}

/-! ## The transfer -/

/-- How a transfer may come out, and what was too long or refused then. -/
inductive ComesTo (order : BenchOrder) (pipe : Pipe) (events : List Event) :
    Except Refusal Nat → Prop
  | whole (fits : order.chunk ≤ Bytes.longestBuffer) : ComesTo order pipe events (.ok order.size)
  | readTimedOut
      (answered : .error (.timeout order.limit) ∈
        (order.exchange pipe).receiveAnswers (exchanged events))
      (expired : .exchange (.receiver true) ∈ events) :
      ComesTo order pipe events (.error (.ofPipe "read failed" (.timeout order.limit)))
  | writeTimedOut
      (answered : .error (.timeout order.limit) ∈
        (order.exchange pipe).sendAnswers (exchanged events))
      (expired : .exchange (.sender true) ∈ events) :
      ComesTo order pipe events (.error (.ofPipe "write failed" (.timeout order.limit)))
  | brokeDown (large : Bytes.longestBuffer < order.chunk) :
      ComesTo order pipe events (.error .overflow)
  | stopped (refused : .senderAsks false ∈ events ∨ .checkerAsks false ∈ events) :
      ComesTo order pipe events (.error (.outOfMemory order.chunk))

theorem ComesTo.told {refusal : Refusal}
    (comesTo : order.ComesTo pipe events (.error refusal)) :
    refusal.exit = .timeout ∨ refusal.exit.isSudden = true := by
  cases comesTo with
  | readTimedOut | writeTimedOut => exact .inl rfl
  | brokeDown | stopped => exact .inr rfl

private theorem mem_of_exchanged {event : Pipe.Exchange.Event}
    (among : event ∈ exchanged events) : .exchange event ∈ events := by
  rcases List.mem_filterMap.mp among with ⟨found, member, same⟩
  cases found with
  | exchange other =>
      cases same
      exact member
  | senderAsks | checkerAsks => cases same

theorem comesTo_of_finished {last : Stepped PatternSender PatternChecker}
    {queued delivered : Bytes} (fits : order.chunk ≤ Bytes.longestBuffer)
    (sound : (order.exchange pipe).Sound)
    (followed : (order.exchange pipe).follow? (exchanged events) = some last)
    (moves : last.exchange.MovesPattern order.size order.chunk order.limit queued delivered
      ((order.exchange pipe).sendAnswers (exchanged events))
      ((order.exchange pipe).receiveAnswers (exchanged events)))
    {sender : PatternSender} (senderOver : last.exchange.sender.finished? = some sender)
    {checker : PatternChecker} (checkerOver : last.exchange.receiver.finished? = some checker) :
    order.ComesTo pipe events (order.verdict sender checker) := by
  rcases moves.concluded senderOver checkerOver with
    ⟨failed, answered⟩ | ⟨matched, position, ⟨complete, whole⟩ | ⟨failed, answered⟩⟩
  · have told : order.verdict sender checker =
        .error (.ofPipe "read failed" (.timeout order.limit)) := by
      simp only [verdict, failed]
    rw [told]
    exact .readTimedOut answered
      (mem_of_exchanged (sound.expired_of_receive _ followed answered))
  · have told : order.verdict sender checker = .ok order.size := by
      simp only [verdict, matched, complete, position, whole, if_true]
    rw [told]
    exact .whole fits
  · have told : order.verdict sender checker =
        .error (.ofPipe "write failed" (.timeout order.limit)) := by
      simp only [verdict, matched, failed]
    rw [told]
    exact .writeTimedOut answered (mem_of_exchanged (sound.expired_of_send _ followed answered))

theorem Threads.Whole.outcome?_eq {threads : Threads} (whole : threads.Whole) :
    order.outcome? (.ok threads) =
      threads.exchange.receiver.finished?.bind fun checker =>
        threads.exchange.sender.finished?.map fun sender => order.verdict sender checker := by
  rw [outcome?]
  cases threads.exchange.receiver.finished? with
  | none => rfl
  | some checker => simp only [if_neg whole.sender, Option.bind_some]

/-! ## The command -/

def ending (order : BenchOrder) (transfer : Except Refusal Nat) (form : ReportForm)
    (threshold : LogLevel) (before : Surroundings) : Option (Exit × Surroundings) :=
  ((order.carryOutBy (fun _ => .done transfer) form threshold).bind exit).run before

section

variable (usable : some order.capacity ≠ some 0) (some' : order.chunk ≠ 0) (form : ReportForm)
  (threshold : LogLevel) (before : Surroundings)

include usable some'

theorem ending_of_error (refusal : Refusal) :
    order.ending (.error refusal) form threshold before = some (refusal.exit,
      if refusal.exit.isSudden then before
      else { before with complaints := refusal.message :: before.complaints }) := by
  rw [ending, carryOutBy, if_neg some', Pipe.create_of_usable usable]
  simp only [Session.bind, Session.run, exit]
  split <;> rfl

theorem ending_of_ok (moved : Nat) :
    ∃ later milliseconds throughput,
      order.ending (.ok moved) form threshold before =
        some (.success, { before with entries := later ++ before.entries }.emit (Utf8.encode
          (BenchReport.line ⟨order.capacity, order.chunk, moved, milliseconds, throughput, true⟩
            form ++ "\n"))) := by
  rw [ending, carryOutBy, if_neg some', Pipe.create_of_usable usable]
  rw [Session.run_bind, Session.run, Session.bind, Session.run, conclude, Session.run_noteAll]
  exact ⟨_, _, _, rfl⟩

end

/-- How the command should end when its transfer came out so: with a report of all bytes, with the
exit code for waits that were too long, or suddenly and without a word of its own. -/
def Tells (order : BenchOrder) (transfer : Except Refusal Nat) (form : ReportForm)
    (before : Surroundings) (exit : Exit) (after : Surroundings) : Prop :=
  match transfer with
  | .ok moved => moved = order.size ∧ exit.code = 0 ∧ ∃ milliseconds throughput,
      after.output = before.output ++ Utf8.encode (BenchReport.line
        ⟨order.capacity, order.chunk, moved, milliseconds, throughput, true⟩ form ++ "\n")
  | .error refusal =>
      if refusal.exit.isSudden then exit = refusal.exit ∧ after = before
      else exit.code = 124 ∧
        after = { before with complaints := refusal.message :: before.complaints }

theorem ComesTo.tells (comesTo : order.ComesTo pipe events transfer)
    (usable : some order.capacity ≠ some 0) (some' : order.chunk ≠ 0) (form : ReportForm)
    (threshold : LogLevel) (before : Surroundings) :
    ∃ exit after, order.ending transfer form threshold before = some (exit, after) ∧
      order.Tells transfer form before exit after := by
  unfold Tells
  cases transfer with
  | ok moved =>
      rcases ending_of_ok usable some' form threshold before moved with
        ⟨later, milliseconds, throughput, ended⟩
      have whole : moved = order.size := by
        cases comesTo
        rfl
      refine ⟨_, _, ended, whole, rfl, milliseconds, throughput, ?_⟩
      rw [Surroundings.output_emit]
      rfl
  | error refusal =>
      refine ⟨_, _, ending_of_error usable some' form threshold before refusal, ?_⟩
      rcases comesTo.told with timedOut | sudden
      · have goesOn : refusal.exit.isSudden = false := by rw [timedOut]; rfl
        simp only [goesOn, Bool.false_eq_true, if_false]
        exact ⟨by rw [timedOut]; rfl, trivial⟩
      · simp only [sudden, if_true]
        exact ⟨trivial, trivial⟩

/-! ## Whatever the schedule is -/

def Event.isWakeUp : Event → Bool
  | .exchange event => event.isWakeUp
  | .senderAsks _ | .checkerAsks _ => false

theorem countP_exchanged (events : List Event) :
    (exchanged events).countP Pipe.Exchange.Event.isWakeUp = events.countP Event.isWakeUp := by
  have same (event : Event) :
      (event.exchange?.map Pipe.Exchange.Event.isWakeUp).getD false = event.isWakeUp := by
    cases event <;> rfl
  rw [exchanged, List.countP_filterMap]
  exact congrArg (fun counts => events.countP counts) (funext same)

/-- The events that put nothing off: a thread asks for its buffer and gets it, or runs a stretch
before its time limit. -/
def timely : List Event :=
  [.senderAsks true, .checkerAsks true, .exchange (.sender false), .exchange (.receiver false)]

/-- What a schedule leads to if the bench never blames the data. -/
structure Blameless (order : BenchOrder) (pipe : Pipe) (events : List Event)
    (reached : Except Refusal Threads) : Prop where
  /-- Only wake-ups without a reason put off the end. -/
  bounded : events.length ≤ 5 * order.size + 14 + 3 * events.countP Event.isWakeUp
  goesOn : (order.outcome? reached).isSome ∨
    ∃ threads, reached = .ok threads ∧ ∃ event ∈ timely, (order.step? threads event).isSome
  comesTo : ∀ transfer, order.outcome? reached = some transfer →
    order.ComesTo pipe events transfer
  tells : ∀ transfer, order.outcome? reached = some transfer → ∀ form threshold before,
    ∃ exit after, order.ending transfer form threshold before = some (exit, after) ∧
      order.Tells transfer form before exit after
  inOrder : ∀ position : Nat, order.outcome? reached ≠
    some (.error (dataFault s!"byte at position {position} arrived out of order"))
  complete : ∀ count : Nat, order.outcome? reached ≠
    some (.error (dataFault s!"received {count} of {order.size} bytes"))
  opened : order.outcome? reached ≠ some (.error (.ofPipe "write failed" .closed))

theorem blameless_of_comesTo (usable : some order.capacity ≠ some 0) (some' : order.chunk ≠ 0)
    (bounded : events.length ≤ 5 * order.size + 14 + 3 * events.countP Event.isWakeUp)
    (goesOn : (order.outcome? reached).isSome ∨
      ∃ threads, reached = .ok threads ∧ ∃ event ∈ timely, (order.step? threads event).isSome)
    (comesTo : ∀ transfer, order.outcome? reached = some transfer →
      order.ComesTo pipe events transfer) : order.Blameless pipe events reached := by
  have only {refusal : Refusal} (came : order.outcome? reached = some (.error refusal)) :
      refusal.exit = .timeout ∨ refusal.exit.isSudden = true := (comesTo _ came).told
  refine ⟨bounded, goesOn, comesTo, ?_, ?_, ?_, ?_⟩
  · intro transfer came form threshold before
    exact (comesTo transfer came).tells usable some' form threshold before
  · intro position came
    rcases only came with exit | exit <;> cases exit
  · intro count came
    rcases only came with exit | exit <;> cases exit
  · intro came
    rcases only came with exit | exit <;> cases exit

private theorem asks_isSome {threads : Threads} {granted : Bool} :
    (threads.senderBuffer = .wanted → (order.step? threads (.senderAsks granted)).isSome) ∧
      (threads.checkerBuffer = .wanted → (order.step? threads (.checkerAsks granted)).isSome) := by
  constructor <;> intro wanted <;> rw [step?, if_pos wanted] <;> rfl

private theorem exchange_isSome {threads : Threads} {event : Pipe.Exchange.Event}
    (holds : threads.holds event = true) (happens : (threads.exchange.step? event).isSome) :
    (order.step? threads (.exchange event)).isSome := by
  rw [step?, if_pos holds, Option.isSome_map]
  exact happens

theorem goesOn_of_whole {threads : Threads} (whole : threads.Whole)
    (sound : threads.exchange.Sound) :
    (order.outcome? (.ok threads)).isSome ∨
      ∃ event ∈ timely, (order.step? threads event).isSome := by
  cases senderBuffer : threads.senderBuffer with
  | lost => exact absurd senderBuffer whole.sender
  | wanted => exact .inr ⟨.senderAsks true, by simp [timely], asks_isSome.1 senderBuffer⟩
  | held =>
      cases checkerBuffer : threads.checkerBuffer with
      | lost => exact absurd checkerBuffer whole.checker
      | wanted => exact .inr ⟨.checkerAsks true, by simp [timely], asks_isSome.2 checkerBuffer⟩
      | held =>
          rcases sound.goesOn with ⟨senderOver, checkerOver⟩ | goesOn | goesOn
          · rcases Option.isSome_iff_exists.mp senderOver with ⟨sender, senderOver⟩
            rcases Option.isSome_iff_exists.mp checkerOver with ⟨checker, checkerOver⟩
            left
            rw [whole.outcome?_eq, checkerOver, senderOver]
            rfl
          · exact .inr ⟨.exchange (.sender false), by simp [timely],
              exchange_isSome (by simp [Threads.holds, senderBuffer]) goesOn⟩
          · exact .inr ⟨.exchange (.receiver false), by simp [timely],
              exchange_isSome (by simp [Threads.holds, checkerBuffer]) goesOn⟩

section

variable (usable : some order.capacity ≠ some 0) (some' : order.chunk ≠ 0)
  (followed : order.follow? (order.threads (.empty (some order.capacity))) events = some reached)

include usable some' followed

theorem blameless_of_fits (fits : order.chunk ≤ Bytes.longestBuffer) :
    order.Blameless (.empty (some order.capacity)) events reached := by
  have started : (order.exchange (.empty (some order.capacity))).MovesPattern order.size
      order.chunk order.limit [] [] [] [] :=
    .start usable order.size order.chunk order.limit
  have begun : (order.threads (.empty (some order.capacity))).Whole := ⟨by simp [threads],
    by simp [threads]⟩
  rcases reaches_of_follow fits begun followed with ⟨last, ran, reaches⟩
  have moves := started.follow some' _ ran
  have bounded : events.length ≤ 5 * order.size + 14 + 3 * events.countP Event.isWakeUp := by
    have asked : (order.threads (.empty (some order.capacity))).waiting = 2 := rfl
    have all := length_le_exchanged followed
    have work : (exchanged events).length ≤
        5 * order.size + 12 + 3 * (exchanged events).countP Pipe.Exchange.Event.isWakeUp :=
      started.length_le_work some' _ ran
    rw [countP_exchanged] at work
    omega
  cases reaches with
  | goesOn whole same =>
      rw [same] at moves
      apply blameless_of_comesTo usable some' bounded
      · exact (goesOn_of_whole whole moves.sound).imp_right fun goesOn => ⟨_, rfl, goesOn⟩
      · intro transfer came
        rw [whole.outcome?_eq, Option.bind_eq_some_iff] at came
        rcases came with ⟨checker, checkerOver, came⟩
        rcases Option.map_eq_some_iff.mp came with ⟨sender, senderOver, rfl⟩
        rw [← same] at moves senderOver checkerOver
        exact comesTo_of_finished fits started.sound ran moves senderOver checkerOver
  | stopped refused =>
      apply blameless_of_comesTo usable some' bounded (.inl rfl)
      rintro transfer came
      cases came
      exact .stopped refused

theorem blameless_of_large (large : Bytes.longestBuffer < order.chunk) :
    order.Blameless (.empty (some order.capacity)) events reached := by
  have begun : BreaksDown (.ok (order.threads (.empty (some order.capacity)))) :=
    .waits (by simp [threads]) rfl rfl
  rcases breaksDown_of_follow large begun followed with ⟨nothing, reaches⟩
  have bounded : events.length ≤ 5 * order.size + 14 + 3 * events.countP Event.isWakeUp := by
    have asked : (order.threads (.empty (some order.capacity))).waiting = 2 := rfl
    have all := length_le_exchanged followed
    rw [nothing, List.length_nil] at all
    omega
  cases reaches with
  | waits without wanted unfinished =>
      apply blameless_of_comesTo usable some' bounded
      · exact .inr ⟨_, rfl, .checkerAsks true, by simp [timely], asks_isSome.2 wanted⟩
      · intro transfer came
        rw [outcome?, unfinished] at came
        cases came
  | ended =>
      apply blameless_of_comesTo usable some' bounded (.inl rfl)
      rintro transfer came
      cases came
      exact .brokeDown large

theorem blameless_of_follow : order.Blameless (.empty (some order.capacity)) events reached := by
  rcases Nat.lt_or_ge Bytes.longestBuffer order.chunk with large | fits
  · exact blameless_of_large usable some' followed large
  · exact blameless_of_fits usable some' followed fits

end

/-! ## The schedule that settles -/

theorem follow?_of_held {threads : Threads} (sender : threads.senderBuffer = .held)
    (checker : threads.checkerBuffer = .held) (events : List Pipe.Exchange.Event) :
    order.follow? threads (events.map .exchange) =
      (threads.exchange.follow? events).map fun last =>
        .ok { threads with exchange := last.exchange } := by
  induction events generalizing threads with
  | nil => rfl
  | cons event events induction =>
      have holds : threads.holds event = true := by
        cases event <;> simp [Threads.holds, sender, checker]
      rw [List.map_cons, follow?, step?, if_pos holds, Pipe.Exchange.follow?]
      cases threads.exchange.step? event with
      | none => rfl
      | some first =>
          simp only [Option.map_some, Option.bind_some, Option.map_map]
          exact induction sender checker

/-- The schedule that a bench settles along when both threads get their buffers. -/
theorem settled?_follows (order : BenchOrder) (pipe : Pipe)
    (fits : order.chunk ≤ Bytes.longestBuffer) :
    ∃ events threads, order.follow? (order.threads pipe) events = some (.ok threads) ∧
      order.settled? pipe true true = order.outcome? (.ok threads) ∧
      (∀ event ∈ events, event ∈ timely) ∧
      (events.length = Pipe.Exchange.patience + 2 ∨
        ∀ event ∈ timely, order.step? threads event = none) := by
  rcases Pipe.Exchange.settleWithin_follows (order.exchange pipe) pipe.available
      Pipe.Exchange.patience with ⟨moves, last, ran, settled, inTime, ends⟩
  refine ⟨.senderAsks true :: .checkerAsks true :: moves.map .exchange,
    ⟨last.exchange, .held, .held⟩, ?_, ?_, ?_, ends.imp ?_ ?_⟩
  · have held : order.follow? ⟨order.exchange pipe, .held, .held⟩ (moves.map .exchange) = _ :=
      follow?_of_held rfl rfl moves
    rw [ran] at held
    simp only [follow?, step?, threads, senderAsks, checkerAsks,
      Refusal.ofBuffer?_of_fits fits, if_true]
    exact held
  · have begun : order.begin pipe true true = .ok ⟨order.exchange pipe, .held, .held⟩ := by
      simp only [begin, senderAsks, checkerAsks, Refusal.ofBuffer?_of_fits fits, if_true]
      rfl
    rw [settled?, begun]
    exact congrArg (fun exchange => order.outcome? (.ok ⟨exchange, .held, .held⟩)) settled
  · simp only [timely, List.mem_cons, List.mem_map, List.not_mem_nil, or_false]
    rintro event (rfl | rfl | ⟨move, member, rfl⟩)
    · exact .inl rfl
    · exact .inr (.inl rfl)
    · exact .inr (.inr ((inTime move member).imp (congrArg _) (congrArg _)))
  · intro full
    rw [List.length_cons, List.length_cons, List.length_map, full]
  · intro stuck
    rw [Pipe.Exchange.nextEvent, Option.or_eq_none_iff] at stuck
    simp only [timely, List.mem_cons, List.not_mem_nil, or_false]
    rintro event (rfl | rfl | rfl | rfl) <;> simp [step?, Threads.holds, stuck.1, stuck.2]

theorem not_isWakeUp_of_timely {event : Event} (inTime : event ∈ timely) :
    event.isWakeUp = false := by
  simp only [timely, List.mem_cons, List.not_mem_nil, or_false] at inTime
  rcases inTime with rfl | rfl | rfl | rfl <;> rfl

/-- A schedule without delays moves all bytes if it comes to an end. -/
theorem ComesTo.of_timely (comesTo : order.ComesTo pipe events transfer)
    (fits : order.chunk ≤ Bytes.longestBuffer) (inTime : ∀ event ∈ events, event ∈ timely) :
    transfer = .ok order.size := by
  cases comesTo with
  | whole => rfl
  | readTimedOut answered expired | writeTimedOut answered expired =>
      have late := inTime _ expired
      simp [timely] at late
  | brokeDown large => exact absurd fits (Nat.not_le.mpr large)
  | stopped refused =>
      rcases refused with refused | refused <;>
      · have denied := inTime _ refused
        simp [timely] at denied

/-- A bench whose threads get their buffers and whose waits are never too long moves all bytes,
unless they are so many that it loses its patience. -/
theorem settled?_eq_ok (usable : some order.capacity ≠ some 0) (some' : order.chunk ≠ 0)
    (fits : order.chunk ≤ Bytes.longestBuffer)
    (patient : 5 * order.size + 14 < Pipe.Exchange.patience) :
    order.settled? (.empty (some order.capacity)) true true = some (.ok order.size) := by
  rcases settled?_follows order (.empty (some order.capacity)) fits with
    ⟨events, threads, followed, settled, inTime, ends⟩
  have blameless := blameless_of_follow usable some' followed
  -- Without wake-ups the schedule is too short for the patience to end before the threads do.
  have noWakeUps : events.countP Event.isWakeUp = 0 := by
    rw [List.countP_eq_zero]
    intro event among
    rw [not_isWakeUp_of_timely (inTime event among)]
    exact Bool.false_ne_true
  have isOver : (order.outcome? (.ok threads)).isSome := by
    rcases blameless.goesOn with isOver | ⟨_, same, event, among, happens⟩
    · exact isOver
    · cases same
      rcases ends with full | stuck
      · have bounded := blameless.bounded
        omega
      · rw [stuck event among] at happens
        cases happens
  rcases Option.isSome_iff_exists.mp isOver with ⟨transfer, outcome⟩
  rw [settled, outcome, (blameless.comesTo transfer outcome).of_timely fits inTime]

theorem settled?_of_refused (order : BenchOrder) (pipe : Pipe) {granted : Bool}
    {refusal : Refusal} (refused : Refusal.ofBuffer? order.chunk granted = some refusal) :
    order.settled? pipe granted granted = some (.error refusal) := by
  have begun : order.begin pipe granted granted = .error refusal := by
    simp only [begin, senderAsks, checkerAsks, refused]
    by_cases breaks : refusal.exit = .brokenDown
    · rw [if_pos breaks]
    · rw [if_neg breaks]
  rw [settled?, begun]
  rfl

theorem run_carryOutBy (usable : some order.capacity ≠ some 0) (some' : order.chunk ≠ 0)
    {moveBy : Pipe → Session (Except Refusal Nat)} {before : Surroundings}
    (moves : (moveBy (.empty (some order.capacity))).run before = some (transfer, before))
    (form : ReportForm) (threshold : LogLevel) :
    ((order.carryOutBy moveBy form threshold).bind exit).run before =
      order.ending transfer form threshold before := by
  simp only [ending, carryOutBy, if_neg some', Pipe.create_of_usable usable, Session.bind,
    Session.run, Session.run_bind, moves]
  rfl

/-- A bench whose waits are never too long reports all bytes, or it ends suddenly if it gets no
buffer. -/
theorem run_carryOut (usable : some order.capacity ≠ some 0) (some' : order.chunk ≠ 0)
    (patient : 5 * order.size + 14 < Pipe.Exchange.patience) (form : ReportForm)
    (threshold : LogLevel) (before : Surroundings) :
    ((order.carryOut form threshold).bind exit).run before =
      order.ending
        (match Refusal.ofBuffer? order.chunk (before.memory order.chunk) with
        | some refusal => .error refusal
        | none => .ok order.size) form threshold before := by
  apply run_carryOutBy usable some'
  rw [move, Session.run, Session.run]
  cases refused : Refusal.ofBuffer? order.chunk (before.memory order.chunk) with
  | some refusal =>
      rw [settled?_of_refused order _ refused]
      rfl
  | none =>
      rcases Refusal.ofBuffer?_eq_none_iff.mp refused with ⟨fits, granted⟩
      rw [granted, settled?_eq_ok usable some' fits patient]
      rfl

/-- Whatever the schedule of its threads is, whichever waits reach their time limit and whichever
buffers are refused, the bench comes to an end. It finds that all bytes arrived in order, or that
a wait was too long, or it ends suddenly because there is no buffer for a chunk. -/
theorem bench_blames_no_data (order : BenchOrder) (usable : order.capacity ≠ 0)
    (some' : order.chunk ≠ 0) :
    ∃ pipe, Pipe.create (some order.capacity) = .ok pipe ∧
      ∀ events reached, order.follow? (order.threads pipe) events = some reached →
        order.Blameless pipe events reached := by
  have bounded : some order.capacity ≠ some 0 := by simpa using usable
  refine ⟨.empty (some order.capacity), Pipe.create_of_usable bounded, ?_⟩
  intro events reached followed
  exact blameless_of_follow bounded some' followed

/-- The sender times out on a full pipe before the checker has its buffer, and what it had queued
still arrives. In another schedule the checker gets no buffer. -/
theorem bench_blames_no_data_for_a_full_pipe :
    let order : BenchOrder := ⟨2, 3, 2, .ofMilliseconds 5⟩
    let events : List Event :=
      [.senderAsks true, .exchange (.sender false), .exchange (.sender true),
        .exchange (.sender false), .checkerAsks true, .exchange (.receiver false),
        .exchange (.receiver false), .exchange (.receiver true), .exchange (.receiver false)]
    let others : List Event :=
      [.senderAsks true, .exchange (.sender false), .checkerAsks false]
    ∃ pipe reached stopped, Pipe.create (some 2) = .ok pipe ∧
      order.follow? (order.threads pipe) events = some reached ∧
      order.outcome? reached =
        some (.error ⟨.timeout, "write failed: pipe operation timed out after 5ms"⟩) ∧
      order.Blameless pipe events reached ∧
      order.follow? (order.threads pipe) others = some stopped ∧
      order.outcome? stopped =
        some (.error ⟨.stopped, "memory allocation of 2 bytes failed"⟩) ∧
      order.Blameless pipe others stopped := by
  intro order events others
  have usable : order.capacity ≠ 0 := by decide
  have some' : order.chunk ≠ 0 := by decide
  rcases bench_blames_no_data order usable some' with ⟨pipe, created, always⟩
  cases created
  have moves : (order.follow? (order.threads (.empty (some 2))) events).map order.outcome? =
      some (some (.error ⟨.timeout, "write failed: pipe operation timed out after 5ms"⟩)) := by
    decide +kernel
  rcases Option.map_eq_some_iff.mp moves with ⟨reached, followed, moved⟩
  have stops : (order.follow? (order.threads (.empty (some 2))) others).map order.outcome? =
      some (some (.error ⟨.stopped, "memory allocation of 2 bytes failed"⟩)) := by
    decide +kernel
  rcases Option.map_eq_some_iff.mp stops with ⟨stopped, refused, ended⟩
  exact ⟨_, reached, stopped, rfl, followed, moved, always _ reached followed, refused, ended,
    always _ stopped refused⟩

/-- A chunk may be longer than any buffer. -/
theorem bench_breaks_down_for_a_buffer :
    let order : BenchOrder := ⟨4096, 10, 18446744073709551615, .ofSeconds 10⟩
    order.capacity ≠ 0 ∧ order.chunk ≠ 0 ∧
      ((program .unknown ["pipe-bench", "--chunk", "18446744073709551615", "--size", "10"]).run
        (.new (.ofEntries []) ⟨[]⟩)).map (fun ended => ended.1.code) = some 101 ∧
      ∃ events : List Event, (∀ event ∈ events, event ∈ timely) ∧
        order.follow? (order.threads (.empty (some 4096))) events =
          some (.error ⟨.brokenDown, "capacity overflow"⟩) := by
  refine ⟨by decide, by decide, by decide +kernel,
    [.senderAsks true, .checkerAsks true], by simp [timely], rfl⟩

end BenchOrder

end Command

end ByteStreams
