import ByteStreams.Proofs.Channel.Yielding
import ByteStreams.Proofs.RunLength.CutWrites

/-! # What a sink has until it fails

Up to the first operation that fails because of the sink, an encoder writes what it writes
to a sink that takes everything, and that operation writes a front of it. A frame that is
cut, a stage that is refused between two others and a flush that fails after all is written
are alike in this.
-/

namespace ByteStreams

namespace RunLength

open Channel (Sink Writing)

def bySink : Except Failure Unit → Bool
  | .error (.channel _) => true
  | _ => false

namespace Encoder

/-! ## Attempts -/

/-- Respond to a request. Failures tell whether the sink is to blame. -/
def attempt (encoder : Encoder) : Request → Writing (Except Failure Unit × Encoder)
  | .operate (.encode data) | .operate (.write data) => encoder.encode data
  | .operate .flushRun => encoder.flushRun
  | .operate .flush => encoder.flush
  | .close => encoder.close

def Request.count? : Request → Option Nat
  | .operate operation => operation.count?
  | .close => none

theorem respond_eq (encoder : Encoder) (request : Request) :
    encoder.respond request =
      (encoder.attempt request).map fun (outcome, after) =>
        ((answer outcome).map fun _ => request.count?, after) := by
  rcases request with (data | data | _ | _) | _
  · rfl
  · apply congrArg (encoder.encode data).bind
    funext ⟨outcome, after⟩
    cases outcome <;> rfl
  · rfl
  · apply congrArg encoder.flush.bind
    funext ⟨outcome, after⟩
    cases outcome <;> rfl
  · rfl

def attemptAll (encoder : Encoder) : List Request → Writing (List (Except Failure Unit) × Encoder)
  | [] => .done ([], encoder)
  | request :: requests =>
      (encoder.attempt request).bind fun (outcome, after) =>
        (after.attemptAll requests).map fun (outcomes, last) => (outcome :: outcomes, last)

inductive Turn
  | request (request : Request)
  | finish
deriving DecidableEq, Repr

def take (encoder : Encoder) : Turn → Writing (Except Failure Unit)
  | .request request => (encoder.attempt request).map Prod.fst
  | .finish => encoder.finish

def Request.due (isOpen : Bool) : Request → Except Failure Unit
  | .operate .flushRun | .close => .ok ()
  | .operate _ => if isOpen then .ok () else .error (.fault .closed)

def Turn.due (isOpen : Bool) : Turn → Except Failure Unit
  | .request asked => asked.due isOpen
  | .finish => if isOpen then .ok () else .error (.fault .closed)

def outcomesDue (isOpen : Bool) : List Request → List (Except Failure Unit)
  | [] => []
  | request :: requests =>
      request.due isOpen :: outcomesDue (isOpen && request ≠ .close) requests

/-! ## Programs that yield to the sink -/

theorem passStaged_yields (encoder : Encoder) :
    encoder.passStaged.Yields (Writing.Quits fun (outcome, after) =>
      bySink outcome = true ∧ after = { encoder with staged := #[] }) := by
  unfold passStaged
  split
  · exact .done _
  · split
    · exact .writeAll (.done _) fun failure => .done ⟨rfl, rfl⟩
    · exact .done _

theorem absorb_yields (list : List Run) (each : ∀ run ∈ list, 0 < run.count) (encoder : Encoder)
    (opened : encoder.isOpen = true) (fits : encoder.pending.Fits) :
    (encoder.absorb list).Yields (Writing.Quits fun (outcome, _) => bySink outcome = true) := by
  induction list generalizing encoder with
  | nil =>
      apply encoder.passStaged_yields.mono
      exact fun failed quits => quits.mono fun _ reported => reported.1
  | cons run rest induction =>
      rcases encoder.extend_eq fits run (each run (List.mem_cons_self ..)) with
        ⟨middle, code, extended, middleFits, -⟩
      have others : ∀ other ∈ rest, 0 < other.count := fun other member =>
        each other (List.mem_cons_of_mem _ member)
      rw [absorb, extended]
      simp only
      split
      · apply (encoder.advanced middle code).passStaged_yields.bind
          ((encoder.advanced middle code).passStaged_puts opened)
        · intro failed quits
          apply quits.bind
          rintro ⟨failed, after⟩ ⟨reported, -⟩
          cases failed with
          | error failure => exact .done reported
          | ok => cases reported
        · exact induction others { encoder.advanced middle code with staged := #[] } opened
            middleFits
      · exact induction others (encoder.advanced middle code) opened middleFits

namespace Ready

variable {encoder : Encoder}

theorem encode_yields (ready : encoder.Ready) (data : Bytes) :
    (encoder.encode data).Yields (Writing.Quits fun (outcome, _) => bySink outcome = true) := by
  rw [Encoder.encode, if_pos ready.opened]
  exact absorb_yields (runs data) (count_pos_of_mem_runs data) encoder ready.opened ready.fits

theorem flushRun_yields (ready : encoder.Ready) :
    encoder.flushRun.Yields (Writing.Quits fun (outcome, after) =>
      bySink outcome = true ∧ after = encoder.withPending .idle) := by
  rw [flushRun, stagePending_eq encoder ready.fits, ← ready.eq_withPending]
  exact (encoder.advanced .idle
    (RunLength.encode encoder.signal encoder.pending.data)).passStaged_yields

theorem afterFlushRun_yields (ready : encoder.Ready) {α : Type} {reports : α → Prop}
    {andThen : Except Failure Unit × Encoder → Writing α}
    (passes : ∀ failure, (andThen (.error (.channel failure), encoder.withPending .idle)).Quits
      reports)
    (second : (andThen (.ok (), encoder.withPending .idle)).Yields (Writing.Quits reports)) :
    (encoder.flushRun.bind andThen).Yields (Writing.Quits reports) := by
  apply ready.flushRun_yields.bind ready.flushRun_puts _ second
  intro failed quits
  apply quits.bind
  rintro ⟨failed, after⟩ ⟨reported, rfl⟩
  rcases failed with (_ | failure) | _
  · cases reported
  · exact passes failure
  · cases reported

theorem flush_yields (ready : encoder.Ready) :
    encoder.flush.Yields (Writing.Quits fun (outcome, _) => bySink outcome = true) := by
  have opened : (encoder.withPending .idle).isOpen = true := ready.opened
  apply ready.afterFlushRun_yields
  · exact fun failure => .done rfl
  · simp only [opened, if_true]
    exact .settle (.done _) fun failure => .done rfl

theorem close_yields (ready : encoder.Ready) :
    encoder.close.Yields (Writing.Quits fun (outcome, _) => bySink outcome = true) := by
  rw [close, if_pos ready.opened]
  apply ready.afterFlushRun_yields
  · exact fun failure => .done rfl
  · exact .settle (.release (.done _)) fun failure => .release (.done rfl)

theorem close_delivers (ready : encoder.Ready) :
    encoder.close.Delivers (RunLength.encode encoder.signal encoder.pending.data)
      (.ok (), { encoder.withPending .idle with isOpen := false }) := by
  rw [close, if_pos ready.opened]
  exact ready.flushRun_puts.giveUp (.settle (.release (.done _)))

theorem drop_idle (ready : encoder.Ready) :
    (encoder.withPending .idle).drop = .release (.done ()) := by
  have opened : (encoder.withPending .idle).isOpen = true := ready.opened
  have quiet : (encoder.withPending .idle).flushRun = .done (.ok (), encoder.withPending .idle) :=
    flushRun_of_nothing rfl ready.unstaged
  rw [drop, if_pos opened, quiet]
  rfl

theorem finish_yields (ready : encoder.Ready) :
    encoder.finish.Yields (Writing.Quits fun outcome => bySink outcome = true) := by
  have opened : (encoder.withPending .idle).isOpen = true := ready.opened
  apply ready.afterFlushRun_yields
  · intro failure
    simp only [ready.drop_idle]
    exact .release (.done rfl)
  · simp only [opened, if_true]
    exact .settle (.done _) fun failure => .release (.done rfl)

end Ready

/-! ## Between operations -/

inductive Steady (encoder : Encoder) : Prop
  | ready (ready : encoder.Ready)
  | closed (closed : encoder.isOpen = false) (idle : encoder.pending = .idle)
      (unstaged : encoder.staged = #[])

theorem steady_new (signal : UInt8) : (new signal).Steady := .ready (ready_new signal)

/-- An operation that yields to the sink, and has the result `due` if the sink does not fail. -/
structure Attempts {α : Type} (outcome : α → Except Failure Unit) (program : Writing α)
    (due : α) : Prop where
  yields : program.Yields (Writing.Quits fun result => bySink (outcome result) = true)
  delivers : ∃ bytes, program.Delivers bytes due
  unfailed : bySink (outcome due) = false

theorem Request.bySink_due (isOpen : Bool) (request : Request) :
    bySink (request.due isOpen) = false := by
  rcases request with (data | data | _ | _) | _ <;> cases isOpen <;> rfl

theorem Turn.bySink_due (isOpen : Bool) (turn : Turn) : bySink (turn.due isOpen) = false := by
  cases turn with
  | request request => exact request.bySink_due isOpen
  | finish => cases isOpen <;> rfl

theorem bySink_of_mem_outcomesDue {isOpen : Bool} {requests : List Request}
    {outcome : Except Failure Unit} (member : outcome ∈ outcomesDue isOpen requests) :
    bySink outcome = false := by
  induction requests generalizing isOpen with
  | nil => cases member
  | cons request requests induction =>
      rcases List.mem_cons.mp member with rfl | later
      · exact request.bySink_due isOpen
      · exact induction later

theorem Ready.attempts {encoder : Encoder} (ready : encoder.Ready) (request : Request) :
    ∃ after, Attempts Prod.fst (encoder.attempt request) (request.due true, after) ∧
      after.Steady ∧ after.isOpen = (true && request ≠ .close) := by
  rcases request with (data | data | _ | _) | _
  · rcases ready.encode_puts data with ⟨pending, code, puts, fits, -⟩
    exact ⟨_, ⟨ready.encode_yields data, ⟨_, puts.delivers⟩, rfl⟩,
      .ready (ready.withPending fits), ready.opened⟩
  · rcases ready.encode_puts data with ⟨pending, code, puts, fits, -⟩
    exact ⟨_, ⟨ready.encode_yields data, ⟨_, puts.delivers⟩, rfl⟩,
      .ready (ready.withPending fits), ready.opened⟩
  · have yields := ready.flushRun_yields.mono fun failed quits =>
      quits.mono fun _ reported => reported.1
    exact ⟨_, ⟨yields, ⟨_, ready.flushRun_puts.delivers⟩, rfl⟩,
      .ready (ready.withPending trivial), ready.opened⟩
  · exact ⟨_, ⟨ready.flush_yields, ⟨_, ready.flush_puts.delivers⟩, rfl⟩,
      .ready (ready.withPending trivial), ready.opened⟩
  · exact ⟨_, ⟨ready.close_yields, ⟨_, ready.close_delivers⟩, rfl⟩,
      .closed rfl rfl ready.unstaged, rfl⟩

theorem attempt_closed {encoder : Encoder} (closed : encoder.isOpen = false)
    (idle : encoder.pending = .idle) (unstaged : encoder.staged = #[]) (request : Request) :
    encoder.attempt request = .done (request.due false, encoder) := by
  rcases request with (data | data | _ | _) | _
  · simp [attempt, Encoder.encode, closed, Request.due]
  · simp [attempt, Encoder.encode, closed, Request.due]
  · exact flushRun_of_nothing idle unstaged
  · simp [attempt, flush, flushRun_of_nothing idle unstaged, Writing.bind, closed, Request.due]
  · simp [attempt, close, closed, Request.due]

namespace Steady

variable {encoder : Encoder}

theorem attempts (steady : encoder.Steady) (request : Request) :
    ∃ after, Attempts Prod.fst (encoder.attempt request) (request.due encoder.isOpen, after) ∧
      after.Steady ∧ after.isOpen = (encoder.isOpen && request ≠ .close) := by
  cases steady with
  | ready ready =>
      rw [ready.opened]
      exact ready.attempts request
  | closed closed idle unstaged =>
      rw [attempt_closed closed idle unstaged, closed]
      exact ⟨encoder, ⟨.done _, ⟨[], .done _⟩, request.bySink_due false⟩,
        .closed closed idle unstaged, closed⟩

theorem takes (steady : encoder.Steady) (turn : Turn) :
    Attempts id (encoder.take turn) (turn.due encoder.isOpen) := by
  cases turn with
  | request request =>
      rcases steady.attempts request with ⟨after, ⟨yields, ⟨bytes, delivers⟩, unfailed⟩, -⟩
      refine ⟨?_, ⟨bytes, delivers.map _⟩, unfailed⟩
      apply yields.map
      exact fun failed quits => quits.bind fun result reported => .done reported
  | finish =>
      cases steady with
      | ready ready =>
          rw [ready.opened]
          exact ⟨ready.finish_yields, ⟨_, ready.finish_puts.delivers⟩, rfl⟩
      | closed closed idle unstaged =>
          have refuses : encoder.finish = .done (.error (.fault .closed)) := by
            simp [finish, flushRun_of_nothing idle unstaged, Writing.bind, closed]
          rw [take, refuses, closed]
          exact ⟨.done _, ⟨[], .done _⟩, rfl⟩

end Steady

/-! ## Two sinks -/

theorem Attempts.run {α : Type} {outcome : α → Except Failure Unit} {program : Writing α} {due : α}
    (attempts : Attempts outcome program due) {sink ideal : Sink} (faultless : ideal.Faultless)
    (same : sink.accepted = ideal.accepted) :
    (program.run ideal).1 = due ∧ (program.run ideal).2.Faultless ∧
      (program.run sink).2.accepted <+: (program.run ideal).2.accepted ∧
      (bySink (outcome (program.run sink).1) = false →
        (program.run sink).1 = due ∧
          (program.run sink).2.accepted = (program.run ideal).2.accepted) := by
  rcases attempts.delivers with ⟨bytes, delivers⟩
  rcases delivers.run faultless with ⟨after, ran, afterFaultless, accepted⟩
  rw [ran]
  refine ⟨rfl, afterFaultless, ?_⟩
  rw [accepted, ← same]
  rcases attempts.yields.run delivers sink with ⟨result, whole⟩ | ⟨reported, front⟩
  · exact ⟨whole ▸ List.prefix_rfl, fun _ => ⟨result, whole⟩⟩
  · refine ⟨front, fun unfailed => ?_⟩
    rw [reported] at unfailed
    cases unfailed

theorem Steady.attemptAll_faultless (requests : List Request) {encoder : Encoder}
    (steady : encoder.Steady) {sink : Sink} (faultless : sink.Faultless) :
    ∃ after last, (encoder.attemptAll requests).run sink =
        ((outcomesDue encoder.isOpen requests, after), last) ∧ last.Faultless ∧ after.Steady ∧
      after.isOpen = (encoder.isOpen && .close ∉ requests) := by
  induction requests generalizing encoder sink with
  | nil => exact ⟨encoder, sink, rfl, faultless, steady, by simp⟩
  | cons request requests induction =>
      rcases steady.attempts request with ⟨middle, ⟨-, ⟨bytes, delivers⟩, -⟩, middleSteady, left⟩
      rcases delivers.run faultless with ⟨between, ran, betweenFaultless, -⟩
      rcases induction middleSteady betweenFaultless with
        ⟨after, last, others, lastFaultless, afterSteady, afterOpen⟩
      refine ⟨after, last, ?_, lastFaultless, afterSteady, ?_⟩
      · simp only [attemptAll, Writing.map, Writing.run_bind, ran, others, Writing.run, outcomesDue,
          left]
      · rw [afterOpen, left]
        simp [Bool.and_assoc, eq_comm]

/-- As long as no operation failed because of its sink, a sink that takes everything cannot be
told from it. -/
theorem Steady.attemptAll_alike (requests : List Request) {encoder : Encoder}
    (steady : encoder.Steady) {sink ideal : Sink} (faultless : ideal.Faultless)
    (same : sink.accepted = ideal.accepted)
    (unfailed : ∀ outcome ∈ ((encoder.attemptAll requests).run sink).1.1, bySink outcome = false) :
    ((encoder.attemptAll requests).run sink).1 = ((encoder.attemptAll requests).run ideal).1 ∧
      ((encoder.attemptAll requests).run sink).2.accepted =
        ((encoder.attemptAll requests).run ideal).2.accepted := by
  induction requests generalizing encoder sink ideal with
  | nil => exact ⟨rfl, same⟩
  | cons request requests induction =>
      rcases steady.attempts request with ⟨middle, attempts, middleSteady, -⟩
      rcases attempts.run faultless same with ⟨idealResult, idealFaultless, -, whole⟩
      simp only [attemptAll, Writing.map, Writing.run_bind, Writing.run] at unfailed ⊢
      rcases whole (unfailed _ (List.mem_cons_self ..)) with ⟨result, taken⟩
      rw [result] at unfailed ⊢
      rw [idealResult]
      rcases induction middleSteady idealFaultless taken fun outcome member =>
        unfailed outcome (List.mem_cons_of_mem _ member) with ⟨others, accepted⟩
      exact ⟨by rw [others], accepted⟩

theorem Steady.take_alike (requests : List Request) (turn : Turn) {encoder : Encoder}
    (steady : encoder.Steady) {sink ideal : Sink} (faultless : ideal.Faultless)
    (same : sink.accepted = ideal.accepted)
    (unfailed : ∀ outcome ∈ ((encoder.attemptAll requests).run sink).1.1, bySink outcome = false) :
    let served := (encoder.attemptAll requests).run sink
    let idealServed := (encoder.attemptAll requests).run ideal
    let last := (served.1.2.take turn).run served.2
    let idealLast := (idealServed.1.2.take turn).run idealServed.2
    last.2.accepted <+: idealLast.2.accepted ∧
      (bySink last.1 = false →
        last.1 = idealLast.1 ∧ last.2.accepted = idealLast.2.accepted) := by
  intro served idealServed last idealLast
  rcases steady.attemptAll_faultless requests faultless with
    ⟨after, idealSink, idealRan, idealFaultless, afterSteady, -⟩
  rcases steady.attemptAll_alike requests faultless same unfailed with ⟨results, accepted⟩
  simp only [last, idealLast, served, idealServed]
  rw [results]
  rw [idealRan] at accepted ⊢
  rcases (afterSteady.takes turn).run idealFaultless accepted with ⟨idealResult, -, front, whole⟩
  exact ⟨front, fun unfailedLast => ⟨(whole unfailedLast).1.trans idealResult.symm,
    (whole unfailedLast).2⟩⟩

/-- Up to the first operation that fails because of the sink, the sink takes what one that takes
everything does, and in that operation a front of it. A sink that only takes few bytes at
a time and interrupts fails no operation. -/
theorem failing_sink_takes_front (signal : UInt8) (begun : List Request) (turn : Turn)
    (sink : Sink) :
    let served := ((new signal).attemptAll begun).run sink
    let ideal := ((new signal).attemptAll begun).run sink.generous
    let last := (served.1.2.take turn).run served.2
    let idealLast := (ideal.1.2.take turn).run ideal.2
    ((∀ outcome ∈ served.1.1, bySink outcome = false) →
      served.1 = ideal.1 ∧ served.2.accepted = ideal.2.accepted ∧
        last.2.accepted <+: idealLast.2.accepted ∧
        (bySink last.1 = false →
          last.1 = idealLast.1 ∧ last.2.accepted = idealLast.2.accepted)) ∧
      (sink.Faultless →
        served.1.1 = outcomesDue true begun ∧ last.1 = turn.due (.close ∉ begun) ∧
          served.2.accepted = ideal.2.accepted ∧
          last.2.accepted = idealLast.2.accepted) := by
  intro served ideal last idealLast
  have steady := steady_new signal
  have same : sink.accepted = sink.generous.accepted := rfl
  refine ⟨fun unfailed => ?_, fun faultless => ?_⟩
  · rcases steady.attemptAll_alike begun sink.faultless_generous same unfailed with
      ⟨results, accepted⟩
    exact ⟨results, accepted,
      steady.take_alike begun turn sink.faultless_generous same unfailed⟩
  · rcases steady.attemptAll_faultless begun faultless with
      ⟨after, servedSink, ran, servedFaultless, afterSteady, afterOpen⟩
    have outcomes : served.1.1 = outcomesDue true begun := by
      simp only [served, ran]
      rfl
    have unfailed : ∀ outcome ∈ served.1.1, bySink outcome = false := fun outcome member =>
      bySink_of_mem_outcomesDue (outcomes ▸ member)
    have result : last.1 = turn.due (.close ∉ begun) := by
      rcases (afterSteady.takes turn).run servedFaultless rfl with ⟨result, -⟩
      simp only [last, served, ran]
      rw [result, afterOpen]
      simp [new]
    have whole := (steady.take_alike begun turn sink.faultless_generous same unfailed).2
    exact ⟨outcomes, result,
      (steady.attemptAll_alike begun sink.faultless_generous same unfailed).2,
      (whole (result ▸ turn.bySink_due _)).2⟩

/-- The sink takes half of a frame, interrupts and then fails. -/
theorem failing_sink_takes_front_cut_frame :
    let begun : List Request := [.operate (.write [0x41]), .operate .flush, .operate (.encode [])]
    let turn : Turn := .request (.operate (.write [0x42, 0x42, 0x42, 0x43]))
    let sink : Sink := ⟨[.accept 1, .accept 1, .refuse (.bare .interrupted),
      .refuse (.bare .timedOut)], [some (.bare .interrupted)], []⟩
    let served := ((new 0xE2).attemptAll begun).run sink
    let ideal := ((new 0xE2).attemptAll begun).run sink.generous
    let last := (served.1.2.take turn).run served.2
    let idealLast := (ideal.1.2.take turn).run ideal.2
    (∀ outcome ∈ served.1.1, bySink outcome = false) ∧ bySink last.1 = true ∧
      last.2.accepted = [0x41, 0xE2] ∧ idealLast.2.accepted = [0x41, 0xE2, 0x03, 0x42] ∧
      last.2.accepted <+: idealLast.2.accepted := by
  intro begun turn sink served ideal last idealLast
  have unfailed : ∀ outcome ∈ served.1.1, bySink outcome = false := by decide +kernel
  exact ⟨unfailed, by decide +kernel, by decide +kernel, by decide +kernel,
    ((failing_sink_takes_front 0xE2 begun turn sink).1 unfailed).2.2.1⟩

/-- An encoder that was closed takes no more data, though its sink does not fail. -/
theorem encode_refused_after_close :
    let served := ((new 0xE2).attemptAll [.close, .operate (.encode [0x41])]).run .accepting
    Sink.accepting.Faultless ∧ served.1.1 = [.ok (), .error (.fault .closed)] ∧
      ¬ ∀ outcome ∈ served.1.1, outcome.isOk = true := by
  intro served
  exact ⟨Sink.accepting.faultless_generous, rfl, by decide +kernel⟩

end Encoder

end RunLength

end ByteStreams
