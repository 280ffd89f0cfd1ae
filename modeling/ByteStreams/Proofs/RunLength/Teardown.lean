import ByteStreams.Proofs.Channel.Offering
import ByteStreams.Proofs.RunLength.EncoderInvariant

/-! # The last run is offered once

There are five ways to be done with an encoder, and each of them may fail, be tried again or
come after another. The run that is held back leaves the encoder with the first of them,
whether or not the sink takes its frame, so none that comes after has anything to write.
-/

namespace ByteStreams

namespace RunLength

open Channel (Sink Writing)

namespace Encoder

/-! ## Encoders with nothing to write -/

structure Spent (encoder : Encoder) : Prop where
  idle : encoder.pending = .idle
  unstaged : encoder.staged = #[]

def Request.tearsDown : Request → Bool
  | .operate .flushRun | .operate .flush | .close => true
  | .operate (.encode _) | .operate (.write _) => false

/-- An encoder without a sink refuses data, even if there is none of it, and refuses what only
a sink can do. Everything else leaves it as it is, and nothing calls the sink. -/
structure Inert (encoder : Encoder) : Prop where
  encode : ∀ data, encoder.encode data = .done (.error (.fault .closed), encoder)
  write : ∀ data, encoder.respond (.operate (.write data)) =
    .done (.error (Failure.fault .closed).toChannel, encoder)
  flush : encoder.flush = .done (.error (.fault .closed), encoder)
  finish : encoder.finish = .done (.error (.fault .closed))
  flushRun : encoder.flushRun = .done (.ok (), encoder)
  close : encoder.close = .done (.ok (), encoder)
  drop : encoder.drop = .done ()
  /-- So it is for any requests in a row, data among them. -/
  uncalled : ∀ requests ending (sink : Sink),
    ((encoder.live requests ending).run sink).2 = sink

namespace Spent

variable {encoder : Encoder}

theorem flushRun_eq (spent : encoder.Spent) : encoder.flushRun = .done (.ok (), encoder) :=
  flushRun_of_nothing spent.idle spent.unstaged

theorem flush (spent : encoder.Spent) :
    encoder.flush.Withholds fun (_, after) => after.Spent := by
  rw [Encoder.flush, spent.flushRun_eq, Writing.bind]
  simp only
  split
  · exact fun answer => spent
  · exact spent

theorem close (spent : encoder.Spent) :
    encoder.close.Withholds fun (_, after) => after.Spent := by
  rw [Encoder.close, spent.flushRun_eq, Writing.bind]
  split
  · exact fun answer => ⟨spent.idle, spent.unstaged⟩
  · exact spent

theorem drop (spent : encoder.Spent) : encoder.drop.Withholds fun _ => True := by
  rw [Encoder.drop, spent.flushRun_eq, Writing.bind]
  split
  · trivial
  · trivial

theorem finish (spent : encoder.Spent) : encoder.finish.Withholds fun _ => True := by
  rw [Encoder.finish, spent.flushRun_eq, Writing.bind]
  simp only
  split
  · intro answer
    cases answer with
    | ok => trivial
    | error failure => trivial
  · trivial

theorem attempt (spent : encoder.Spent) {request : Request} (tears : request.tearsDown = true) :
    (encoder.attempt request).Withholds fun (_, after) => after.Spent := by
  rcases request with (data | data | _ | _) | _
  · cases tears
  · cases tears
  · rw [Encoder.attempt, spent.flushRun_eq]
    exact spent
  · exact spent.flush
  · exact spent.close

theorem respond (spent : encoder.Spent) {request : Request} (tears : request.tearsDown = true) :
    (encoder.respond request).Withholds fun (_, after) => after.Spent := by
  rw [respond_eq]
  exact (spent.attempt tears).map fun _ afterSpent => afterSpent

theorem respondAll (requests : List Request) (spent : encoder.Spent)
    (tears : ∀ request ∈ requests, request.tearsDown = true) :
    (encoder.respondAll requests).Withholds fun (_, after) => after.Spent := by
  induction requests generalizing encoder with
  | nil => exact spent
  | cons request requests induction =>
      rcases List.forall_mem_cons.mp tears with ⟨first, others⟩
      apply (spent.respond first).bind
      exact fun _ afterSpent => (induction afterSpent others).map fun _ lastSpent => lastSpent

theorem endBy (spent : encoder.Spent) (ending : Ending) :
    (encoder.endBy ending).Withholds fun _ => True := by
  cases ending with
  | keep => trivial
  | finish => exact spent.finish.map fun _ _ => trivial
  | drop => exact spent.drop.map fun _ _ => trivial

theorem live (spent : encoder.Spent) {requests : List Request}
    (tears : ∀ request ∈ requests, request.tearsDown = true) (ending : Ending) :
    (encoder.live requests ending).Withholds fun _ => True := by
  apply (spent.respondAll requests tears).bind
  exact fun _ afterSpent => (afterSpent.endBy ending).map fun _ _ => trivial

theorem inert (spent : encoder.Spent) (closed : encoder.isOpen = false) : encoder.Inert := by
  have answered := attempt_closed closed spent.idle spent.unstaged
  have responded (request : Request) : encoder.respond request =
      .done ((answer (request.due false)).map fun _ => request.count?, encoder) := by
    rw [respond_eq, answered]
    rfl
  have finished : encoder.finish = .done (.error (.fault .closed)) := by
    simp [Encoder.finish, spent.flushRun_eq, Writing.bind, closed]
  have dropped : encoder.drop = .done () := by simp [Encoder.drop, closed]
  refine ⟨fun data => answered (.operate (.encode data)),
    fun data => responded (.operate (.write data)), answered (.operate .flush), finished,
    spent.flushRun_eq, answered .close, dropped, ?_⟩
  intro requests ending sink
  have quiet : ∃ outcomes, encoder.respondAll requests = .done (outcomes, encoder) := by
    induction requests with
    | nil => exact ⟨[], rfl⟩
    | cons request requests induction =>
        rcases induction with ⟨outcomes, others⟩
        simp only [Encoder.respondAll, responded, Writing.bind, others]
        exact ⟨_, rfl⟩
  rcases quiet with ⟨outcomes, all⟩
  rw [Encoder.live, all]
  cases ending with
  | keep => rfl
  | finish => simp [Writing.bind, Encoder.endBy, finished, Writing.map, Writing.run]
  | drop => simp [Writing.bind, Encoder.endBy, dropped, Writing.map, Writing.run]

end Spent

/-! ## Encoders that hold a run back -/

namespace Orderly

variable {encoder : Encoder}

theorem spent_of_closed (orderly : encoder.Orderly) (closed : encoder.isOpen = false) :
    encoder.Spent :=
  ⟨orderly.idle closed, orderly.unstaged⟩

theorem flushRun_eq (orderly : encoder.Orderly) (opened : encoder.isOpen = true) :
    let frame := RunLength.encode encoder.signal encoder.pending.data
    encoder.flushRun =
      if frame = [] then .done (.ok (), encoder.withPending .idle)
      else .writeAll frame fun answer =>
        .done (answer.mapError .channel, encoder.withPending .idle) := by
  intro frame
  rw [Encoder.flushRun, stagePending_eq encoder orderly.fits]
  rcases encoder with ⟨signal, pending, staged, isOpen⟩
  cases opened
  cases orderly.unstaged
  by_cases nothing : frame = []
  · simp [passStaged, advanced, frame, nothing, withPending]
  · simp [passStaged, advanced, frame, nothing, withPending]

theorem spent_withPending (orderly : encoder.Orderly) : (encoder.withPending .idle).Spent :=
  ⟨rfl, orderly.unstaged⟩

theorem flushRun_once (orderly : encoder.Orderly) :
    encoder.flushRun.OffersOnce (RunLength.encode encoder.signal encoder.pending.data)
      fun (_, after) => after.Spent := by
  cases opened : encoder.isOpen with
  | false =>
      have spent := orderly.spent_of_closed opened
      rw [spent.flushRun_eq, spent.idle]
      exact .nothing (encode_nil _) spent
  | true =>
      rw [orderly.flushRun_eq opened]
      split
      · rename_i nothing
        exact .nothing nothing orderly.spent_withPending
      · exact .write fun answer => orderly.spent_withPending

theorem flush_once (orderly : encoder.Orderly) :
    encoder.flush.OffersOnce (RunLength.encode encoder.signal encoder.pending.data)
      fun (_, after) => after.Spent := by
  apply orderly.flushRun_once.bind
  rintro ⟨_ | _, after⟩ spent
  · exact spent
  · simp only
    split
    · exact fun answer => spent
    · exact spent

theorem close_once (orderly : encoder.Orderly) :
    encoder.close.OffersOnce (RunLength.encode encoder.signal encoder.pending.data)
      fun (_, after) => after.Spent := by
  rw [Encoder.close]
  split
  · apply orderly.flushRun_once.bind
    rintro ⟨_ | _, after⟩ spent
    · exact spent
    · exact fun answer => ⟨spent.idle, spent.unstaged⟩
  · rename_i closed
    have spent := orderly.spent_of_closed (eq_false_of_ne_true closed)
    rw [spent.idle]
    exact .nothing (encode_nil _) spent

theorem drop_once (orderly : encoder.Orderly) :
    encoder.drop.OffersOnce (RunLength.encode encoder.signal encoder.pending.data)
      fun _ => True := by
  rw [Encoder.drop]
  split
  · exact orderly.flushRun_once.bind fun _ _ => trivial
  · rename_i closed
    rw [orderly.idle (eq_false_of_ne_true closed)]
    exact .nothing (encode_nil _) trivial

theorem finish_once (orderly : encoder.Orderly) :
    encoder.finish.OffersOnce (RunLength.encode encoder.signal encoder.pending.data)
      fun _ => True := by
  apply orderly.flushRun_once.bind
  rintro ⟨_ | _, after⟩ spent
  · exact spent.drop.map fun _ _ => trivial
  · simp only
    split
    · intro answer
      cases answer with
      | ok => trivial
      | error failure => trivial
    · trivial

theorem respond_once (orderly : encoder.Orderly) {request : Request}
    (tears : request.tearsDown = true) :
    (encoder.respond request).OffersOnce (RunLength.encode encoder.signal encoder.pending.data)
      fun (_, after) => after.Spent := by
  rw [respond_eq]
  rcases request with (data | data | _ | _) | _
  · cases tears
  · cases tears
  · exact orderly.flushRun_once.map fun _ spent => spent
  · exact orderly.flush_once.map fun _ spent => spent
  · exact orderly.close_once.map fun _ spent => spent

theorem respondAll_once (orderly : encoder.Orderly) {request : Request} {requests : List Request}
    (tears : ∀ other ∈ request :: requests, other.tearsDown = true) :
    (encoder.respondAll (request :: requests)).OffersOnce
      (RunLength.encode encoder.signal encoder.pending.data) fun (_, after) => after.Spent := by
  rcases List.forall_mem_cons.mp tears with ⟨first, others⟩
  apply (orderly.respond_once first).bind
  exact fun _ spent => (spent.respondAll requests others).map fun _ lastSpent => lastSpent

theorem endBy_once (orderly : encoder.Orderly) {ending : Ending} (ends : ending ≠ .keep) :
    (encoder.endBy ending).OffersOnce (RunLength.encode encoder.signal encoder.pending.data)
      fun _ => True := by
  cases ending with
  | keep => exact absurd rfl ends
  | finish => exact orderly.finish_once.map fun _ _ => trivial
  | drop => exact orderly.drop_once.map fun _ _ => trivial

theorem live_once (orderly : encoder.Orderly) {requests : List Request} {ending : Ending}
    (tears : ∀ request ∈ requests, request.tearsDown = true)
    (some' : requests ≠ [] ∨ ending ≠ .keep) :
    (encoder.live requests ending).OffersOnce
      (RunLength.encode encoder.signal encoder.pending.data) fun _ => True := by
  cases requests with
  | nil =>
      have ends : ending ≠ .keep := some'.resolve_left fun absent => absent rfl
      exact (orderly.endBy_once ends).map fun _ _ => trivial
  | cons request requests =>
      apply (orderly.respondAll_once tears).bind
      exact fun _ spent => (spent.endBy ending).map fun _ _ => trivial

theorem flushRun_run (orderly : encoder.Orderly) (opened : encoder.isOpen = true) (sink : Sink) :
    let written := sink.writeAll (RunLength.encode encoder.signal encoder.pending.data)
    encoder.flushRun.run sink =
      ((written.1.mapError .channel, encoder.withPending .idle), written.2) := by
  intro written
  rw [orderly.flushRun_eq opened]
  split
  · rename_i nothing
    simp only [written, nothing, sink.writeAll_nil]
    rfl
  · rfl

end Orderly

/-! ## Teardown -/

/-- What closing an open encoder comes to when the sink is offered its frame. -/
inductive Closes (encoder : Encoder) (sink : Sink) (frame : Bytes) : Prop
  /-- The sink did not take the frame. The encoder keeps the sink, but not the run. -/
  | stays {failure : Channel.Failure} (refused : (sink.writeAll frame).1 = .error failure)
      (closing : encoder.close.run sink =
        ((.error (.channel failure), encoder.withPending .idle), (sink.writeAll frame).2))
  /-- The sink is gone for good, even if it could not be flushed. -/
  | gives {after : Encoder} (taken : (sink.writeAll frame).1 = .ok ())
      (closing : encoder.close.run sink =
        (((sink.writeAll frame).2.settle.1.mapError .channel, after),
          (sink.writeAll frame).2.settle.2.release))
      (closed : after.isOpen = false) (inert : after.Inert)

theorem Orderly.closes {encoder : Encoder} (orderly : encoder.Orderly)
    (opened : encoder.isOpen = true) (sink : Sink) :
    encoder.Closes sink (RunLength.encode encoder.signal encoder.pending.data) := by
  have passed := orderly.flushRun_run opened sink
  cases written : (sink.writeAll (RunLength.encode encoder.signal encoder.pending.data)).1 with
  | error failure =>
      refine .stays written ?_
      rw [Encoder.close, if_pos opened, Writing.run_bind, passed, written]
      rfl
  | ok =>
      let after : Encoder := { encoder.withPending .idle with isOpen := false }
      have closed : after.isOpen = false := rfl
      have spent : after.Spent := ⟨rfl, orderly.unstaged⟩
      refine .gives written ?_ closed (spent.inert closed)
      rw [Encoder.close, if_pos opened, Writing.run_bind, passed, written]
      rfl

/-- What becomes of the run that an encoder holds back when no more data comes, and `frame` is
the code of that run. -/
structure TearsDown (encoder : Encoder) (sink : Sink) (frame : Bytes) : Prop where
  due : encoder.pendingCode = .ok frame
  /-- The first request, or the end, offers the frame in one write. Whether or not that write
  succeeds, nothing else is ever offered. -/
  once : ∀ requests ending, (∀ request ∈ requests, request.tearsDown = true) →
    (requests ≠ [] ∨ ending ≠ .keep) →
    (sink.writeAll frame).2.Unoffered ((encoder.live requests ending).run sink).2
  /-- A sink that does not fail takes the same, whatever comes first. -/
  alike : sink.Faultless → ∀ requests ending,
    (∀ request ∈ requests, request.tearsDown = true) → (requests ≠ [] ∨ ending ≠ .keep) →
    ((encoder.live requests ending).run sink).2.accepted = sink.accepted ++ frame
  closes : encoder.isOpen = true → encoder.Closes sink frame
  inert : encoder.isOpen = false → encoder.Inert

theorem Orderly.tearsDown {encoder : Encoder} (orderly : encoder.Orderly) (sink : Sink) :
    encoder.TearsDown sink (RunLength.encode encoder.signal encoder.pending.data) := by
  have once : ∀ requests ending, (∀ request ∈ requests, request.tearsDown = true) →
      (requests ≠ [] ∨ ending ≠ .keep) →
      (sink.writeAll (RunLength.encode encoder.signal encoder.pending.data)).2.Unoffered
        ((encoder.live requests ending).run sink).2 :=
    fun requests ending tears some' => ((orderly.live_once tears some').run sink).2
  refine ⟨pendingCode_eq encoder orderly.fits, once, ?_, fun opened => orderly.closes opened sink,
    fun closed => (orderly.spent_of_closed closed).inert closed⟩
  intro faultless requests ending tears some'
  rcases faultless.writeAll (RunLength.encode encoder.signal encoder.pending.data) with
    ⟨after, written, -, accepted⟩
  rw [(once requests ending tears some').accepted_eq, written, accepted]

/-- Whatever was asked of an encoder, and however its sink failed: when no more data comes, the
frame of the run that is held back is offered once, by the first request or by the end. An
encoder that has given its sink up, or does so now, does nothing more. -/
theorem teardown_offers_once (signal : UInt8) (begun : List Request) (sink : Sink) :
    let served := ((new signal).attemptAll begun).run sink
    ∃ frame, served.1.2.TearsDown served.2 frame := by
  intro served
  rcases ((new signal).attemptAll begun).run_goes sink with ⟨calls, events, goes, -, -⟩
  exact ⟨_, ((orderly_new signal).attemptAll begun goes).1.tearsDown served.2⟩

/-- The sink refuses the frame when the encoder is flushed. Closing the encoder does not offer
it again, and the sink is given up though it cannot be flushed. -/
theorem teardown_offers_once_refused :
    let begun : List Request := [.operate (.write [0x41, 0x41, 0x41])]
    let sink : Sink := ⟨[.refuse (.bare .timedOut)], [some (.bare .brokenPipe)], []⟩
    let served := ((new 0xE2).attemptAll begun).run sink
    let requests : List Request := [.operate .flush, .close, .operate .flushRun]
    let last := (served.1.2.live requests .finish).run served.2
    served.1.2.pendingCode = .ok [0xE2, 0x03, 0x41] ∧
      last.2.history = [.refused 3 (.bare .timedOut), .flushRefused (.bare .brokenPipe),
        .released] ∧
      (served.2.writeAll [0xE2, 0x03, 0x41]).2.Unoffered last.2 := by
  intro begun sink served requests last
  rcases teardown_offers_once 0xE2 begun sink with ⟨frame, tearsDown⟩
  have due : served.1.2.pendingCode = .ok [0xE2, 0x03, 0x41] := by decide +kernel
  have same : frame = [0xE2, 0x03, 0x41] := Except.ok.inj (tearsDown.due.symm.trans due)
  have once := tearsDown.once requests .finish (by decide) (.inl (by decide))
  exact ⟨due, by decide +kernel, same ▸ once⟩

end Encoder

end RunLength

end ByteStreams
