import ByteStreams.Proofs.Pipe.PatternThreads

/-! # What a task sends, whatever part of each send is accepted

A send may queue a part of its data only, because its time limit passes after that. A task
emits certain bytes if it sends just these whatever the parts are, and closes the pipe after
the last of them. The thread that sends the pattern does: what a send leaves over of a chunk
is sent before the next chunk.
-/

namespace ByteStreams

namespace Pipe

variable {σ ρ : Type}

/-! ## Tasks -/

/-- Whatever part of its data each send queues, if it is some, the task sends these bytes,
closes the pipe after that, is over and is good. A send that fails ends it as a failed one. -/
inductive Emits [SendTask σ] (good : σ → Prop) (failed : Fault → σ → Prop) : σ → Bytes → Prop
  | close {task next : σ} (call : SendTask.call task = .close next)
      (isDone : SendTask.call next = .done) (holds : good next) : Emits good failed task []
  | send {task : σ} {data bytes : Bytes} {next : Except Fault Nat → σ}
      (call : SendTask.call task = .send data next) (some' : data ≠ [])
      (fails : ∀ fault, SendTask.call (next (.error fault)) = .done ∧
        failed fault (next (.error fault)))
      (later : ∀ part rest, data = part ++ rest → part ≠ [] →
        Emits good failed (next (.ok part.length)) (rest ++ bytes)) :
      Emits good failed task (data ++ bytes)

def PatternSender.IsComplete (size : Nat) (sender : PatternSender) : Prop :=
  sender.position = size ∧ sender.finish = some (.ok ())

def PatternSender.HasFailed (fault : Fault) (sender : PatternSender) : Prop :=
  sender.finish = some (.error fault)

private theorem emits_from {size chunk : Nat} (some' : chunk ≠ 0) (position : Nat)
    (within : position ≤ size) :
    Emits (PatternSender.IsComplete size) PatternSender.HasFailed
      (⟨size, chunk, position, none⟩ : PatternSender) (pattern position (size - position)) := by
  induction left : size - position using Nat.strongRecOn generalizing position with
  | ind count induction =>
      have call := PatternSender.call_of_unfinished size chunk position
      by_cases unfinished : position < size
      · rw [if_pos unfinished] at call
        have begun := @PatternSender.lt_chunkEnd ⟨size, chunk, position, none⟩ some' unfinished
        have atMost := PatternSender.chunkEnd_le ⟨size, chunk, position, none⟩
        rw [PatternSender.unsent] at call
        generalize PatternSender.chunkEnd ⟨size, chunk, position, none⟩ = chunkEnd
          at call begun atMost
        dsimp only at call begun atMost
        have split : count = (chunkEnd - position) + (size - chunkEnd) := by omega
        rw [split, pattern_add]
        refine .send call ?_ (fun fault => ⟨rfl, rfl⟩) ?_
        · rw [← List.length_pos_iff, length_pattern]
          omega
        · intro part rest cut filled
          have positive := List.length_pos_iff.mpr filled
          have lengths := congrArg List.length cut
          rw [length_pattern, List.length_append] at lengths
          have remaining := induction (size - (position + part.length)) (by omega)
            (position + part.length) (by omega) rfl
          have parts : size - (position + part.length) = rest.length + (size - chunkEnd) := by
            omega
          have next : position + part.length + rest.length =
              position + (chunkEnd - position) := by omega
          rw [parts, pattern_add, ← (pattern_eq_append cut).2, next] at remaining
          exact remaining
      · rw [if_neg unfinished] at call
        have whole : position = size := by omega
        subst whole
        rw [← left, Nat.sub_self]
        exact .close call rfl ⟨rfl, rfl⟩

theorem PatternSender.emits {chunk : Nat} (some' : chunk ≠ 0) (size : Nat) :
    Emits (IsComplete size) HasFailed (new size chunk) (pattern 0 size) :=
  emits_from some' 0 (Nat.zero_le size)

/-! ## Threads -/

section

variable {good : σ → Prop} {failed : Fault → σ → Prop} {bytes queued : Bytes}
  {answers : List (Except Fault Nat)} {closed : Bool}

/-- How a task that emits these bytes may end, once these are queued. -/
inductive EmissionEnd (good : σ → Prop) (failed : Fault → σ → Prop) (bytes queued : Bytes)
    (answers : List (Except Fault Nat)) (closed : Bool) (task : σ) : Prop
  | whole (all : queued = bytes) (wasClosed : closed = true) (holds : good task)
  | cut {fault : Fault} (among : .error fault ∈ answers) (part : queued <+: bytes)
      (holds : failed fault task)

theorem EmissionEnd.queued_prefix {task : σ}
    (ends : EmissionEnd good failed bytes queued answers closed task) : queued <+: bytes := by
  cases ends with
  | whole all wasClosed holds => exact all ▸ List.prefix_rfl
  | cut among part holds => exact part

theorem EmissionEnd.mono {task : σ}
    (ends : EmissionEnd good failed bytes queued answers closed task) {closedAfter : Bool}
    (closes : closed = true → closedAfter = true) :
    EmissionEnd good failed bytes queued answers closedAfter task := by
  cases ends with
  | whole all wasClosed holds => exact .whole all (closes wasClosed) holds
  | cut among part holds => exact .cut among part holds

variable [SendTask σ]

/-- A thread has a send before it with these bytes left, after which it emits the others. -/
structure EmitsAfter (good : σ → Prop) (failed : Fault → σ → Prop) (left : Bytes) (sent : Nat)
    (next : Except Fault Nat → σ) (bytes : Bytes) : Prop where
  some' : left ≠ []
  fails : ∀ fault, SendTask.call (next (.error fault)) = .done ∧
    failed fault (next (.error fault))
  later : ∀ part rest, left = part ++ rest → 0 < sent + part.length →
    Emits good failed (next (.ok (sent + part.length))) (rest ++ bytes)

/-- What a thread has done of the bytes that its task emits, of which these are queued. -/
inductive SenderState.HasEmitted (good : σ → Prop) (failed : Fault → σ → Prop)
    (bytes queued : Bytes) (answers : List (Except Fault Nat)) (closed : Bool) :
    SenderState σ → Prop
  | between {task : σ} {unsent : Bytes} (emits : Emits good failed task unsent)
      (split : bytes = queued ++ unsent) :
      HasEmitted good failed bytes queued answers closed (.ready task)
  | awake {left unsent : Bytes} {sent : Nat} {next : Except Fault Nat → σ}
      (emits : EmitsAfter good failed left sent next unsent)
      (split : bytes = queued ++ (left ++ unsent)) :
      HasEmitted good failed bytes queued answers closed (.awake left sent next)
  | parked {left unsent : Bytes} {sent : Nat} {next : Except Fault Nat → σ}
      (emits : EmitsAfter good failed left sent next unsent)
      (split : bytes = queued ++ (left ++ unsent)) :
      HasEmitted good failed bytes queued answers closed (.parked left sent next)
  | ended {task : σ} (isDone : SendTask.call task = .done)
      (ends : EmissionEnd good failed bytes queued answers closed task) :
      HasEmitted good failed bytes queued answers closed (.ready task)
  | finished {task : σ} (ends : EmissionEnd good failed bytes queued answers closed task) :
      HasEmitted good failed bytes queued answers closed (.finished task)

namespace SenderState.HasEmitted

variable {sender : SenderState σ}

theorem queued_prefix
    (emitted : sender.HasEmitted good failed bytes queued answers closed) :
    queued <+: bytes := by
  cases emitted with
  | between emits split | awake emits split | parked emits split => exact ⟨_, split.symm⟩
  | ended isDone ends => exact ends.queued_prefix
  | finished ends => exact ends.queued_prefix

theorem mono (emitted : sender.HasEmitted good failed bytes queued answers closed)
    {closedAfter : Bool} (closes : closed = true → closedAfter = true) :
    sender.HasEmitted good failed bytes queued answers closedAfter := by
  cases emitted with
  | between emits split => exact .between emits split
  | awake emits split => exact .awake emits split
  | parked emits split => exact .parked emits split
  | ended isDone ends => exact .ended isDone (ends.mono closes)
  | finished ends => exact .finished (ends.mono closes)

theorem wake (emitted : sender.HasEmitted good failed bytes queued answers closed) :
    sender.wake.HasEmitted good failed bytes queued answers closed := by
  cases emitted with
  | between emits split => exact .between emits split
  | awake emits split => exact .awake emits split
  | parked emits split => exact .awake emits split
  | ended isDone ends => exact .ended isDone ends
  | finished ends => exact .finished ends

theorem inSend (emitted : sender.HasEmitted good failed bytes queued answers closed)
    {left : Bytes} {sent : Nat} {next : Except Fault Nat → σ}
    (inSend : sender.InSend left sent next) :
    ∃ unsent, EmitsAfter good failed left sent next unsent ∧
      bytes = queued ++ (left ++ unsent) := by
  cases inSend with
  | begins call =>
      cases emitted with
      | between emits split =>
          cases emits with
          | close other => simp [other] at call
          | @send _ data unsent next other some' fails later =>
              rw [other] at call
              cases call
              refine ⟨unsent, ⟨some', fails, ?_⟩, split⟩
              intro part rest cut positive
              rw [Nat.zero_add] at positive ⊢
              exact later part rest cut (List.length_pos_iff.mp positive)
      | ended isDone ends => simp [isDone] at call
  | resumes =>
      cases emitted with
      | awake emits split => exact ⟨_, emits, split⟩

end SenderState.HasEmitted

theorem EmitsAfter.cut {left unsent queued : Bytes} {sent : Nat} {next : Except Fault Nat → σ}
    (emits : EmitsAfter good failed left sent next unsent) (fault : Fault)
    (answers : List (Except Fault Nat)) (closed : Bool) :
    SenderState.HasEmitted good failed (queued ++ (left ++ unsent)) (queued ++ [])
      (answers ++ [.error fault]) closed (.ready (next (.error fault))) := by
  rcases emits.fails fault with ⟨isDone, holds⟩
  have among : .error fault ∈ answers ++ [.error fault] :=
    List.mem_append_right _ (List.mem_singleton_self _)
  refine .ended isDone (.cut among ?_ holds)
  rw [List.append_nil]
  exact List.prefix_append ..

namespace Exchange

variable {exchange : Exchange σ ρ}

/-- A stretch of a send queues the next of the bytes. It answers with how many the whole send
queued, waits for room for the others, or fails and has then queued none. -/
theorem Sound.hasEmitted_runSend (sound : exchange.Sound)
    (emitted : exchange.sender.HasEmitted good failed bytes queued answers
      exchange.pipe.closed)
    {left : Bytes} {sent : Nat} {next : Except Fault Nat → σ}
    (inSend : exchange.sender.InSend left sent next) (expired : Bool) :
    (exchange.runSend left sent next expired).exchange.sender.HasEmitted good failed bytes
      (queued ++ (exchange.runSend left sent next expired).queued)
      (answers ++ (exchange.sendAnswer? (.sender expired)).toList)
      (exchange.runSend left sent next expired).exchange.pipe.closed := by
  rcases emitted.inSend inSend with ⟨unsent, emits, rfl⟩
  have outcome := sendStretch_outcome sound.pipe left sent exchange.sendLimit expired
  rw [sendAnswer?_eq inSend]
  unfold Exchange.runSend
  generalize exchange.pipe.sendStretch left sent exchange.sendLimit expired = stretch at outcome
  cases outcome with
  | whole gains =>
      have positive := List.length_pos_iff.mpr emits.some'
      have rest := emits.later left [] (List.append_nil _).symm (by omega)
      exact .between rest (List.append_assoc ..).symm
  | refused _ isClosed => exact emits.cut .closed answers _
  | @stuck part rest after split more opened gains full =>
      subst split
      have whole : queued ++ ((part ++ rest) ++ unsent) = (queued ++ part) ++ (rest ++ unsent) := by
        simp
      have goesOn : EmitsAfter good failed rest (sent + part.length) next unsent := by
        refine ⟨more, emits.fails, ?_⟩
        intro more' others cut positive
        have later := emits.later (part ++ more') others
          (by rw [cut, List.append_assoc]) (by rw [List.length_append]; omega)
        rwa [List.length_append, ← Nat.add_assoc] at later
      unfold awaitRoom
      cases expired with
      | false => exact .parked goesOn whole
      | true =>
          by_cases some' : 0 < sent + part.length
          · have rest' := emits.later part rest rfl some'
            simp only [if_pos some']
            exact .between rest' whole
          · have nothing : part = [] := List.eq_nil_of_length_eq_zero (by omega)
            subst nothing
            simp only [if_neg some']
            exact emits.cut _ answers _

variable [ReceiveTask ρ] {event : Event} {stepped : Stepped σ ρ}

theorem Steps.hasEmitted (steps : exchange.Steps event stepped) (sound : exchange.Sound)
    (emitted : exchange.sender.HasEmitted good failed bytes queued answers
      exchange.pipe.closed) :
    stepped.exchange.sender.HasEmitted good failed bytes (queued ++ stepped.queued)
      (answers ++ (exchange.sendAnswer? event).toList) stepped.exchange.pipe.closed := by
  have closes := (steps.keeps sound).staysClosed
  cases event with
  | sender expired =>
      cases steps with
      | send inTime inSend => exact sound.hasEmitted_runSend emitted inSend expired
      | senderOver inTime ready call =>
          rw [sendAnswer?_of_done ready call]
          simp only [Stepped.still, List.append_nil, Option.toList_none]
          rw [ready] at emitted
          cases emitted with
          | between emits split =>
              cases emits with
              | close other => simp [other] at call
              | send other => simp [other] at call
          | ended isDone ends => exact .finished (ends.mono closes)
      | senderCloses inTime ready call =>
          rw [sendAnswer?_of_close ready call]
          simp only [Stepped.still, List.append_nil, Option.toList_none]
          rw [ready] at emitted
          cases emitted with
          | between emits split =>
              cases emits with
              | send other => simp [other] at call
              | close other isDone holds =>
                  rw [other] at call
                  cases call
                  rw [List.append_nil] at split
                  exact .ended isDone (.whole split.symm (closed_close exchange) holds)
          | ended isDone ends => simp [isDone] at call
  | _ =>
      rcases steps.sender_unmoved (by simp) with ⟨noneQueued, unanswered, same⟩
      rw [noneQueued, unanswered, List.append_nil, Option.toList_none, List.append_nil]
      rcases same with same | same
      · rw [same]
        exact emitted.mono closes
      · rw [same]
        exact (emitted.mono closes).wake

theorem Sound.hasEmitted_follow (sound : exchange.Sound)
    (emitted : exchange.sender.HasEmitted good failed bytes queued answers
      exchange.pipe.closed)
    (events : List Event) {last : Stepped σ ρ} (followed : exchange.follow? events = some last) :
    last.exchange.sender.HasEmitted good failed bytes (queued ++ last.queued)
      (answers ++ exchange.sendAnswers events) last.exchange.pipe.closed := by
  induction events generalizing exchange queued answers last with
  | nil =>
      cases followed
      simpa [Stepped.still, sendAnswers] using emitted
  | cons event events induction =>
      rcases follow?_cons_eq_some_iff.mp followed with ⟨first, rest, steps, later, rfl⟩
      have all := induction (steps.keeps sound).sound (steps.hasEmitted sound emitted) later
      rw [sendAnswers_cons steps, ← List.append_assoc answers, ← List.append_assoc queued]
      exact all

end Exchange

end

/-! ## The pattern -/

namespace Exchange

/-- What a schedule leads to if the sender emits the pattern: only bytes of it are queued, and
it has finished with all of them in a closed pipe, or with the fault of a send. -/
structure Stepped.EmitsPattern [ReceiveTask ρ] (size : Nat) (answers : List (Except Fault Nat))
    (last : Stepped PatternSender ρ) : Prop where
  within : last.queued <+: pattern 0 size
  ended : ∀ sender, last.exchange.sender.finished? = some sender →
    sender.finish = some (.ok ()) ∧ last.queued = pattern 0 size ∧
        last.exchange.pipe.closed = true ∨
      ∃ fault, sender.finish = some (.error fault) ∧ .error fault ∈ answers

theorem emitsPattern_of_follow [ReceiveTask ρ] {capacity : Option Nat}
    (usable : capacity ≠ some 0) {chunk : Nat} (some' : chunk ≠ 0)
    {sendLimit receiveLimit : Option Span} {size : Nat} {receiver : ρ} {events : List Event}
    {last : Stepped PatternSender ρ}
    (followed : (start (empty capacity) sendLimit receiveLimit (PatternSender.new size chunk)
      receiver).follow? events = some last) :
    last.EmitsPattern size ((start (empty capacity) sendLimit receiveLimit
      (PatternSender.new size chunk) receiver).sendAnswers events) := by
  have sound := sound_start (sound_empty usable) sendLimit receiveLimit
    (PatternSender.new size chunk) receiver
  have begun : SenderState.HasEmitted (PatternSender.IsComplete size) PatternSender.HasFailed
      (pattern 0 size) [] [] false (.ready (PatternSender.new size chunk)) :=
    .between (PatternSender.emits some' size) rfl
  have emitted := sound.hasEmitted_follow begun events followed
  rw [List.nil_append, List.nil_append] at emitted
  refine ⟨emitted.queued_prefix, ?_⟩
  intro sender isOver
  generalize last.exchange.sender = state at emitted isOver
  cases emitted with
  | finished ends =>
      cases isOver
      cases ends with
      | whole all wasClosed holds => exact .inl ⟨holds.2, all, wasClosed⟩
      | cut among part holds => exact .inr ⟨_, holds, among⟩
  | _ => cases isOver

end Exchange

end Pipe

end ByteStreams
