import ByteStreams.Pipe.Ends
import ByteStreams.Proofs.Pipe.Closing

/-! # What the answer of a send tells

A count says exactly how many bytes of the data the call has queued, and it falls short only
if the time limit passed while the pipe was open and full. A timeout says that none were
queued; a closed pipe, that not all were. So whoever sends the bytes after those counted
loses none and sends none twice, and a send of bytes never makes no progress without saying
why.
-/

namespace ByteStreams

namespace Pipe

variable {σ ρ α : Type}

/-! ## Three ways to end -/

/-- How a send of `data` may answer that has queued these bytes of it and leaves the pipe so. -/
inductive SendVerdict (limit : Option Span) (data queued : Bytes) (expired : Bool)
    (pipe : Pipe) : Except Fault Nat → Prop
  | whole (all : queued = data) : SendVerdict limit data queued expired pipe (.ok data.length)
  | part {rest : Bytes} (split : data = queued ++ rest) (some' : queued ≠ [])
      (late : expired = true) (opened : pipe.closed = false) (full : pipe.Full) :
      SendVerdict limit data queued expired pipe (.ok queued.length)
  | timedOut {span : Span} (allowed : limit = some span) (nothing : queued = [])
      (some' : data ≠ []) (late : expired = true) (opened : pipe.closed = false)
      (full : pipe.Full) : SendVerdict limit data queued expired pipe (.error (.timeout span))
  | closed {rest : Bytes} (split : data = queued ++ rest) (more : rest ≠ [])
      (closed : pipe.closed = true) :
      SendVerdict limit data queued expired pipe (.error .closed)

/-- What the answer of a send of `data` tells if the call has queued these bytes and leaves the
pipe so. -/
structure SendTells (limit : Option Span) (data queued : Bytes) (expired : Bool) (pipe : Pipe)
    (answer : Except Fault Nat) : Prop where
  counts : ∀ count, answer = .ok count → count ≤ data.length ∧ queued = data.take count
  falls : ∀ count, answer = .ok count → count < data.length →
    expired = true ∧ pipe.closed = false ∧ pipe.Full
  timesOut : ∀ span, answer = .error (.timeout span) → limit = some span ∧ queued = [] ∧
    expired = true ∧ pipe.closed = false ∧ pipe.Full
  refuses : answer = .error .closed →
    pipe.closed = true ∧ ∃ rest, data = queued ++ rest ∧ rest ≠ []
  faults : ∀ fault, answer = .error fault → fault = .closed ∨ ∃ span, fault = .timeout span
  progress : data ≠ [] → answer ≠ .ok 0
  unbounded : pipe.capacity = none → answer = .ok data.length ∨ answer = .error .closed

theorem SendVerdict.tells {limit : Option Span} {data queued : Bytes} {expired : Bool}
    {pipe : Pipe} {answer : Except Fault Nat}
    (verdict : SendVerdict limit data queued expired pipe answer) :
    SendTells limit data queued expired pipe answer := by
  have never : pipe.capacity = none → ¬pipe.Full := by
    intro unbounded full
    cases unbounded.symm.trans full
  cases verdict with
  | whole all =>
      refine ⟨?_, ?_, nofun, nofun, nofun, ?_, fun _ => .inl rfl⟩
      · rintro count ⟨⟩
        exact ⟨Nat.le_refl _, by rw [all, List.take_length]⟩
      · rintro count ⟨⟩ short
        exact absurd short (Nat.lt_irrefl _)
      · intro some' nothing
        exact some' (List.eq_nil_of_length_eq_zero (Except.ok.inj nothing))
  | part split some' late opened full =>
      refine ⟨?_, ?_, nofun, nofun, nofun, ?_, fun unbounded => absurd full (never unbounded)⟩
      · rintro count ⟨⟩
        rw [split, List.take_left' rfl, List.length_append]
        exact ⟨Nat.le_add_right .., rfl⟩
      · rintro count ⟨⟩ short
        exact ⟨late, opened, full⟩
      · intro _ nothing
        exact some' (List.eq_nil_of_length_eq_zero (Except.ok.inj nothing))
  | timedOut allowed nothing some' late opened full =>
      refine ⟨nofun, nofun, ?_, nofun, ?_, nofun, fun unbounded => absurd full (never unbounded)⟩
      · rintro span ⟨⟩
        exact ⟨allowed, nothing, late, opened, full⟩
      · rintro fault ⟨⟩
        exact .inr ⟨_, rfl⟩
  | closed split more closed =>
      refine ⟨nofun, nofun, nofun, fun _ => ⟨closed, _, split, more⟩, ?_, nofun,
        fun _ => .inr rfl⟩
      rintro fault ⟨⟩
      exact .inl rfl

theorem SendOutcome.verdict {pipe : Pipe} {data queued left : Bytes} {limit : Option Span}
    {expired : Bool} {stretch : SendStretch} {answer : Except Fault Nat}
    (outcome : SendOutcome pipe left queued.length limit expired stretch)
    (split : data = queued ++ left) (inTime : expired = true → mayExpire limit = true)
    (answers : stretch.finish.answer? = some answer) :
    SendVerdict limit data (queued ++ stretch.pushed) expired stretch.pipe answer := by
  subst split
  cases outcome with
  | whole gains =>
      cases answers
      rw [← List.length_append]
      exact .whole rfl
  | refused some' closed =>
      cases answers
      exact .closed (by rw [List.append_nil]) some' closed
  | @stuck part rest after split more opened gains full =>
      subst split
      have stillOpen : after.closed = false := gains.closed_eq.trans opened
      cases expired with
      | false => cases answers
      | true =>
          rw [awaitRoom, if_pos rfl, ← List.length_append] at answers
          by_cases nothing : queued ++ part = []
          · rw [nothing, List.length_nil, if_neg (Nat.lt_irrefl _)] at answers
            cases answers
            cases limit with
            | none => cases inTime rfl
            | some span =>
                refine .timedOut rfl nothing ?_ rfl stillOpen full
                rw [← List.append_assoc, nothing, List.nil_append]
                exact more
          · rw [if_pos (List.length_pos_iff.mpr nothing)] at answers
            cases answers
            exact .part (List.append_assoc ..).symm nothing rfl stillOpen full

/-! ## A send under way -/

/-- The sender is in this send, or is about to begin it, and has queued these bytes of its
data. -/
def SenderState.Sends [SendTask σ] (data : Bytes) (next : Except Fault Nat → σ)
    (queued : Bytes) : SenderState σ → Prop
  | .ready task => SendTask.call task = .send data next ∧ queued = []
  | .awake left count others | .parked left count others =>
      others = next ∧ data = queued ++ left ∧ count = queued.length
  | .finished _ => False

section Sends

variable [SendTask σ] {sender : SenderState σ} {data queued : Bytes}
  {next : Except Fault Nat → σ}

theorem SenderState.Sends.wake (sends : sender.Sends data next queued) :
    sender.wake.Sends data next queued := by
  cases sender <;> exact sends

theorem SenderState.Sends.of_inSend (sends : sender.Sends data next queued) {left : Bytes}
    {count : Nat} {others : Except Fault Nat → σ} (inSend : sender.InSend left count others) :
    others = next ∧ data = queued ++ left ∧ count = queued.length := by
  cases inSend with
  | begins call =>
      rcases sends with ⟨same, rfl⟩
      cases call.symm.trans same
      exact ⟨rfl, rfl, rfl⟩
  | resumes => exact sends

end Sends

namespace Exchange

variable [SendTask σ]

theorem Sound.runSend_waits {exchange : Exchange σ ρ} (sound : exchange.Sound)
    {left queued : Bytes} {next : Except Fault Nat → σ} {expired : Bool}
    (inSend : exchange.sender.InSend left queued.length next)
    (unanswered : exchange.sendAnswer? (.sender expired) = none) :
    let stepped := exchange.runSend left queued.length next expired
    stepped.exchange.sender.Sends (queued ++ left) next (queued ++ stepped.queued) ∧
      expired = false ∧ stepped.exchange.sender.isParked = true ∧
      stepped.exchange.pipe.closed = false ∧ stepped.exchange.pipe.Full := by
  have outcome := sendStretch_outcome sound.pipe left queued.length exchange.sendLimit expired
  rw [sendAnswer?_eq inSend] at unanswered
  rw [Exchange.runSend]
  generalize exchange.pipe.sendStretch left queued.length exchange.sendLimit expired = stretch
    at outcome unanswered
  cases outcome with
  | whole gains => cases unanswered
  | refused some' closed => cases unanswered
  | @stuck part rest after split more opened gains full =>
      cases expired with
      | true =>
          rw [awaitRoom, if_pos rfl] at unanswered
          split at unanswered <;> cases unanswered
      | false =>
          have goesOn : SenderState.Sends (queued ++ left) next (queued ++ part)
              (.parked rest (queued.length + part.length) next) :=
            ⟨rfl, by rw [split, List.append_assoc], (List.length_append ..).symm⟩
          exact ⟨goesOn, rfl, rfl, gains.closed_eq.trans opened, full⟩

variable [ReceiveTask ρ]

/-- What an exchange may become, whatever the threads do and whatever time limits are set. -/
inductive Later (first : Exchange σ ρ) : Exchange σ ρ → Prop
  | refl : Later first first
  | step {exchange : Exchange σ ρ} {event : Event} {stepped : Stepped σ ρ}
      (later : Later first exchange) (happens : exchange.step? event = some stepped) :
      Later first stepped.exchange
  | limits {exchange : Exchange σ ρ} (later : Later first exchange)
      (sendLimit receiveLimit : Option Span) :
      Later first { exchange with sendLimit := sendLimit, receiveLimit := receiveLimit }

/-- From `first` on, where the sender begins a send, the threads have come to an exchange in
which that send has queued these bytes and has not answered. The receiver may have changed its
time limit. -/
inductive Underway (first : Exchange σ ρ) (data : Bytes) (next : Except Fault Nat → σ) :
    Exchange σ ρ → Bytes → Prop
  | begins {task : σ} (ready : first.sender = .ready task)
      (call : SendTask.call task = .send data next) : Underway first data next first []
  | step {exchange : Exchange σ ρ} {queued : Bytes} {event : Event} {stepped : Stepped σ ρ}
      (underway : Underway first data next exchange queued)
      (happens : exchange.step? event = some stepped)
      (unanswered : exchange.sendAnswer? event = none) :
      Underway first data next stepped.exchange (queued ++ stepped.queued)
  | receiveLimit {exchange : Exchange σ ρ} {queued : Bytes}
      (underway : Underway first data next exchange queued) (limit : Option Span) :
      Underway first data next { exchange with receiveLimit := limit } queued

theorem Later.keeps_sound {first exchange : Exchange σ ρ} (later : first.Later exchange)
    (sound : first.Sound) : exchange.Sound := by
  induction later with
  | refl => exact sound
  | step later happens induction => exact ((step?_eq_some_iff.mp happens).keeps induction).sound
  | limits later sendLimit receiveLimit induction =>
      exact ⟨induction.pipe, induction.sender, induction.receiver⟩

theorem Steps.of_sends {exchange : Exchange σ ρ} {expired : Bool} {stepped : Stepped σ ρ}
    {data queued : Bytes} {next : Except Fault Nat → σ}
    (steps : exchange.Steps (.sender expired) stepped)
    (sends : exchange.sender.Sends data next queued) :
    ∃ left, data = queued ++ left ∧ exchange.sender.InSend left queued.length next ∧
      stepped = exchange.runSend left queued.length next expired := by
  cases steps with
  | send inTime inSend =>
      rcases sends.of_inSend inSend with ⟨rfl, split, rfl⟩
      exact ⟨_, split, inSend, rfl⟩
  | senderOver inTime ready call =>
      rw [ready] at sends
      cases call.symm.trans sends.1
  | senderCloses inTime ready call =>
      rw [ready] at sends
      cases call.symm.trans sends.1

theorem Steps.sends {exchange : Exchange σ ρ} {event : Event} {stepped : Stepped σ ρ}
    {data queued : Bytes} {next : Except Fault Nat → σ}
    (steps : exchange.Steps event stepped) (sound : exchange.Sound)
    (sends : exchange.sender.Sends data next queued)
    (unanswered : exchange.sendAnswer? event = none) :
    stepped.exchange.sender.Sends data next (queued ++ stepped.queued) := by
  cases event with
  | sender expired =>
      rcases steps.of_sends sends with ⟨left, rfl, inSend, rfl⟩
      exact (sound.runSend_waits inSend unanswered).1
  | _ =>
      rcases steps.sender_unmoved (by simp) with ⟨nothing, -, same | woken⟩
      · rwa [same, nothing, List.append_nil]
      · rw [woken, nothing, List.append_nil]
        exact sends.wake

theorem Underway.sends {first exchange : Exchange σ ρ} {data queued : Bytes}
    {next : Except Fault Nat → σ} (underway : first.Underway data next exchange queued)
    (sound : first.Sound) :
    exchange.Sound ∧ exchange.sendLimit = first.sendLimit ∧
      exchange.sender.Sends data next queued := by
  induction underway with
  | begins ready call => exact ⟨sound, rfl, ready ▸ ⟨call, rfl⟩⟩
  | step underway happens unanswered induction =>
      rcases induction with ⟨sound, limit, sends⟩
      have steps := step?_eq_some_iff.mp happens
      exact ⟨(steps.keeps sound).sound, steps.limits_eq.1.trans limit,
        steps.sends sound sends unanswered⟩
  | receiveLimit underway limit induction =>
      rcases induction with ⟨sound, same, sends⟩
      exact ⟨⟨sound.pipe, sound.sender, sound.receiver⟩, same, sends⟩

theorem Underway.tells {first exchange : Exchange σ ρ} {data queued : Bytes}
    {next : Except Fault Nat → σ} (underway : first.Underway data next exchange queued)
    (sound : first.Sound) {expired : Bool} {stepped : Stepped σ ρ} {answer : Except Fault Nat}
    (happens : exchange.step? (.sender expired) = some stepped)
    (answers : exchange.sendAnswer? (.sender expired) = some answer) :
    stepped.exchange.sender = .ready (next answer) ∧
      SendTells first.sendLimit data (queued ++ stepped.queued) expired stepped.exchange.pipe
        answer := by
  rcases underway.sends sound with ⟨sound, limit, sends⟩
  have steps := step?_eq_some_iff.mp happens
  rcases steps.of_sends sends with ⟨left, split, inSend, rfl⟩
  have goesOn := sender_runSend inSend expired
  have outcome := sendStretch_outcome sound.pipe left queued.length exchange.sendLimit expired
  rw [answers] at goesOn
  rw [sendAnswer?_eq inSend] at answers
  rw [← limit]
  exact ⟨goesOn, (outcome.verdict split steps.sender_inTime answers).tells⟩

theorem Underway.waits {first exchange : Exchange σ ρ} {data queued : Bytes}
    {next : Except Fault Nat → σ} (underway : first.Underway data next exchange queued)
    (sound : first.Sound) {expired : Bool} {stepped : Stepped σ ρ}
    (happens : exchange.step? (.sender expired) = some stepped)
    (unanswered : exchange.sendAnswer? (.sender expired) = none) :
    expired = false ∧ stepped.exchange.sender.isParked = true ∧
      stepped.exchange.pipe.closed = false ∧ stepped.exchange.pipe.Full := by
  rcases underway.sends sound with ⟨sound, -, sends⟩
  rcases (step?_eq_some_iff.mp happens).of_sends sends with ⟨left, -, inSend, rfl⟩
  exact (sound.runSend_waits inSend unanswered).2

end Exchange

/-! ## Sending all of it -/

/-- The program does not come to this result unless a send of bytes queues none and succeeds. -/
def Sending.Avoids (bad : α) : Sending α → Prop
  | .done result => result ≠ bad
  | .send data next => data ≠ [] ∧ ∀ answer, answer ≠ .ok 0 → (next answer).Avoids bad
  | .close next => next.Avoids bad

def SenderState.Avoids (bad : α) : SenderState (Sending α) → Prop
  | .ready task | .finished task => task.Avoids bad
  | .awake left _ next | .parked left _ next =>
      left ≠ [] ∧ ∀ answer, answer ≠ .ok 0 → (next answer).Avoids bad

theorem SenderState.Avoids.wake {bad : α} {sender : SenderState (Sending α)}
    (avoids : sender.Avoids bad) : sender.wake.Avoids bad := by
  cases sender <;> exact avoids

theorem SenderState.Avoids.of_inSend {bad : α} {sender : SenderState (Sending α)}
    (avoids : sender.Avoids bad) {left : Bytes} {count : Nat}
    {next : Except Fault Nat → Sending α} (inSend : sender.InSend left count next) :
    left ≠ [] ∧ ∀ answer, answer ≠ .ok 0 → (next answer).Avoids bad := by
  cases inSend with
  | @begins task data next call =>
      cases task with
      | send =>
          cases call
          exact avoids
      | _ => cases call
  | resumes => exact avoids

theorem sendAll_avoids {bad : α} {next : Except Channel.Failure Unit → Sending α}
    (fine : ∀ answer, answer ≠ .error .writeZero → (next answer).Avoids bad) (data : Bytes) :
    (sendAll data next).Avoids bad := by
  -- Each count leaves less data for the sends after it.
  induction size : data.length using Nat.strongRecOn generalizing data with
  | ind size induction =>
      rw [sendAll]
      by_cases nothing : data = []
      · rw [if_pos (by simpa using nothing)]
        exact fine _ nofun
      · rw [if_neg (by simpa using nothing)]
        refine ⟨nothing, fun answer progress => ?_⟩
        have some' := List.length_pos_iff.mpr nothing
        match answer with
        | .error fault => exact fine _ nofun
        | .ok 0 => exact absurd rfl progress
        | .ok (more + 1) =>
            refine induction _ ?_ _ rfl
            rw [List.length_drop]
            omega

theorem writeAll_avoids (data : Bytes) :
    (Channel.Writing.writeAll data .done).toSending.Avoids (.error .writeZero) := by
  apply sendAll_avoids
  intro answer fine
  exact fine

namespace Exchange

theorem Sound.avoids_runSend {exchange : Exchange (Sending α) ρ} (sound : exchange.Sound)
    {bad : α} {left : Bytes} (some' : left ≠ []) (count : Nat)
    {next : Except Fault Nat → Sending α}
    (later : ∀ answer, answer ≠ .ok 0 → (next answer).Avoids bad) (expired : Bool) :
    (exchange.runSend left count next expired).exchange.sender.Avoids bad := by
  have outcome := sendStretch_outcome sound.pipe left count exchange.sendLimit expired
  rw [Exchange.runSend]
  generalize exchange.pipe.sendStretch left count exchange.sendLimit expired = stretch at outcome
  have size := List.length_pos_iff.mpr some'
  cases outcome with
  | whole gains =>
      refine later _ fun nothing => ?_
      have total := Except.ok.inj nothing
      omega
  | refused some' closed => exact later _ (by simp)
  | @stuck part rest after split more opened gains full =>
      cases expired with
      | false => exact ⟨more, later⟩
      | true =>
          rw [awaitRoom, if_pos rfl]
          split
          · rename_i positive
            refine later _ fun nothing => ?_
            exact absurd (Except.ok.inj nothing) (Nat.pos_iff_ne_zero.mp positive)
          · exact later _ (by simp)

variable [ReceiveTask ρ]

theorem Steps.avoids {exchange : Exchange (Sending α) ρ} {event : Event}
    {stepped : Stepped (Sending α) ρ} (steps : exchange.Steps event stepped)
    (sound : exchange.Sound) {bad : α} (avoids : exchange.sender.Avoids bad) :
    stepped.exchange.sender.Avoids bad := by
  cases event with
  | sender expired =>
      cases steps with
      | send inTime inSend =>
          rcases avoids.of_inSend inSend with ⟨some', later⟩
          exact sound.avoids_runSend some' _ later _
      | senderOver inTime ready call =>
          rw [ready] at avoids
          exact avoids
      | @senderCloses _ task next inTime ready call =>
          rw [ready] at avoids
          cases task with
          | close =>
              cases call
              exact avoids
          | _ => cases call
  | _ =>
      rcases steps.sender_unmoved (by simp) with ⟨-, -, same | woken⟩
      · rwa [same]
      · rw [woken]
        exact avoids.wake

theorem Later.avoids {first exchange : Exchange (Sending α) ρ} (later : first.Later exchange)
    (sound : first.Sound) {bad : α} (avoids : first.sender.Avoids bad) :
    exchange.sender.Avoids bad := by
  induction later with
  | refl => exact avoids
  | step later happens induction =>
      exact (step?_eq_some_iff.mp happens).avoids (later.keeps_sound sound) induction
  | limits later sendLimit receiveLimit induction => exact induction

end Exchange

/-! ## Without another thread -/

section Alone

variable {pipe : Pipe} {data part rest : Bytes}

theorem fit_of_bounded {capacity : Nat} (bounded : pipe.capacity = some capacity)
    (data : Bytes) :
    pipe.fit data =
      (data.take (capacity - pipe.available), data.drop (capacity - pipe.available)) := by
  rw [fit, bounded]
  exact List.splitAt_eq ..

theorem fit_of_unbounded (unbounded : pipe.capacity = none) (data : Bytes) :
    pipe.fit data = (data, []) := by
  rw [fit, unbounded]

variable (opened : pipe.closed = false) (some' : data ≠ [])
include opened some'

theorem sendStretch_of_part (fits : pipe.fit data = (part, rest)) (fitting : part ≠ [])
    (limit : Option Span) (expired : Bool) :
    pipe.sendStretch data 0 limit expired = ⟨pipe.push part, part,
      if rest = [] then .answers (.ok part.length)
      else awaitRoom rest part.length limit expired⟩ := by
  by_cases whole : rest = []
  · simp [sendStretch, some', opened, fits, fitting, whole]
  · simp [sendStretch, some', opened, fits, fitting, whole]

theorem sendStretch_of_full (fits : pipe.fit data = ([], rest)) (limit : Option Span)
    (expired : Bool) :
    pipe.sendStretch data 0 limit expired = ⟨pipe, [], awaitRoom data 0 limit expired⟩ := by
  simp [sendStretch, some', opened, fits]

end Alone

end Pipe

namespace PipeEnds

open Pipe (Sending mayExpire)

variable {ends left : PipeEnds} {data : Bytes} {α : Type}

theorem send_of_closed (closed : ends.pipe.closed = true) (some' : data ≠ []) :
    ends.send data = some (.error .closed, ends) := by
  rw [send, Pipe.sendStretch_of_closed closed some']

theorem send_of_room (opened : ends.pipe.closed = false) (some' : data ≠ [])
    (fits : ends.pipe.fit data = (data, [])) :
    ends.send data = some (.ok data.length, { ends with pipe := ends.pipe.push data }) := by
  rw [send, Pipe.sendStretch_of_part opened some' fits some', if_pos rfl]

section Bounded

variable (opened : ends.pipe.closed = false) (some' : data ≠ []) {capacity : Nat}
  (bounded : ends.pipe.capacity = some capacity)
include opened some' bounded

theorem send_of_fitting (fits : data.length ≤ capacity - ends.pipe.available) :
    ends.send data = some (.ok data.length, { ends with pipe := ends.pipe.push data }) := by
  apply send_of_room opened some'
  rw [Pipe.fit_of_bounded bounded, List.take_of_length_le fits, List.drop_eq_nil_of_le fits]

theorem send_of_short {free : Nat} (free_eq : capacity - ends.pipe.available = free)
    (short : free < data.length) :
    ends.send data =
      if mayExpire ends.sendLimit then
        some (if 0 < free then (.ok free, { ends with pipe := ends.pipe.push (data.take free) })
          else (.error (.timeout (ends.sendLimit.getD ⟨0⟩)), ends))
      else none := by
  have fits := Pipe.fit_of_bounded bounded data
  rw [free_eq] at fits
  by_cases room : 0 < free
  · have count : (data.take free).length = free := by
      rw [List.length_take]
      omega
    have fitting : data.take free ≠ [] := List.length_pos_iff.mp (by omega)
    have more : data.drop free ≠ [] := by
      rw [ne_eq, List.drop_eq_nil_iff]
      omega
    rw [send, Pipe.sendStretch_of_part opened some' fits fitting, if_neg more, Pipe.awaitRoom,
      count, if_pos room, if_pos room]
    cases mayExpire ends.sendLimit <;> rfl
  · have none' : free = 0 := by omega
    rw [none', List.take_zero] at fits
    rw [send, Pipe.sendStretch_of_full opened some' fits, Pipe.awaitRoom, if_neg room,
      if_neg (Nat.lt_irrefl 0)]
    cases mayExpire ends.sendLimit <;> rfl

end Bounded

theorem send_progress (some' : data ≠ []) {answer : Except Pipe.Fault Nat}
    (answered : ends.send data = some (answer, left)) : answer ≠ .ok 0 := by
  have size : data.length ≠ 0 := mt List.eq_nil_of_length_eq_zero some'
  cases closed : ends.pipe.closed with
  | true =>
      rw [send_of_closed closed some'] at answered
      cases answered
      exact nofun
  | false =>
      cases capacity : ends.pipe.capacity with
      | none =>
          rw [send_of_room closed some' (Pipe.fit_of_unbounded capacity data)] at answered
          cases answered
          exact fun nothing => size (Except.ok.inj nothing)
      | some most =>
          by_cases fits : data.length ≤ most - ends.pipe.available
          · rw [send_of_fitting closed some' capacity fits] at answered
            cases answered
            exact fun nothing => size (Except.ok.inj nothing)
          · rw [send_of_short closed some' capacity rfl (Nat.lt_of_not_le fits)] at answered
            split at answered
            · split at answered
              · rename_i room
                cases answered
                exact fun nothing => Nat.ne_of_gt room (Except.ok.inj nothing)
              · cases answered
                exact nofun
            · cases answered

theorem runSending_avoids {bad result : α} {program : Sending α} (avoids : program.Avoids bad)
    (ran : ends.runSending program = some (result, left)) : result ≠ bad := by
  induction program generalizing ends with
  | done result =>
      cases ran
      exact avoids
  | send data next induction =>
      rw [runSending] at ran
      split at ran
      · rename_i answer middle answered
        exact induction answer (avoids.2 answer (send_progress avoids.1 answered)) ran
      · cases ran
  | close next induction => exact induction avoids ran

/-- What a send comes to while no other thread has the other end. Its time limit passes only if
the clock can reach it. -/
structure SendsAlone (ends : PipeEnds) : Prop where
  empty : ends.send [] = some (.ok 0, ends)
  refused : ends.pipe.closed = true → ∀ data, data ≠ [] →
    ends.send data = some (.error .closed, ends)
  unbounded : ends.pipe.closed = false → ends.pipe.capacity = none → ∀ data, data ≠ [] →
    ends.send data = some (.ok data.length, { ends with pipe := ends.pipe.push data })
  timed : ends.pipe.closed = false → ∀ capacity, ends.pipe.capacity = some capacity →
    ∀ span, ends.sendLimit = some span → mayExpire (some span) = true → ∀ data, data ≠ [] →
      let free := capacity - ends.pipe.available
      ends.send data = some
        (if 0 < free then
          (.ok (min data.length free), { ends with pipe := ends.pipe.push (data.take free) })
        else (.error (.timeout span), ends))
  patient : ends.pipe.closed = false → ∀ capacity, ends.pipe.capacity = some capacity →
    mayExpire ends.sendLimit = false → ∀ data, data ≠ [] →
      ends.send data =
        if data.length ≤ capacity - ends.pipe.available then
          some (.ok data.length, { ends with pipe := ends.pipe.push data })
        else none
  writesAll : ∀ data outcome left,
    ends.runWriting (.writeAll data .done) = some (outcome, left) → outcome ≠ .error .writeZero

theorem sendsAlone (ends : PipeEnds) : ends.SendsAlone := by
  refine ⟨rfl, ?_, ?_, ?_, ?_, ?_⟩
  · intro closed data some'
    exact send_of_closed closed some'
  · intro opened unbounded data some'
    exact send_of_room opened some' (Pipe.fit_of_unbounded unbounded data)
  · intro opened capacity bounded span allowed passes data some' free
    by_cases fits : data.length ≤ free
    · have some'' := List.length_pos_iff.mpr some'
      have room : 0 < free := Nat.lt_of_lt_of_le some'' fits
      rw [send_of_fitting opened some' bounded fits, if_pos room, Nat.min_eq_left fits,
        List.take_of_length_le fits]
    · have short := Nat.lt_of_not_le fits
      rw [send_of_short opened some' bounded rfl short, allowed, if_pos passes,
        Nat.min_eq_right (Nat.le_of_lt short)]
      rfl
  · intro opened capacity bounded patient data some'
    by_cases fits : data.length ≤ capacity - ends.pipe.available
    · rw [if_pos fits, send_of_fitting opened some' bounded fits]
    · rw [if_neg fits, send_of_short opened some' bounded rfl (Nat.lt_of_not_le fits), patient,
        if_neg Bool.false_ne_true]
  · intro data outcome left ran
    exact runSending_avoids (Pipe.writeAll_avoids data) ran

/-- The clock cannot reach the longest span. With it as its time limit, a send into an open pipe
answers neither with the bytes that fit nor, once the pipe is full, that it timed out. -/
theorem send_never_answers_within_longest :
    let ends : PipeEnds := ⟨.empty (some 3), some .longest, none⟩
    let full : PipeEnds := { ends with pipe := ends.pipe.push [1, 2, 3] }
    ends.pipe.closed = false ∧ ends.send [1, 2, 3, 4] = none ∧
      full.pipe.closed = false ∧ full.pipe.available = 3 ∧ full.send [4] = none := by
  decide +kernel

end PipeEnds

namespace Pipe

namespace Exchange

variable [SendTask σ] [ReceiveTask ρ]

/-- What the sends of an exchange answer, whatever the other thread does meanwhile. -/
structure SendsExactly (exchange : Exchange σ ρ) : Prop where
  tells : ∀ data next during queued, exchange.Underway data next during queued →
    ∀ expired stepped answer, during.step? (.sender expired) = some stepped →
      during.sendAnswer? (.sender expired) = some answer →
      stepped.exchange.sender = .ready (next answer) ∧
        SendTells exchange.sendLimit data (queued ++ stepped.queued) expired
          stepped.exchange.pipe answer
  waits : ∀ data next during queued, exchange.Underway data next during queued →
    ∀ expired stepped, during.step? (.sender expired) = some stepped →
      during.sendAnswer? (.sender expired) = none →
      expired = false ∧ stepped.exchange.sender.isParked = true ∧
        stepped.exchange.pipe.closed = false ∧ stepped.exchange.pipe.Full
  empty : ∀ task next, exchange.sender = .ready task → SendTask.call task = .send [] next →
    ∀ expired, (expired = true → mayExpire exchange.sendLimit = true) →
      exchange.sendAnswer? (.sender expired) = some (.ok 0) ∧
        exchange.step? (.sender expired) =
          some (.still { exchange with sender := .ready (next (.ok 0)) })
  /-- Whenever sending all of some data begins, a send that queues nothing is not why it
  fails. -/
  writesAll : ∀ data later,
    Later { exchange with sender := .ready (Channel.Writing.writeAll data .done).toSending } later →
    ∀ outcome, later.sender = .ready (.done outcome) → outcome ≠ .error .writeZero

theorem Sound.sendsExactly {exchange : Exchange σ ρ} (sound : exchange.Sound) :
    exchange.SendsExactly := by
  refine ⟨?_, ?_, ?_, ?_⟩
  · intro data next during queued underway expired stepped answer happens answers
    exact underway.tells sound happens answers
  · intro data next during queued underway expired stepped happens unanswered
    exact underway.waits sound happens unanswered
  · intro task next ready call expired inTime
    have inSend : exchange.sender.InSend [] 0 next := ready ▸ .begins call
    refine ⟨sendAnswer?_eq inSend expired, ?_⟩
    exact step?_eq_some_iff.mpr (.send inTime inSend)
  · intro data later reached outcome done
    have avoids := reached.avoids ⟨sound.pipe, trivial, sound.receiver⟩ (writeAll_avoids data)
    rw [done] at avoids
    exact avoids

/-- Whatever two threads do and in whatever order, the answer of a send tells exactly what the
call has queued and why it has not queued more. -/
theorem sends_answer_exactly {capacity : Option Nat} (usable : capacity ≠ some 0)
    (sendLimit receiveLimit : Option Span) (sender : σ) (receiver : ρ) :
    ∃ pipe, create capacity = .ok pipe ∧
      (∀ exchange, (start pipe sendLimit receiveLimit sender receiver).Later exchange →
        exchange.SendsExactly) ∧
      ∀ ends : PipeEnds, ends.SendsAlone := by
  refine ⟨empty capacity, create_of_usable usable, ?_, PipeEnds.sendsAlone⟩
  intro exchange later
  exact (later.keeps_sound (sound_start (sound_empty usable) ..)).sendsExactly

/-- The send waits once, queues more when a byte has been taken, and answers when its time limit
passes. -/
theorem sends_answer_exactly_cut_send :
    let span := Span.ofSeconds 1
    let data : Bytes := [1, 2, 3, 4, 5]
    let sender : Sending (Except Fault Nat) := .send data .done
    let receiver : Receiving Unit := .receive 1 fun _ => .done ()
    ∃ pipe during stepped, create (some 3) = .ok pipe ∧
      (start pipe (some span) none sender receiver).Underway data .done during [1, 2, 3] ∧
      during.step? (.sender true) = some stepped ∧ stepped.queued = [4] ∧
      stepped.exchange.sender = .ready (.done (.ok 4)) ∧
      SendTells (some span) data [1, 2, 3, 4] true stepped.exchange.pipe (.ok 4) := by
  intro span data sender receiver
  have usable : (some 3 : Option Nat) ≠ some 0 := by decide
  rcases sends_answer_exactly usable (some span) none sender receiver with
    ⟨pipe, created, always, -⟩
  cases created
  let begun := start (empty (some 3)) (some span) none sender receiver
  let first := (begun.step? (.sender false)).get rfl
  let second := (first.exchange.step? (.receiver false)).get rfl
  let third := (second.exchange.step? (.sender true)).get (by decide +kernel)
  have parks : begun.step? (.sender false) = some first := rfl
  have takes : first.exchange.step? (.receiver false) = some second := rfl
  have ends : second.exchange.step? (.sender true) = some third := (Option.some_get _).symm
  have queues : begun.Underway data .done first.exchange [1, 2, 3] :=
    .step (.begins rfl rfl) parks rfl
  have waits : begun.Underway data .done second.exchange [1, 2, 3] := .step queues takes rfl
  have tells := (always begun .refl).tells _ _ _ _ waits true third _ ends rfl
  have more : third.queued = [4] := by decide +kernel
  rw [more] at tells
  exact ⟨_, second.exchange, third, rfl, waits, ends, more, tells.1, tells.2⟩

end Exchange

end Pipe

end ByteStreams
