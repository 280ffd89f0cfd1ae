import ByteStreams.Proofs.Pipe.Schedules

/-! # Answers of calls

What the sends and receives of two threads answer along a schedule. The bytes that the
receives answer with are those that the schedule delivers.
-/

namespace ByteStreams

namespace Pipe

variable {σ ρ : Type}

def SendEnd.answer? : SendEnd → Option (Except Fault Nat)
  | .answers answer => some answer
  | .waits _ _ => none

def ReceiveEnd.answer? : ReceiveEnd → Option (Except Fault Bytes)
  | .answers answer => some answer
  | .waits => none

def SenderState.current? [SendTask σ] : SenderState σ → Option (Bytes × Nat)
  | .ready task =>
      match SendTask.call task with
      | .send data _ => some (data, 0)
      | .done | .close _ => none
  | .awake left queued _ => some (left, queued)
  | .parked _ _ _ | .finished _ => none

def ReceiverState.current? [ReceiveTask ρ] : ReceiverState ρ → Option Nat
  | .ready task =>
      match ReceiveTask.call task with
      | .receive wanted _ => some wanted
      | .done | .close _ => none
  | .awake wanted _ => some wanted
  | .parked _ _ | .finished _ => none

theorem SenderState.InSend.current?_eq [SendTask σ] {sender : SenderState σ} {left : Bytes}
    {queued : Nat} {next : Except Fault Nat → σ} (inSend : sender.InSend left queued next) :
    sender.current? = some (left, queued) := by
  cases inSend with
  | begins call => simp only [current?, call]
  | resumes => rfl

theorem ReceiverState.InReceive.current?_eq [ReceiveTask ρ] {receiver : ReceiverState ρ}
    {wanted : Nat} {next : Except Fault Bytes → ρ} (inReceive : receiver.InReceive wanted next) :
    receiver.current? = some wanted := by
  cases inReceive with
  | begins call => simp only [current?, call]
  | resumes => rfl

def receivedBytes : Except Fault Bytes → Bytes
  | .ok bytes => bytes
  | .error _ => []

/-! ## What stretches answer -/

theorem SendOutcome.fault_eq {pipe : Pipe} {left : Bytes} {queued : Nat} {limit : Option Span}
    {expired : Bool} {stretch : SendStretch}
    (outcome : SendOutcome pipe left queued limit expired stretch) {fault : Fault}
    (failed : stretch.finish.answer? = some (.error fault)) :
    fault = .closed ∧ pipe.closed = true ∨
      fault = .timeout (limit.getD ⟨0⟩) ∧ expired = true := by
  cases outcome with
  | whole gains => cases failed
  | refused some' closed =>
      cases failed
      exact .inl ⟨rfl, closed⟩
  | stuck split more opened gains full =>
      cases expired with
      | false => cases failed
      | true =>
          rw [awaitRoom, if_pos rfl] at failed
          split at failed
          · cases failed
          · cases failed
            exact .inr ⟨rfl, rfl⟩

theorem SendOutcome.queued_pos {pipe : Pipe} {left : Bytes} {queued count : Nat}
    {limit : Option Span} {expired : Bool} {stretch : SendStretch}
    (outcome : SendOutcome pipe left queued limit expired stretch) (some' : left ≠ [])
    (nothing : stretch.pushed = []) (succeeds : stretch.finish.answer? = some (.ok count)) :
    0 < queued := by
  cases outcome with
  | whole gains => exact absurd nothing some'
  | refused _ closed => cases succeeds
  | @stuck part rest after split more opened gains full =>
      cases expired with
      | false => cases succeeds
      | true =>
          have none' : part = [] := nothing
          rw [awaitRoom, if_pos rfl, none', List.length_nil, Nat.add_zero] at succeeds
          split at succeeds
          · assumption
          · cases succeeds

theorem ReceiveOutcome.fault_eq {pipe : Pipe} {wanted : Nat} {limit : Option Span}
    {expired : Bool} {stretch : ReceiveStretch}
    (outcome : ReceiveOutcome pipe wanted limit expired stretch) {fault : Fault}
    (failed : stretch.finish.answer? = some (.error fault)) :
    fault = .timeout (limit.getD ⟨0⟩) ∧ expired = true := by
  cases outcome with
  | gives loses count nothing => cases failed
  | expires asked empty opened expiry =>
      cases failed
      exact ⟨rfl, expiry⟩
  | waits asked empty opened inTime => cases failed

namespace Exchange

/-! ## In one step -/

/-- The answer of the send that ends in an event. -/
def sendAnswer? [SendTask σ] (exchange : Exchange σ ρ) : Event → Option (Except Fault Nat)
  | .sender expired =>
      exchange.sender.current?.bind fun (left, queued) =>
        (exchange.pipe.sendStretch left queued exchange.sendLimit expired).finish.answer?
  | .receiver _ | .wakeSender | .wakeReceiver => none

def receiveAnswer? [ReceiveTask ρ] (exchange : Exchange σ ρ) :
    Event → Option (Except Fault Bytes)
  | .receiver expired =>
      exchange.receiver.current?.bind fun wanted =>
        (exchange.pipe.receiveStretch wanted exchange.receiveLimit expired).finish.answer?
  | .sender _ | .wakeSender | .wakeReceiver => none

theorem sendAnswer?_eq [SendTask σ] {exchange : Exchange σ ρ} {left : Bytes} {queued : Nat}
    {next : Except Fault Nat → σ} (inSend : exchange.sender.InSend left queued next)
    (expired : Bool) :
    exchange.sendAnswer? (.sender expired) =
      (exchange.pipe.sendStretch left queued exchange.sendLimit expired).finish.answer? := by
  rw [sendAnswer?, inSend.current?_eq, Option.bind_some]

theorem receiveAnswer?_eq [ReceiveTask ρ] {exchange : Exchange σ ρ} {wanted : Nat}
    {next : Except Fault Bytes → ρ} (inReceive : exchange.receiver.InReceive wanted next)
    (expired : Bool) :
    exchange.receiveAnswer? (.receiver expired) =
      (exchange.pipe.receiveStretch wanted exchange.receiveLimit expired).finish.answer? := by
  rw [receiveAnswer?, inReceive.current?_eq, Option.bind_some]

theorem sendAnswer?_of_done [SendTask σ] {exchange : Exchange σ ρ} {task : σ}
    (ready : exchange.sender = .ready task) (call : SendTask.call task = .done)
    (expired : Bool) : exchange.sendAnswer? (.sender expired) = none := by
  simp only [sendAnswer?, ready, SenderState.current?, call, Option.bind_none]

theorem sendAnswer?_of_close [SendTask σ] {exchange : Exchange σ ρ} {task next : σ}
    (ready : exchange.sender = .ready task) (call : SendTask.call task = .close next)
    (expired : Bool) : exchange.sendAnswer? (.sender expired) = none := by
  simp only [sendAnswer?, ready, SenderState.current?, call, Option.bind_none]

theorem receiveAnswer?_of_done [ReceiveTask ρ] {exchange : Exchange σ ρ} {task : ρ}
    (ready : exchange.receiver = .ready task) (call : ReceiveTask.call task = .done)
    (expired : Bool) : exchange.receiveAnswer? (.receiver expired) = none := by
  simp only [receiveAnswer?, ready, ReceiverState.current?, call, Option.bind_none]

theorem receiveAnswer?_of_close [ReceiveTask ρ] {exchange : Exchange σ ρ} {task next : ρ}
    (ready : exchange.receiver = .ready task) (call : ReceiveTask.call task = .close next)
    (expired : Bool) : exchange.receiveAnswer? (.receiver expired) = none := by
  simp only [receiveAnswer?, ready, ReceiverState.current?, call, Option.bind_none]

theorem sender_runSend [SendTask σ] {exchange : Exchange σ ρ} {left : Bytes} {queued : Nat}
    {next : Except Fault Nat → σ} (inSend : exchange.sender.InSend left queued next)
    (expired : Bool) :
    match exchange.sendAnswer? (.sender expired) with
    | some answer =>
        (exchange.runSend left queued next expired).exchange.sender = .ready (next answer)
    | none => (exchange.runSend left queued next expired).exchange.sender.isParked = true := by
  rw [sendAnswer?_eq inSend, runSend]
  cases (exchange.pipe.sendStretch left queued exchange.sendLimit expired).finish with
  | answers answer => rfl
  | waits left queued => rfl

theorem receiver_runReceive [ReceiveTask ρ] {exchange : Exchange σ ρ} {wanted : Nat}
    {next : Except Fault Bytes → ρ} (inReceive : exchange.receiver.InReceive wanted next)
    (expired : Bool) :
    match exchange.receiveAnswer? (.receiver expired) with
    | some answer =>
        (exchange.runReceive wanted next expired).exchange.receiver = .ready (next answer)
    | none =>
        (exchange.runReceive wanted next expired).exchange.receiver = .parked wanted next := by
  rw [receiveAnswer?_eq inReceive, runReceive]
  cases (exchange.pipe.receiveStretch wanted exchange.receiveLimit expired).finish with
  | answers answer => rfl
  | waits => rfl

theorem Steps.delivered_eq [SendTask σ] [ReceiveTask ρ] {exchange : Exchange σ ρ}
    {event : Event} {stepped : Stepped σ ρ} (steps : exchange.Steps event stepped)
    (sound : exchange.Sound) :
    stepped.delivered = (exchange.receiveAnswer? event).toList.flatMap receivedBytes := by
  cases steps with
  | @receive expired wanted next inTime inReceive =>
      rw [receiveAnswer?_eq inReceive, runReceive]
      have outcome := receiveStretch_outcome sound.pipe wanted exchange.receiveLimit expired
      generalize exchange.pipe.receiveStretch wanted exchange.receiveLimit expired = stretch
        at outcome
      cases outcome with
      | gives => exact (List.append_nil _).symm
      | expires => rfl
      | waits => rfl
  | receiverOver inTime ready call => rw [receiveAnswer?_of_done ready call]; rfl
  | receiverCloses inTime ready call => rw [receiveAnswer?_of_close ready call]; rfl
  | _ => rfl

theorem Steps.sender_unmoved [SendTask σ] [ReceiveTask ρ] {exchange : Exchange σ ρ}
    {event : Event} {stepped : Stepped σ ρ} (steps : exchange.Steps event stepped)
    (other : ∀ expired, event ≠ .sender expired) :
    stepped.queued = [] ∧ exchange.sendAnswer? event = none ∧
      (stepped.exchange.sender = exchange.sender ∨
        stepped.exchange.sender = exchange.sender.wake) := by
  cases steps with
  | receive inTime inReceive => exact ⟨rfl, rfl, sender_runReceive ..⟩
  | receiverOver inTime ready call => exact ⟨rfl, rfl, sender_close exchange⟩
  | receiverCloses inTime ready call => exact ⟨rfl, rfl, sender_close exchange⟩
  | wakeSender parked => exact ⟨rfl, rfl, .inr rfl⟩
  | wakeReceiver parked => exact ⟨rfl, rfl, .inl rfl⟩
  | _ => exact absurd rfl (other _)

theorem Steps.receiver_unmoved [SendTask σ] [ReceiveTask ρ] {exchange : Exchange σ ρ}
    {event : Event} {stepped : Stepped σ ρ} (steps : exchange.Steps event stepped)
    (other : ∀ expired, event ≠ .receiver expired) :
    stepped.delivered = [] ∧ exchange.receiveAnswer? event = none ∧
      (stepped.exchange.receiver = exchange.receiver ∨
        stepped.exchange.receiver = exchange.receiver.wake) := by
  cases steps with
  | send inTime inSend => exact ⟨rfl, rfl, receiver_runSend ..⟩
  | senderOver inTime ready call => exact ⟨rfl, rfl, receiver_close exchange⟩
  | senderCloses inTime ready call => exact ⟨rfl, rfl, receiver_close exchange⟩
  | wakeSender parked => exact ⟨rfl, rfl, .inl rfl⟩
  | wakeReceiver parked => exact ⟨rfl, rfl, .inr rfl⟩
  | _ => exact absurd rfl (other _)

/-! ## Along a schedule -/

variable [SendTask σ] [ReceiveTask ρ]

/-- What the sends answer that end while a schedule is followed, in their order. -/
def sendAnswers (exchange : Exchange σ ρ) : List Event → List (Except Fault Nat)
  | [] => []
  | event :: events =>
      match exchange.step? event with
      | some first =>
          (exchange.sendAnswer? event).toList ++ first.exchange.sendAnswers events
      | none => []

def receiveAnswers (exchange : Exchange σ ρ) : List Event → List (Except Fault Bytes)
  | [] => []
  | event :: events =>
      match exchange.step? event with
      | some first =>
          (exchange.receiveAnswer? event).toList ++ first.exchange.receiveAnswers events
      | none => []

theorem sendAnswers_cons {exchange : Exchange σ ρ} {event : Event} {first : Stepped σ ρ}
    (steps : exchange.Steps event first) (events : List Event) :
    exchange.sendAnswers (event :: events) =
      (exchange.sendAnswer? event).toList ++ first.exchange.sendAnswers events := by
  rw [sendAnswers, step?_eq_some_iff.mpr steps]

theorem receiveAnswers_cons {exchange : Exchange σ ρ} {event : Event} {first : Stepped σ ρ}
    (steps : exchange.Steps event first) (events : List Event) :
    exchange.receiveAnswers (event :: events) =
      (exchange.receiveAnswer? event).toList ++ first.exchange.receiveAnswers events := by
  rw [receiveAnswers, step?_eq_some_iff.mpr steps]

/-- A schedule delivers what its receives answer with. -/
theorem Sound.delivered_eq {exchange : Exchange σ ρ} (sound : exchange.Sound)
    (events : List Event) {last : Stepped σ ρ} (followed : exchange.follow? events = some last) :
    last.delivered = (exchange.receiveAnswers events).flatMap receivedBytes := by
  induction events generalizing exchange last with
  | nil =>
      cases followed
      rfl
  | cons event events induction =>
      rcases follow?_cons_eq_some_iff.mp followed with ⟨first, rest, steps, later, rfl⟩
      rw [receiveAnswers_cons steps, List.flatMap_append, ← steps.delivered_eq sound,
        ← induction (steps.keeps sound).sound later]

/-! ## Time limits -/

theorem Sound.expired_of_send {exchange : Exchange σ ρ} (sound : exchange.Sound) {span : Span}
    (events : List Event) {last : Stepped σ ρ} (followed : exchange.follow? events = some last)
    (timedOut : .error (.timeout span) ∈ exchange.sendAnswers events) :
    .sender true ∈ events := by
  induction events generalizing exchange last with
  | nil => cases timedOut
  | cons event events induction =>
      rcases follow?_cons_eq_some_iff.mp followed with ⟨first, rest, steps, later, rfl⟩
      rw [sendAnswers_cons steps, List.mem_append, Option.mem_toList] at timedOut
      rcases timedOut with now | timedOut
      · cases steps with
        | @send expired left sent next inTime inSend =>
            have outcome :=
              sendStretch_outcome sound.pipe left sent exchange.sendLimit expired
            rw [sendAnswer?_eq inSend] at now
            rcases outcome.fault_eq now with ⟨refused, -⟩ | ⟨-, rfl⟩
            · cases refused
            · exact List.mem_cons_self
        | senderOver inTime ready call => simp [sendAnswer?_of_done ready call] at now
        | senderCloses inTime ready call => simp [sendAnswer?_of_close ready call] at now
        | _ => cases now
      · exact List.mem_cons_of_mem _ (induction (steps.keeps sound).sound later timedOut)

theorem Sound.expired_of_receive {exchange : Exchange σ ρ} (sound : exchange.Sound)
    {span : Span} (events : List Event) {last : Stepped σ ρ}
    (followed : exchange.follow? events = some last)
    (timedOut : .error (.timeout span) ∈ exchange.receiveAnswers events) :
    .receiver true ∈ events := by
  induction events generalizing exchange last with
  | nil => cases timedOut
  | cons event events induction =>
      rcases follow?_cons_eq_some_iff.mp followed with ⟨first, rest, steps, later, rfl⟩
      rw [receiveAnswers_cons steps, List.mem_append, Option.mem_toList] at timedOut
      rcases timedOut with now | timedOut
      · cases steps with
        | @receive expired wanted next inTime inReceive =>
            have outcome :=
              receiveStretch_outcome sound.pipe wanted exchange.receiveLimit expired
            rw [receiveAnswer?_eq inReceive] at now
            rw [(outcome.fault_eq now).2]
            exact List.mem_cons_self
        | receiverOver inTime ready call => simp [receiveAnswer?_of_done ready call] at now
        | receiverCloses inTime ready call => simp [receiveAnswer?_of_close ready call] at now
        | _ => cases now
      · exact List.mem_cons_of_mem _ (induction (steps.keeps sound).sound later timedOut)

end Exchange

end Pipe

end ByteStreams
