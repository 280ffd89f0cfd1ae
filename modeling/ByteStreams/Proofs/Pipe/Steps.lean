import ByteStreams.Pipe.Exchange
import ByteStreams.Proofs.Pipe.Stretches

/-! # Steps of two threads

What each event of an exchange does, and what every step keeps: the pipe is sound, a
thread that waits has a reason to, and a thread that has finished has closed the pipe.
The bytes that were in the pipe and those that a step queued are those that the step
delivered and those that are in the pipe then.
-/

namespace ByteStreams

namespace Pipe

variable {σ ρ : Type}

/-! ## Calls in progress -/

/-- A thread about to run a stretch of a send, with these bytes of its data left. -/
inductive SenderState.InSend [SendTask σ] :
    SenderState σ → Bytes → Nat → (Except Fault Nat → σ) → Prop
  | begins {task : σ} {data : Bytes} {next : Except Fault Nat → σ}
      (call : SendTask.call task = .send data next) : InSend (.ready task) data 0 next
  | resumes (left : Bytes) (queued : Nat) (next : Except Fault Nat → σ) :
      InSend (.awake left queued next) left queued next

inductive ReceiverState.InReceive [ReceiveTask ρ] :
    ReceiverState ρ → Nat → (Except Fault Bytes → ρ) → Prop
  | begins {task : ρ} {wanted : Nat} {next : Except Fault Bytes → ρ}
      (call : ReceiveTask.call task = .receive wanted next) :
      InReceive (.ready task) wanted next
  | resumes (wanted : Nat) (next : Except Fault Bytes → ρ) :
      InReceive (.awake wanted next) wanted next

namespace Exchange

variable [SendTask σ] [ReceiveTask ρ]

inductive Steps (exchange : Exchange σ ρ) : Event → Stepped σ ρ → Prop
  | send {expired : Bool} {left : Bytes} {queued : Nat} {next : Except Fault Nat → σ}
      (inTime : expired = true → mayExpire exchange.sendLimit = true)
      (inSend : exchange.sender.InSend left queued next) :
      Steps exchange (.sender expired) (exchange.runSend left queued next expired)
  | senderOver {expired : Bool} {task : σ}
      (inTime : expired = true → mayExpire exchange.sendLimit = true)
      (ready : exchange.sender = .ready task) (call : SendTask.call task = .done) :
      Steps exchange (.sender expired) (.still { exchange.close with sender := .finished task })
  | senderCloses {expired : Bool} {task next : σ}
      (inTime : expired = true → mayExpire exchange.sendLimit = true)
      (ready : exchange.sender = .ready task) (call : SendTask.call task = .close next) :
      Steps exchange (.sender expired) (.still { exchange.close with sender := .ready next })
  | receive {expired : Bool} {wanted : Nat} {next : Except Fault Bytes → ρ}
      (inTime : expired = true → mayExpire exchange.receiveLimit = true)
      (inReceive : exchange.receiver.InReceive wanted next) :
      Steps exchange (.receiver expired) (exchange.runReceive wanted next expired)
  | receiverOver {expired : Bool} {task : ρ}
      (inTime : expired = true → mayExpire exchange.receiveLimit = true)
      (ready : exchange.receiver = .ready task) (call : ReceiveTask.call task = .done) :
      Steps exchange (.receiver expired)
        (.still { exchange.close with receiver := .finished task })
  | receiverCloses {expired : Bool} {task next : ρ}
      (inTime : expired = true → mayExpire exchange.receiveLimit = true)
      (ready : exchange.receiver = .ready task)
      (call : ReceiveTask.call task = .close next) :
      Steps exchange (.receiver expired) (.still { exchange.close with receiver := .ready next })
  | wakeSender (parked : exchange.sender.isParked = true) :
      Steps exchange .wakeSender (.still { exchange with sender := exchange.sender.wake })
  | wakeReceiver (parked : exchange.receiver.isParked = true) :
      Steps exchange .wakeReceiver (.still { exchange with receiver := exchange.receiver.wake })

theorem inTime_iff (expired allowed : Bool) :
    ¬(expired && !allowed) = true ↔ (expired = true → allowed = true) := by
  cases expired <;> cases allowed <;> decide

private theorem steps_of_step? {exchange : Exchange σ ρ} {event : Event} {stepped : Stepped σ ρ}
    (happens : exchange.step? event = some stepped) : exchange.Steps event stepped := by
  cases event with
  | sender expired =>
      rw [step?] at happens
      split at happens
      · cases happens
      · rename_i free
        have inTime := (inTime_iff ..).mp free
        cases sender : exchange.sender with
        | ready task =>
            simp only [sender] at happens
            cases call : SendTask.call task with
            | done =>
                simp only [call, Option.some.injEq] at happens
                subst happens
                exact .senderOver inTime sender call
            | send data next =>
                simp only [call, Option.some.injEq] at happens
                subst happens
                exact .send inTime (sender ▸ .begins call)
            | close next =>
                simp only [call, Option.some.injEq] at happens
                subst happens
                exact .senderCloses inTime sender call
        | awake left queued next =>
            simp only [sender, Option.some.injEq] at happens
            subst happens
            exact .send inTime (sender ▸ .resumes left queued next)
        | parked left queued next => simp [sender] at happens
        | finished task => simp [sender] at happens
  | receiver expired =>
      rw [step?] at happens
      split at happens
      · cases happens
      · rename_i free
        have inTime := (inTime_iff ..).mp free
        cases receiver : exchange.receiver with
        | ready task =>
            simp only [receiver] at happens
            cases call : ReceiveTask.call task with
            | done =>
                simp only [call, Option.some.injEq] at happens
                subst happens
                exact .receiverOver inTime receiver call
            | receive wanted next =>
                simp only [call, Option.some.injEq] at happens
                subst happens
                exact .receive inTime (receiver ▸ .begins call)
            | close next =>
                simp only [call, Option.some.injEq] at happens
                subst happens
                exact .receiverCloses inTime receiver call
        | awake wanted next =>
            simp only [receiver, Option.some.injEq] at happens
            subst happens
            exact .receive inTime (receiver ▸ .resumes wanted next)
        | parked wanted next => simp [receiver] at happens
        | finished task => simp [receiver] at happens
  | wakeSender =>
      rw [step?] at happens
      split at happens
      · rename_i parked
        cases happens
        exact .wakeSender parked
      · cases happens
  | wakeReceiver =>
      rw [step?] at happens
      split at happens
      · rename_i parked
        cases happens
        exact .wakeReceiver parked
      · cases happens

theorem step?_eq_some_iff {exchange : Exchange σ ρ} {event : Event} {stepped : Stepped σ ρ} :
    exchange.step? event = some stepped ↔ exchange.Steps event stepped := by
  constructor
  · exact steps_of_step?
  · intro steps
    cases steps with
    | send inTime inSend =>
        rw [step?, if_neg ((inTime_iff ..).mpr inTime)]
        generalize state : exchange.sender = sender at inSend
        cases inSend with
        | begins call => simp only [call]
        | resumes => rfl
    | senderOver inTime ready call =>
        rw [step?, if_neg ((inTime_iff ..).mpr inTime)]
        simp only [ready, call]
    | senderCloses inTime ready call =>
        rw [step?, if_neg ((inTime_iff ..).mpr inTime)]
        simp only [ready, call]
    | receive inTime inReceive =>
        rw [step?, if_neg ((inTime_iff ..).mpr inTime)]
        generalize state : exchange.receiver = receiver at inReceive
        cases inReceive with
        | begins call => simp only [call]
        | resumes => rfl
    | receiverOver inTime ready call =>
        rw [step?, if_neg ((inTime_iff ..).mpr inTime)]
        simp only [ready, call]
    | receiverCloses inTime ready call =>
        rw [step?, if_neg ((inTime_iff ..).mpr inTime)]
        simp only [ready, call]
    | wakeSender parked => rw [step?, if_pos parked]
    | wakeReceiver parked => rw [step?, if_pos parked]

theorem Steps.unique {exchange : Exchange σ ρ} {event : Event} {first second : Stepped σ ρ}
    (steps : exchange.Steps event first) (again : exchange.Steps event second) :
    first = second :=
  Option.some.inj ((step?_eq_some_iff.mpr steps).symm.trans (step?_eq_some_iff.mpr again))

theorem Steps.sender_inTime {exchange : Exchange σ ρ} {expired : Bool} {stepped : Stepped σ ρ}
    (steps : exchange.Steps (.sender expired) stepped) :
    expired = true → mayExpire exchange.sendLimit = true := by
  cases steps <;> assumption

theorem Steps.receiver_inTime {exchange : Exchange σ ρ} {expired : Bool}
    {stepped : Stepped σ ρ} (steps : exchange.Steps (.receiver expired) stepped) :
    expired = true → mayExpire exchange.receiveLimit = true := by
  cases steps <;> assumption

theorem Steps.eq_runSend {exchange : Exchange σ ρ} {expired : Bool} {stepped : Stepped σ ρ}
    (steps : exchange.Steps (.sender expired) stepped) {left : Bytes} {count : Nat}
    {next : Except Fault Nat → σ} (inSend : exchange.sender.InSend left count next) :
    stepped = exchange.runSend left count next expired :=
  steps.unique (.send steps.sender_inTime inSend)

theorem Steps.eq_runReceive {exchange : Exchange σ ρ} {expired : Bool} {stepped : Stepped σ ρ}
    (steps : exchange.Steps (.receiver expired) stepped) {wanted : Nat}
    {next : Except Fault Bytes → ρ} (inReceive : exchange.receiver.InReceive wanted next) :
    stepped = exchange.runReceive wanted next expired :=
  steps.unique (.receive steps.receiver_inTime inReceive)

end Exchange

/-! ## Why threads wait -/

/-- A sender waits only for room in an open pipe, and has finished only with a closed one. -/
def SenderState.Placed : SenderState σ → Pipe → Prop
  | .parked left _ _, pipe => left ≠ [] ∧ pipe.closed = false ∧ pipe.Full
  | .finished _, pipe => pipe.closed = true
  | .ready _, _ | .awake _ _ _, _ => True

def ReceiverState.Placed : ReceiverState ρ → Pipe → Prop
  | .parked wanted _, pipe => wanted ≠ 0 ∧ pipe.closed = false ∧ pipe.content = []
  | .finished _, pipe => pipe.closed = true
  | .ready _, _ | .awake _ _, _ => True

theorem SenderState.Placed.of_parked {sender : SenderState σ} {pipe : Pipe}
    (placed : sender.Placed pipe) (parked : sender.isParked = true) :
    pipe.closed = false ∧ pipe.Full := by
  cases sender with
  | parked left queued next => exact placed.2
  | _ => exact absurd parked Bool.false_ne_true

theorem SenderState.Placed.closed_of_finished {sender : SenderState σ} {pipe : Pipe}
    (placed : sender.Placed pipe) {task : σ} (finished : sender.finished? = some task) :
    pipe.closed = true := by
  cases sender with
  | finished task => exact placed
  | _ => cases finished

theorem SenderState.Placed.runs_of_closed {sender : SenderState σ} {pipe : Pipe}
    (placed : sender.Placed pipe) (closed : pipe.closed = true) : sender.isParked = false := by
  cases sender with
  | parked left queued next =>
      exact absurd (placed.2.1.symm.trans closed) Bool.false_ne_true
  | _ => rfl

theorem SenderState.Placed.runs_of_empty {sender : SenderState σ} {pipe : Pipe}
    (placed : sender.Placed pipe) (sound : pipe.Sound) (empty : pipe.content = []) :
    sender.isParked = false := by
  cases sender with
  | parked left queued next => exact absurd empty (placed.2.2.content_ne_nil sound)
  | _ => rfl

theorem SenderState.Placed.unfinished_of_open {sender : SenderState σ} {pipe : Pipe}
    (placed : sender.Placed pipe) (opened : pipe.closed = false) : sender.finished? = none := by
  cases sender with
  | finished task => exact absurd (opened.symm.trans placed) Bool.false_ne_true
  | _ => rfl

theorem ReceiverState.Placed.of_parked {receiver : ReceiverState ρ} {pipe : Pipe}
    (placed : receiver.Placed pipe) (parked : receiver.isParked = true) :
    pipe.closed = false ∧ pipe.content = [] := by
  cases receiver with
  | parked wanted next => exact placed.2
  | _ => exact absurd parked Bool.false_ne_true

theorem ReceiverState.Placed.runs_of_closed {receiver : ReceiverState ρ} {pipe : Pipe}
    (placed : receiver.Placed pipe) (closed : pipe.closed = true) :
    receiver.isParked = false := by
  cases receiver with
  | parked wanted next => exact absurd (placed.2.1.symm.trans closed) Bool.false_ne_true
  | _ => rfl

theorem ReceiverState.Placed.unfinished_of_open {receiver : ReceiverState ρ} {pipe : Pipe}
    (placed : receiver.Placed pipe) (opened : pipe.closed = false) :
    receiver.finished? = none := by
  cases receiver with
  | finished task => exact absurd (opened.symm.trans placed) Bool.false_ne_true
  | _ => rfl

theorem SenderState.Placed.wake {sender : SenderState σ} {before after : Pipe}
    (placed : sender.Placed before) (closes : before.closed = true → after.closed = true) :
    sender.wake.Placed after := by
  cases sender with
  | ready => trivial
  | awake => trivial
  | parked => trivial
  | finished => exact closes placed

theorem ReceiverState.Placed.wake {receiver : ReceiverState ρ} {before after : Pipe}
    (placed : receiver.Placed before) (closes : before.closed = true → after.closed = true) :
    receiver.wake.Placed after := by
  cases receiver with
  | ready => trivial
  | awake => trivial
  | parked => trivial
  | finished => exact closes placed

theorem SenderState.Placed.lose {sender : SenderState σ} {before after : Pipe} {data : Bytes}
    (placed : sender.Placed before) (sound : before.Sound) (loses : before.Loses data after) :
    (if data.isEmpty then sender else sender.wake).Placed after := by
  by_cases nothing : data = []
  · subst nothing
    have same : after.available = before.available := by
      rw [loses.sound.counted, sound.counted, loses.content_eq, List.nil_append]
    cases sender with
    | ready => trivial
    | awake => trivial
    | parked left queued next =>
        refine ⟨placed.1, loses.closed_eq.trans placed.2.1, ?_⟩
        rw [Full, loses.capacity_eq, same]
        exact placed.2.2
    | finished task => exact loses.closed_eq.trans placed
  · rw [if_neg (by simpa using nothing)]
    exact placed.wake loses.closed_eq.trans

theorem ReceiverState.Placed.gain {receiver : ReceiverState ρ} {before after : Pipe}
    {data : Bytes} (placed : receiver.Placed before) (gains : before.Gains data after) :
    (if data.isEmpty then receiver else receiver.wake).Placed after := by
  by_cases nothing : data = []
  · subst nothing
    have same := gains.content_eq
    rw [List.append_nil] at same
    cases receiver with
    | ready => trivial
    | awake => trivial
    | parked wanted next =>
        exact ⟨placed.1, gains.closed_eq.trans placed.2.1, same.trans placed.2.2⟩
    | finished task => exact gains.closed_eq.trans placed
  · rw [if_neg (by simpa using nothing)]
    exact placed.wake gains.closed_eq.trans

namespace Exchange

structure Sound (exchange : Exchange σ ρ) : Prop where
  pipe : exchange.pipe.Sound
  sender : exchange.sender.Placed exchange.pipe
  receiver : exchange.receiver.Placed exchange.pipe

theorem sound_start {pipe : Pipe} (sound : pipe.Sound) (sendLimit receiveLimit : Option Span)
    (sender : σ) (receiver : ρ) : (start pipe sendLimit receiveLimit sender receiver).Sound :=
  ⟨sound, trivial, trivial⟩

theorem Sound.oneWaits {exchange : Exchange σ ρ} (sound : exchange.Sound) :
    ¬(exchange.sender.isParked = true ∧ exchange.receiver.isParked = true) := by
  rintro ⟨senderParked, receiverParked⟩
  have empty := (sound.receiver.of_parked receiverParked).2
  have runs := sound.sender.runs_of_empty sound.pipe empty
  exact absurd (runs.symm.trans senderParked) Bool.false_ne_true

@[simp] theorem closed_close (exchange : Exchange σ ρ) : exchange.close.pipe.closed = true := by
  unfold close
  split
  · assumption
  · rfl

@[simp] theorem capacity_close (exchange : Exchange σ ρ) :
    exchange.close.pipe.capacity = exchange.pipe.capacity := by
  unfold close
  split <;> rfl

@[simp] theorem content_close (exchange : Exchange σ ρ) :
    exchange.close.pipe.content = exchange.pipe.content := by
  unfold close
  split <;> rfl

theorem receiver_close (exchange : Exchange σ ρ) :
    exchange.close.receiver = exchange.receiver ∨
      exchange.close.receiver = exchange.receiver.wake := by
  unfold close
  split
  · exact .inl rfl
  · exact .inr rfl

theorem sender_close (exchange : Exchange σ ρ) :
    exchange.close.sender = exchange.sender ∨
      exchange.close.sender = exchange.sender.wake := by
  unfold close
  split
  · exact .inl rfl
  · exact .inr rfl

theorem receiver_runSend (exchange : Exchange σ ρ) (left : Bytes) (queued : Nat)
    (next : Except Fault Nat → σ) (expired : Bool) :
    (exchange.runSend left queued next expired).exchange.receiver = exchange.receiver ∨
      (exchange.runSend left queued next expired).exchange.receiver =
        exchange.receiver.wake := by
  simp only [runSend]
  split
  · exact .inl rfl
  · exact .inr rfl

theorem sender_runReceive (exchange : Exchange σ ρ) (wanted : Nat)
    (next : Except Fault Bytes → ρ) (expired : Bool) :
    (exchange.runReceive wanted next expired).exchange.sender = exchange.sender ∨
      (exchange.runReceive wanted next expired).exchange.sender = exchange.sender.wake := by
  simp only [runReceive]
  split
  · exact .inl rfl
  · exact .inr rfl

theorem Sound.close {exchange : Exchange σ ρ} (sound : exchange.Sound) :
    exchange.close.Sound := by
  unfold Exchange.close
  split
  · exact sound
  · exact ⟨sound.pipe.close, sound.sender.wake fun _ => rfl, sound.receiver.wake fun _ => rfl⟩

/-- One step or more keep an exchange sound, lose no byte and leave a closed pipe closed. -/
structure Keeps (exchange : Exchange σ ρ) (stepped : Stepped σ ρ) : Prop where
  sound : stepped.exchange.Sound
  conserved : exchange.pipe.content ++ stepped.queued =
    stepped.delivered ++ stepped.exchange.pipe.content
  capacity_eq : stepped.exchange.pipe.capacity = exchange.pipe.capacity
  staysClosed : exchange.pipe.closed = true → stepped.exchange.pipe.closed = true

theorem Sound.runSend {exchange : Exchange σ ρ} (sound : exchange.Sound) (left : Bytes)
    (queued : Nat) (next : Except Fault Nat → σ) (expired : Bool) :
    exchange.Keeps (exchange.runSend left queued next expired) := by
  have outcome := sendStretch_outcome sound.pipe left queued exchange.sendLimit expired
  unfold Exchange.runSend
  generalize exchange.pipe.sendStretch left queued exchange.sendLimit expired = stretch at outcome
  cases outcome with
  | whole gains =>
      exact ⟨⟨gains.sound, trivial, sound.receiver.gain gains⟩, gains.content_eq.symm,
        gains.capacity_eq, gains.closed_eq.trans⟩
  | refused some' closed =>
      exact ⟨⟨sound.pipe, trivial, sound.receiver⟩, List.append_nil _, rfl, id⟩
  | stuck split more opened gains full =>
      refine ⟨⟨gains.sound, ?_, sound.receiver.gain gains⟩, gains.content_eq.symm,
        gains.capacity_eq, gains.closed_eq.trans⟩
      unfold awaitRoom
      cases expired with
      | true =>
          rw [if_pos rfl]
          split <;> trivial
      | false => exact ⟨more, gains.closed_eq.trans opened, full⟩

theorem Sound.runReceive {exchange : Exchange σ ρ} (sound : exchange.Sound) (wanted : Nat)
    (next : Except Fault Bytes → ρ) (expired : Bool) :
    exchange.Keeps (exchange.runReceive wanted next expired) := by
  have outcome := receiveStretch_outcome sound.pipe wanted exchange.receiveLimit expired
  unfold Exchange.runReceive
  generalize exchange.pipe.receiveStretch wanted exchange.receiveLimit expired = stretch
    at outcome
  cases outcome with
  | gives loses count nothing =>
      refine ⟨⟨loses.sound, sound.sender.lose sound.pipe loses, trivial⟩, ?_,
        loses.capacity_eq, loses.closed_eq.trans⟩
      rw [List.append_nil]
      exact loses.content_eq
  | expires asked empty opened expiry =>
      exact ⟨⟨sound.pipe, sound.sender, trivial⟩, List.append_nil _, rfl, id⟩
  | waits asked empty opened inTime =>
      exact ⟨⟨sound.pipe, sound.sender, asked, opened, empty⟩, List.append_nil _, rfl, id⟩

/-- A stretch of a send queues the first bytes that are left of its data. Then it waits with
those after them, answers how many were queued in all, or, having queued none now, fails. -/
theorem Sound.runSend_puts {exchange : Exchange σ ρ} (sound : exchange.Sound) (left : Bytes)
    (count : Nat) (next : Except Fault Nat → σ) (expired : Bool) :
    let stepped := exchange.runSend left count next expired
    let queued := count + stepped.queued.length
    ∃ rest, left = stepped.queued ++ rest ∧
      stepped.exchange.pipe.content = exchange.pipe.content ++ stepped.queued ∧
      (stepped.exchange.sender = .parked rest queued next ∨
        stepped.exchange.sender = .ready (next (.ok queued)) ∨
        stepped.queued = [] ∧ ∃ fault, stepped.exchange.sender = .ready (next (.error fault))) := by
  have outcome := sendStretch_outcome sound.pipe left count exchange.sendLimit expired
  unfold Exchange.runSend
  generalize exchange.pipe.sendStretch left count exchange.sendLimit expired = stretch
    at outcome
  cases outcome with
  | whole gains =>
      exact ⟨[], (List.append_nil _).symm, gains.content_eq, .inr (.inl rfl)⟩
  | refused some' closed =>
      exact ⟨left, rfl, (List.append_nil _).symm, .inr (.inr ⟨rfl, _, rfl⟩)⟩
  | @stuck part rest after split more opened gains full =>
      refine ⟨rest, split, gains.content_eq, ?_⟩
      unfold awaitRoom
      cases expired with
      | false => exact .inl rfl
      | true =>
          by_cases none' : count + part.length = 0
          · have nothing : part = [] := List.eq_nil_of_length_eq_zero (by omega)
            exact .inr (.inr ⟨nothing, .timeout (exchange.sendLimit.getD ⟨0⟩), by simp [none']⟩)
          · exact .inr (.inl (by simp [Nat.pos_of_ne_zero none']))

theorem Sound.runReceive_takes {exchange : Exchange σ ρ} (sound : exchange.Sound)
    (wanted : Nat) (next : Except Fault Bytes → ρ) (expired : Bool) :
    let stepped := exchange.runReceive wanted next expired
    let count := min wanted exchange.pipe.available
    stepped.delivered = exchange.pipe.content.take count ∧
      stepped.exchange.pipe.content = exchange.pipe.content.drop count ∧
      (stepped.delivered ≠ [] →
        stepped.exchange.receiver = .ready (next (.ok stepped.delivered))) := by
  have outcome := receiveStretch_outcome sound.pipe wanted exchange.receiveLimit expired
  unfold Exchange.runReceive
  generalize exchange.pipe.receiveStretch wanted exchange.receiveLimit expired = stretch
    at outcome
  cases outcome with
  | @gives piece after loses count nothing =>
      refine ⟨?_, ?_, fun _ => rfl⟩
      · rw [← count, loses.content_eq, List.take_left' rfl]
      · rw [← count, loses.content_eq, List.drop_left' rfl]
  | expires asked empty opened expiry => simp [empty]
  | waits asked empty opened inTime => simp [empty]

theorem keeps_of_close {exchange after : Exchange σ ρ} (sound : after.Sound)
    (same : after.pipe = exchange.close.pipe) : exchange.Keeps (.still after) := by
  refine ⟨sound, ?_, ?_, ?_⟩
  · simp [Stepped.still, same]
  · simp [Stepped.still, same]
  · intro _
    simp [Stepped.still, same]

theorem Steps.keeps [SendTask σ] [ReceiveTask ρ] {exchange : Exchange σ ρ} {event : Event}
    {stepped : Stepped σ ρ} (steps : exchange.Steps event stepped) (sound : exchange.Sound) :
    exchange.Keeps stepped := by
  have closed := sound.close
  cases steps with
  | send inTime inSend => exact sound.runSend ..
  | receive inTime inReceive => exact sound.runReceive ..
  | senderOver inTime ready call =>
      exact keeps_of_close ⟨closed.pipe, closed_close exchange, closed.receiver⟩ rfl
  | senderCloses inTime ready call =>
      exact keeps_of_close ⟨closed.pipe, trivial, closed.receiver⟩ rfl
  | receiverOver inTime ready call =>
      exact keeps_of_close ⟨closed.pipe, closed.sender, closed_close exchange⟩ rfl
  | receiverCloses inTime ready call =>
      exact keeps_of_close ⟨closed.pipe, closed.sender, trivial⟩ rfl
  | wakeSender parked =>
      exact ⟨⟨sound.pipe, sound.sender.wake id, sound.receiver⟩, List.append_nil _, rfl, id⟩
  | wakeReceiver parked =>
      exact ⟨⟨sound.pipe, sound.sender, sound.receiver.wake id⟩, List.append_nil _, rfl, id⟩

theorem Steps.limits_eq [SendTask σ] [ReceiveTask ρ] {exchange : Exchange σ ρ} {event : Event}
    {stepped : Stepped σ ρ} (steps : exchange.Steps event stepped) :
    stepped.exchange.sendLimit = exchange.sendLimit ∧
      stepped.exchange.receiveLimit = exchange.receiveLimit := by
  have closing : exchange.close.sendLimit = exchange.sendLimit ∧
      exchange.close.receiveLimit = exchange.receiveLimit := by
    unfold close
    split <;> exact ⟨rfl, rfl⟩
  cases steps with
  | senderOver => exact closing
  | senderCloses => exact closing
  | receiverOver => exact closing
  | receiverCloses => exact closing
  | _ => exact ⟨rfl, rfl⟩

/-! ## Runs -/

theorem follow?_cons_eq_some_iff [SendTask σ] [ReceiveTask ρ] {exchange : Exchange σ ρ}
    {event : Event} {events : List Event} {last : Stepped σ ρ} :
    exchange.follow? (event :: events) = some last ↔
      ∃ first rest, exchange.Steps event first ∧
        first.exchange.follow? events = some rest ∧
        last = ⟨rest.exchange, first.queued ++ rest.queued,
          first.delivered ++ rest.delivered⟩ := by
  rw [follow?, Option.bind_eq_some_iff]
  simp only [Option.map_eq_some_iff, step?_eq_some_iff]
  constructor
  · rintro ⟨first, steps, rest, later, rfl⟩
    exact ⟨first, rest, steps, later, rfl⟩
  · rintro ⟨first, rest, steps, later, rfl⟩
    exact ⟨first, steps, rest, later, rfl⟩

theorem follow?_preserves [SendTask σ] [ReceiveTask ρ] (Holds : Exchange σ ρ → Prop)
    (keeps : ∀ exchange event stepped, exchange.Steps event stepped → Holds exchange →
      Holds stepped.exchange)
    {exchange : Exchange σ ρ} (holds : Holds exchange) (events : List Event)
    {last : Stepped σ ρ} (followed : exchange.follow? events = some last) :
    Holds last.exchange := by
  induction events generalizing exchange last with
  | nil =>
      cases followed
      exact holds
  | cons event events induction =>
      rcases follow?_cons_eq_some_iff.mp followed with ⟨first, rest, steps, later, rfl⟩
      have kept := induction (keeps _ _ _ steps holds) later
      exact kept

theorem Keeps.andThen {exchange : Exchange σ ρ} {first rest : Stepped σ ρ}
    (keeps : exchange.Keeps first) (later : first.exchange.Keeps rest) :
    exchange.Keeps
      ⟨rest.exchange, first.queued ++ rest.queued, first.delivered ++ rest.delivered⟩ := by
  refine ⟨later.sound, ?_, later.capacity_eq.trans keeps.capacity_eq, ?_⟩
  · rw [← List.append_assoc, keeps.conserved, List.append_assoc, later.conserved,
      List.append_assoc]
  · intro closed
    exact later.staysClosed (keeps.staysClosed closed)

theorem Sound.follow [SendTask σ] [ReceiveTask ρ] {exchange : Exchange σ ρ}
    (sound : exchange.Sound) (events : List Event) {last : Stepped σ ρ}
    (followed : exchange.follow? events = some last) : exchange.Keeps last := by
  induction events generalizing exchange last with
  | nil =>
      cases followed
      exact ⟨sound, List.append_nil _, rfl, id⟩
  | cons event events induction =>
      rcases follow?_cons_eq_some_iff.mp followed with ⟨first, rest, steps, later, rfl⟩
      have keeps := steps.keeps sound
      exact keeps.andThen (induction keeps.sound later)

end Exchange

end Pipe

end ByteStreams
