import ByteStreams.Proofs.Pipe.Answers

/-! # Closed pipes

A pipe that an end has closed or dropped stays closed and only empties. Sends of bytes fail
from then on, whether they wait or begin later, and receives drain what is left. So a
receive that wants bytes and gets none knows that none will come and that it missed none.
-/

namespace ByteStreams

namespace Pipe

variable {σ ρ : Type}

/-! ## Stretches of closed pipes -/

theorem sendStretch_of_closed {pipe : Pipe} (closed : pipe.closed = true) {left : Bytes}
    (some' : left ≠ []) (queued : Nat) (limit : Option Span) (expired : Bool) :
    pipe.sendStretch left queued limit expired = ⟨pipe, [], .answers (.error .closed)⟩ := by
  rw [sendStretch, if_neg (by simpa using some'), if_pos closed]

theorem pushed_of_closed {pipe : Pipe} (closed : pipe.closed = true) (left : Bytes)
    (queued : Nat) (limit : Option Span) (expired : Bool) :
    (pipe.sendStretch left queued limit expired).pushed = [] := by
  by_cases nothing : left = []
  · rw [sendStretch, if_pos (by simpa using nothing)]
  · rw [sendStretch_of_closed closed nothing]

theorem ReceiveOutcome.of_closed {pipe : Pipe} {wanted : Nat} {limit : Option Span}
    {expired : Bool} {stretch : ReceiveStretch}
    (outcome : ReceiveOutcome pipe wanted limit expired stretch) (sound : pipe.Sound)
    (closed : pipe.closed = true) :
    stretch.finish = .answers (.ok (pipe.content.take wanted)) := by
  cases outcome with
  | @gives piece after loses count nothing =>
      rw [sound.counted] at count
      have taken : pipe.content.take wanted = piece := by
        rw [List.take_eq_take_min, ← count, loses.content_eq, List.take_left' rfl]
      rw [taken]
  | expires asked empty opened expiry =>
      exact absurd (opened.symm.trans closed) Bool.false_ne_true
  | waits asked empty opened inTime =>
      exact absurd (opened.symm.trans closed) Bool.false_ne_true

theorem ReceiveOutcome.answers_nothing_iff {pipe : Pipe} {wanted : Nat} {limit : Option Span}
    {expired : Bool} {stretch : ReceiveStretch}
    (outcome : ReceiveOutcome pipe wanted limit expired stretch) (asked : wanted ≠ 0) :
    stretch.finish.answer? = some (.ok []) ↔ pipe.closed = true ∧ pipe.content = [] := by
  cases outcome with
  | @gives piece after loses count nothing =>
      rw [ReceiveEnd.answer?, Option.some.injEq, Except.ok.injEq]
      constructor
      · intro none'
        rcases nothing none' with none'' | ⟨empty, closed⟩
        · exact absurd none'' asked
        · exact ⟨closed, empty⟩
      · rintro ⟨-, empty⟩
        rw [loses.content_eq] at empty
        exact (List.append_eq_nil_iff.mp empty).1
  | expires _ empty opened expiry => simp [ReceiveEnd.answer?, opened]
  | waits _ empty opened inTime => simp [ReceiveEnd.answer?, opened]

/-! ## Sends that were begun -/

def SenderState.HasLeft : SenderState σ → Prop
  | .awake left _ _ | .parked left _ _ => left ≠ []
  | .ready _ | .finished _ => True

theorem SenderState.HasLeft.wake {sender : SenderState σ} (hasLeft : sender.HasLeft) :
    sender.wake.HasLeft := by
  cases sender <;> exact hasLeft

theorem SenderState.HasLeft.of_awake {sender : SenderState σ} (hasLeft : sender.HasLeft)
    {left : Bytes} {queued : Nat} {next : Except Fault Nat → σ}
    (awake : sender = .awake left queued next) : left ≠ [] := by
  subst awake
  exact hasLeft

namespace Exchange

theorem hasLeft_close {exchange : Exchange σ ρ} (hasLeft : exchange.sender.HasLeft) :
    exchange.close.sender.HasLeft := by
  rw [close]
  split
  · exact hasLeft
  · exact hasLeft.wake

theorem close_of_closed {exchange : Exchange σ ρ} (closed : exchange.pipe.closed = true) :
    exchange.close = exchange :=
  if_pos closed

theorem runSend_of_closed {exchange : Exchange σ ρ} (closed : exchange.pipe.closed = true)
    {left : Bytes} (some' : left ≠ []) (queued : Nat) (next : Except Fault Nat → σ)
    (expired : Bool) :
    exchange.runSend left queued next expired =
      .still { exchange with sender := .ready (next (.error .closed)) } := by
  rw [runSend, sendStretch_of_closed closed some']
  rfl

theorem Sound.closed_runSend {exchange : Exchange σ ρ} (sound : exchange.Sound) (left : Bytes)
    (queued : Nat) (next : Except Fault Nat → σ) (expired : Bool) :
    (exchange.runSend left queued next expired).exchange.pipe.closed = exchange.pipe.closed := by
  have outcome := sendStretch_outcome sound.pipe left queued exchange.sendLimit expired
  rw [Exchange.runSend]
  generalize exchange.pipe.sendStretch left queued exchange.sendLimit expired = stretch at outcome
  cases outcome with
  | whole gains => exact gains.closed_eq
  | refused => rfl
  | stuck split more opened gains full => exact gains.closed_eq

theorem Sound.closed_runReceive {exchange : Exchange σ ρ} (sound : exchange.Sound)
    (wanted : Nat) (next : Except Fault Bytes → ρ) (expired : Bool) :
    (exchange.runReceive wanted next expired).exchange.pipe.closed = exchange.pipe.closed := by
  have outcome := receiveStretch_outcome sound.pipe wanted exchange.receiveLimit expired
  rw [Exchange.runReceive]
  generalize exchange.pipe.receiveStretch wanted exchange.receiveLimit expired = stretch
    at outcome
  cases outcome with
  | gives loses => exact loses.closed_eq
  | expires => rfl
  | waits => rfl

theorem Sound.hasLeft_runSend {exchange : Exchange σ ρ} (sound : exchange.Sound) (left : Bytes)
    (queued : Nat) (next : Except Fault Nat → σ) (expired : Bool) :
    (exchange.runSend left queued next expired).exchange.sender.HasLeft := by
  have outcome := sendStretch_outcome sound.pipe left queued exchange.sendLimit expired
  rw [Exchange.runSend]
  generalize exchange.pipe.sendStretch left queued exchange.sendLimit expired = stretch at outcome
  cases outcome with
  | whole => trivial
  | refused => trivial
  | stuck split more opened gains full =>
      cases expired with
      | true =>
          rw [awaitRoom, if_pos rfl]
          split <;> trivial
      | false => exact more

variable [SendTask σ] [ReceiveTask ρ]

theorem Steps.hasLeft {exchange : Exchange σ ρ} {event : Event} {stepped : Stepped σ ρ}
    (steps : exchange.Steps event stepped) (sound : exchange.Sound)
    (hasLeft : exchange.sender.HasLeft) : stepped.exchange.sender.HasLeft := by
  cases steps with
  | send inTime inSend => exact sound.hasLeft_runSend ..
  | senderOver inTime ready call => trivial
  | senderCloses inTime ready call => trivial
  | receive inTime inReceive =>
      rw [runReceive]
      simp only
      split
      · exact hasLeft
      · exact hasLeft.wake
  | receiverOver inTime ready call => exact hasLeft_close hasLeft
  | receiverCloses inTime ready call => exact hasLeft_close hasLeft
  | wakeSender parked => exact hasLeft.wake
  | wakeReceiver parked => exact hasLeft

theorem Sound.hasLeft_of_follow {exchange : Exchange σ ρ} (sound : exchange.Sound)
    (hasLeft : exchange.sender.HasLeft) (events : List Event) {last : Stepped σ ρ}
    (followed : exchange.follow? events = some last) : last.exchange.sender.HasLeft := by
  have both : last.exchange.Sound ∧ last.exchange.sender.HasLeft := by
    refine follow?_preserves (fun exchange => exchange.Sound ∧ exchange.sender.HasLeft) ?_
      ⟨sound, hasLeft⟩ events followed
    rintro exchange event stepped steps ⟨sound, hasLeft⟩
    exact ⟨(steps.keeps sound).sound, steps.hasLeft sound hasLeft⟩
  exact both.2

/-! ## Steps with a closed pipe -/

theorem Steps.queued_of_closed {exchange : Exchange σ ρ} {event : Event}
    {stepped : Stepped σ ρ} (steps : exchange.Steps event stepped)
    (closed : exchange.pipe.closed = true) : stepped.queued = [] := by
  cases steps with
  | send inTime inSend => exact pushed_of_closed closed ..
  | _ => rfl

theorem Steps.receiveAnswer_of_closed {exchange : Exchange σ ρ} {event : Event}
    {stepped : Stepped σ ρ} (steps : exchange.Steps event stepped) (sound : exchange.Sound)
    (closed : exchange.pipe.closed = true) {answer : Except Fault Bytes}
    (answers : answer ∈ exchange.receiveAnswer? event) : ∃ piece, answer = .ok piece := by
  cases steps with
  | @receive expired wanted next inTime inReceive =>
      have outcome := receiveStretch_outcome sound.pipe wanted exchange.receiveLimit expired
      rw [receiveAnswer?_eq inReceive, outcome.of_closed sound.pipe closed] at answers
      exact ⟨_, (Option.some.inj answers).symm⟩
  | receiverOver inTime ready call => simp [receiveAnswer?_of_done ready call] at answers
  | receiverCloses inTime ready call => simp [receiveAnswer?_of_close ready call] at answers
  | _ => cases answers

theorem Steps.closed_eq_or_closes {exchange : Exchange σ ρ} {event : Event}
    {stepped : Stepped σ ρ} (steps : exchange.Steps event stepped) (sound : exchange.Sound) :
    stepped.exchange.pipe.closed = exchange.pipe.closed ∨ exchange.Closes event := by
  cases steps with
  | send inTime inSend => exact .inl (sound.closed_runSend ..)
  | senderOver inTime ready call => exact .inr (.sender ready (.inl call))
  | senderCloses inTime ready call => exact .inr (.sender ready (.inr ⟨_, call⟩))
  | receive inTime inReceive => exact .inl (sound.closed_runReceive ..)
  | receiverOver inTime ready call => exact .inr (.receiver ready (.inl call))
  | receiverCloses inTime ready call => exact .inr (.receiver ready (.inr ⟨_, call⟩))
  | wakeSender parked => exact .inl rfl
  | wakeReceiver parked => exact .inl rfl

theorem Steps.still_of_closes {exchange : Exchange σ ρ} {event : Event}
    {stepped : Stepped σ ρ} (steps : exchange.Steps event stepped)
    (closes : exchange.Closes event) : stepped.queued = [] ∧ stepped.delivered = [] := by
  cases closes with
  | sender ready call =>
      have inTime := steps.sender_inTime
      rcases call with done | ⟨next, closing⟩
      · rw [steps.unique (.senderOver inTime ready done)]
        exact ⟨rfl, rfl⟩
      · rw [steps.unique (.senderCloses inTime ready closing)]
        exact ⟨rfl, rfl⟩
  | receiver ready call =>
      have inTime := steps.receiver_inTime
      rcases call with done | ⟨next, closing⟩
      · rw [steps.unique (.receiverOver inTime ready done)]
        exact ⟨rfl, rfl⟩
      · rw [steps.unique (.receiverCloses inTime ready closing)]
        exact ⟨rfl, rfl⟩

theorem Steps.closes_again {exchange : Exchange σ ρ} {event : Event} {stepped : Stepped σ ρ}
    (steps : exchange.Steps event stepped) (closed : exchange.pipe.closed = true)
    (closes : exchange.Closes event) :
    (∃ sender, stepped = .still { exchange with sender := sender }) ∨
      ∃ receiver, stepped = .still { exchange with receiver := receiver } := by
  cases steps with
  | senderOver inTime ready call =>
      rw [close_of_closed closed]
      exact .inl ⟨_, rfl⟩
  | senderCloses inTime ready call =>
      rw [close_of_closed closed]
      exact .inl ⟨_, rfl⟩
  | receiverOver inTime ready call =>
      rw [close_of_closed closed]
      exact .inr ⟨_, rfl⟩
  | receiverCloses inTime ready call =>
      rw [close_of_closed closed]
      exact .inr ⟨_, rfl⟩
  | send inTime inSend =>
      -- A send closes nothing.
      cases closes with
      | sender ready call =>
          rw [ready] at inSend
          cases inSend with
          | begins sends => simp [sends] at call
  | receive inTime inReceive =>
      cases closes with
      | receiver ready call =>
          rw [ready] at inReceive
          cases inReceive with
          | begins receives => simp [receives] at call
  | wakeSender parked => cases closes
  | wakeReceiver parked => cases closes

/-! ## Schedules with a closed pipe -/

theorem queued_of_closed {exchange : Exchange σ ρ} (sound : exchange.Sound)
    (closed : exchange.pipe.closed = true) (events : List Event) {last : Stepped σ ρ}
    (followed : exchange.follow? events = some last) : last.queued = [] := by
  induction events generalizing exchange last with
  | nil =>
      cases followed
      rfl
  | cons event events induction =>
      rcases follow?_cons_eq_some_iff.mp followed with ⟨first, rest, steps, later, rfl⟩
      have keeps := steps.keeps sound
      rw [steps.queued_of_closed closed, induction keeps.sound (keeps.staysClosed closed) later,
        List.append_nil]

theorem receiveAnswers_of_closed {exchange : Exchange σ ρ} (sound : exchange.Sound)
    (closed : exchange.pipe.closed = true) (events : List Event) {last : Stepped σ ρ}
    (followed : exchange.follow? events = some last) :
    ∀ answer ∈ exchange.receiveAnswers events, ∃ piece, answer = .ok piece := by
  induction events generalizing exchange last with
  | nil =>
      intro answer among
      cases among
  | cons event events induction =>
      rcases follow?_cons_eq_some_iff.mp followed with ⟨first, rest, steps, later, rfl⟩
      have keeps := steps.keeps sound
      intro answer among
      rw [receiveAnswers_cons steps, List.mem_append, Option.mem_toList] at among
      rcases among with now | among
      · exact steps.receiveAnswer_of_closed sound closed now
      · exact induction keeps.sound (keeps.staysClosed closed) later answer among

/-- What a schedule leads to from a closed pipe. -/
structure Stepped.Drained (closing : Exchange σ ρ) (events : List Event)
    (later : Stepped σ ρ) : Prop where
  staysClosed : later.exchange.pipe.closed = true
  queued_eq : later.queued = []
  empties :
    later.exchange.pipe.available + later.delivered.length = closing.pipe.available
  /-- Neither thread waits, so each one goes on until it has finished. -/
  senderGoesOn : later.exchange.sender.finished? = none →
    (later.exchange.step? (.sender false)).isSome
  receiverGoesOn : later.exchange.receiver.finished? = none →
    (later.exchange.step? (.receiver false)).isSome
  begun : ∀ left count next, later.exchange.sender = .awake left count next → left ≠ []
  refuses : ∀ left count next, later.exchange.sender.InSend left count next → left ≠ [] →
    ∀ expired stepped, later.exchange.step? (.sender expired) = some stepped →
      later.exchange.sendAnswer? (.sender expired) = some (.error .closed) ∧
        stepped = .still { later.exchange with sender := .ready (next (.error .closed)) }
  closesAgain : ∀ event stepped, later.exchange.Closes event →
    later.exchange.step? event = some stepped →
      (∃ sender, stepped = .still { later.exchange with sender := sender }) ∨
        ∃ receiver, stepped = .still { later.exchange with receiver := receiver }
  gives : ∀ wanted next, later.exchange.receiver.InReceive wanted next → ∀ expired,
    later.exchange.receiveAnswer? (.receiver expired) =
      some (.ok (later.exchange.pipe.content.take wanted))
  neverFails : ∀ answer ∈ closing.receiveAnswers events, ∃ piece, answer = .ok piece

theorem Sound.drained {closing : Exchange σ ρ} (sound : closing.Sound)
    (hasLeft : closing.sender.HasLeft) (wasClosed : closing.pipe.closed = true)
    (events : List Event) {later : Stepped σ ρ}
    (followed : closing.follow? events = some later) : later.Drained closing events := by
  have keeps := sound.follow events followed
  have closed := keeps.staysClosed wasClosed
  have noneQueued := queued_of_closed sound wasClosed events followed
  refine ⟨closed, noneQueued, ?_, ?_, ?_, ?_, ?_, ?_, ?_, ?_⟩
  · have conserved := keeps.conserved
    rw [noneQueued, List.append_nil] at conserved
    rw [keeps.sound.pipe.counted, sound.pipe.counted, conserved, List.length_append]
    omega
  · exact isSome_step?_sender (keeps.sound.sender.runs_of_closed closed)
  · exact isSome_step?_receiver (keeps.sound.receiver.runs_of_closed closed)
  · intro left count next awake
    exact (sound.hasLeft_of_follow hasLeft events followed).of_awake awake
  · intro left count next inSend some' expired stepped happens
    rw [(step?_eq_some_iff.mp happens).eq_runSend inSend, sendAnswer?_eq inSend,
      sendStretch_of_closed closed some']
    exact ⟨rfl, runSend_of_closed closed some' ..⟩
  · intro event stepped closes happens
    exact (step?_eq_some_iff.mp happens).closes_again closed closes
  · intro wanted next inReceive expired
    have outcome := receiveStretch_outcome keeps.sound.pipe wanted
      later.exchange.receiveLimit expired
    rw [receiveAnswer?_eq inReceive, outcome.of_closed keeps.sound.pipe closed]
    rfl
  · exact receiveAnswers_of_closed sound wasClosed events followed

theorem Sound.nothing_after_end {ending : Exchange σ ρ} (sound : ending.Sound)
    (closed : ending.pipe.closed = true) (empty : ending.pipe.content = [])
    (events : List Event) {later : Stepped σ ρ}
    (followed : ending.follow? events = some later) :
    later.queued = [] ∧ later.delivered = [] ∧
      ∀ answer ∈ ending.receiveAnswers events, answer = .ok [] := by
  have noneQueued := queued_of_closed sound closed events followed
  have conserved := (sound.follow events followed).conserved
  rw [noneQueued, empty, List.append_nil] at conserved
  have noneDelivered := (List.append_eq_nil_iff.mp conserved.symm).1
  refine ⟨noneQueued, noneDelivered, ?_⟩
  intro answer among
  have none' := sound.delivered_eq events followed
  rw [noneDelivered, eq_comm, List.flatMap_eq_nil_iff] at none'
  rcases receiveAnswers_of_closed sound closed events followed answer among with ⟨piece, rfl⟩
  have nothing : piece = [] := none' _ among
  rw [nothing]

/-- What a schedule leads to if a closed pipe drains and a receive that gets nothing has
missed nothing. -/
structure Stepped.Drains (first : Exchange σ ρ) (events : List Event)
    (last : Stepped σ ρ) : Prop where
  closes : ∀ event stepped, last.exchange.Closes event →
    last.exchange.step? event = some stepped → stepped.exchange.pipe.closed = true
  drained : last.exchange.pipe.closed = true → ∀ afterwards later,
    last.exchange.follow? afterwards = some later → later.Drained last.exchange afterwards
  received : last.delivered = (first.receiveAnswers events).flatMap receivedBytes
  ends : ∀ wanted next, last.exchange.receiver.InReceive wanted next → wanted ≠ 0 →
    ∀ expired, last.exchange.receiveAnswer? (.receiver expired) = some (.ok []) ↔
      last.exchange.pipe.closed = true ∧ last.delivered = last.queued
  ended : last.exchange.pipe.closed = true → last.delivered = last.queued →
    ∀ afterwards later, last.exchange.follow? afterwards = some later →
      later.queued = [] ∧ later.delivered = [] ∧
        ∀ answer ∈ last.exchange.receiveAnswers afterwards, answer = .ok []
  /-- What came before the end is all that is ever queued, however it goes on. -/
  complete : ∀ wanted next, last.exchange.receiver.InReceive wanted next → wanted ≠ 0 →
    ∀ expired, last.exchange.receiveAnswer? (.receiver expired) = some (.ok []) →
      ∀ afterwards later, last.exchange.follow? afterwards = some later →
        (first.receiveAnswers events).flatMap receivedBytes = last.queued ++ later.queued

/-- Whatever two threads do and in whatever order, a closed pipe only drains: sends fail,
receives do not, and the end is reported when every byte that was ever queued has come. -/
theorem closed_pipe_drains {capacity : Option Nat} (usable : capacity ≠ some 0)
    (sendLimit receiveLimit : Option Span) (sender : σ) (receiver : ρ) :
    ∃ pipe, create capacity = .ok pipe ∧
      ∀ events last,
        (start pipe sendLimit receiveLimit sender receiver).follow? events = some last →
        last.Drains (start pipe sendLimit receiveLimit sender receiver) events := by
  refine ⟨empty capacity, create_of_usable usable, ?_⟩
  intro events last followed
  have keeps := keeps_of_follow usable followed
  have sound := keeps.sound
  have started := sound_start (sound_empty usable) sendLimit receiveLimit sender receiver
  have hasLeft := started.hasLeft_of_follow trivial events followed
  have received := started.delivered_eq events followed
  have conserved : last.queued = last.delivered ++ last.exchange.pipe.content :=
    keeps.conserved
  have drained_iff : last.exchange.pipe.content = [] ↔ last.delivered = last.queued := by
    rw [conserved, List.self_eq_append_right]
  have ended : last.exchange.pipe.closed = true → last.delivered = last.queued →
      ∀ afterwards later, last.exchange.follow? afterwards = some later →
        later.queued = [] ∧ later.delivered = [] ∧
          ∀ answer ∈ last.exchange.receiveAnswers afterwards, answer = .ok [] := by
    intro closed all afterwards later followed
    exact sound.nothing_after_end closed (drained_iff.mpr all) afterwards followed
  have ends : ∀ wanted next, last.exchange.receiver.InReceive wanted next → wanted ≠ 0 →
      ∀ expired, last.exchange.receiveAnswer? (.receiver expired) = some (.ok []) ↔
        last.exchange.pipe.closed = true ∧ last.delivered = last.queued := by
    intro wanted next inReceive asked expired
    have outcome := receiveStretch_outcome sound.pipe wanted last.exchange.receiveLimit expired
    rw [receiveAnswer?_eq inReceive, outcome.answers_nothing_iff asked, drained_iff]
  refine ⟨?_, ?_, received, ends, ended, ?_⟩
  · intro event stepped closes happens
    exact (step?_eq_some_iff.mp happens).closed_of_closes closes
  · intro closed afterwards later followed
    exact sound.drained hasLeft closed afterwards followed
  · intro wanted next inReceive asked expired answers afterwards later followed
    rcases (ends wanted next inReceive asked expired).mp answers with ⟨closed, all⟩
    rw [← received, (ended closed all afterwards later followed).1, all, List.append_nil]

/-- The receiver closes its end while the sender waits, and takes the part that was queued by
the send that fails. -/
theorem closed_pipe_drains_cut_send :
    let sender : Sending Unit := .send [1, 2, 3, 4, 5] fun _ => .done ()
    let receiver : Receiving Unit :=
      .close (.receive 9 fun _ => .receive 9 fun _ => .done ())
    let events : List Event :=
      [.sender false, .receiver false, .sender false, .receiver false]
    ∃ pipe last, create (some 3) = .ok pipe ∧
      (start pipe none none sender receiver).follow? events = some last ∧
      last.queued = [1, 2, 3] ∧
      (start pipe none none sender receiver).sendAnswers events = [.error .closed] ∧
      (start pipe none none sender receiver).receiveAnswers events = [.ok [1, 2, 3]] ∧
      last.exchange.receiveAnswer? (.receiver false) = some (.ok []) ∧
      last.Drains (start pipe none none sender receiver) events := by
  intro sender receiver events
  have usable : (some 3 : Option Nat) ≠ some 0 := by decide
  rcases closed_pipe_drains usable none none sender receiver with ⟨pipe, created, always⟩
  cases created
  have moves : ((start (empty (some 3)) none none sender receiver).follow? events).map
      (fun last => (last.queued, last.exchange.receiveAnswer? (.receiver false))) =
        some ([1, 2, 3], some (.ok [])) := by rfl
  rcases Option.map_eq_some_iff.mp moves with ⟨last, followed, moved⟩
  simp only [Prod.mk.injEq] at moved
  refine ⟨_, last, rfl, followed, moved.1, ?_, ?_, moved.2, always _ last followed⟩
  · rfl
  · rfl

end Exchange

end Pipe

end ByteStreams
