import ByteStreams.Proofs.Pipe.Steps

/-! # Whatever the schedule is

What holds of two threads at the ends of a pipe whatever their tasks do, however long
they may wait, and in whatever order they step. Bytes come out as they went in, and
there are never more in between than the pipe may hold. A thread waits only while it
has a reason to, so one of the two can always go on until both have finished.
-/

namespace ByteStreams

namespace Pipe

variable {σ ρ : Type} [SendTask σ] [ReceiveTask ρ]

namespace Exchange

theorem keeps_of_follow {capacity : Option Nat} (usable : capacity ≠ some 0)
    {sendLimit receiveLimit : Option Span} {sender : σ} {receiver : ρ} {events : List Event}
    {last : Stepped σ ρ}
    (followed : (start (empty capacity) sendLimit receiveLimit sender receiver).follow? events =
      some last) :
    (start (empty capacity) sendLimit receiveLimit sender receiver).Keeps last :=
  (sound_start (sound_empty usable) ..).follow events followed

/-! ## Bytes in order -/

theorem Steps.queues {exchange : Exchange σ ρ} {event : Event} {stepped : Stepped σ ρ}
    (steps : exchange.Steps event stepped) (some' : stepped.queued ≠ []) :
    ∃ expired left count next, event = .sender expired ∧
      exchange.sender.InSend left count next := by
  cases steps with
  | send inTime inSend => exact ⟨_, _, _, _, rfl, inSend⟩
  | _ => exact absurd rfl some'

theorem Steps.delivers {exchange : Exchange σ ρ} {event : Event} {stepped : Stepped σ ρ}
    (steps : exchange.Steps event stepped) (some' : stepped.delivered ≠ []) :
    ∃ expired wanted next, event = .receiver expired ∧
      exchange.receiver.InReceive wanted next := by
  cases steps with
  | receive inTime inReceive => exact ⟨_, _, _, rfl, inReceive⟩
  | _ => exact absurd rfl some'

/-- What a schedule leads to if bytes come out of a pipe as they went in. -/
structure Stepped.InOrder (capacity : Option Nat) (last : Stepped σ ρ) : Prop where
  conserved : last.queued = last.delivered ++ last.exchange.pipe.content
  counted : last.exchange.pipe.available = last.exchange.pipe.content.length
  capacity_eq : last.exchange.pipe.capacity = capacity
  within : ∀ most, capacity = some most → last.exchange.pipe.available ≤ most
  /-- What a receive takes off the count of bytes is no more than the count. -/
  drained : ∀ wanted, (last.exchange.pipe.drain wanted).1.length ≤ last.exchange.pipe.available
  queues : ∀ event stepped, last.exchange.step? event = some stepped → stepped.queued ≠ [] →
    ∃ expired left count next, event = .sender expired ∧
      last.exchange.sender.InSend left count next
  puts : ∀ expired stepped left count next, last.exchange.sender.InSend left count next →
    last.exchange.step? (.sender expired) = some stepped →
    let queued := count + stepped.queued.length
    ∃ rest, left = stepped.queued ++ rest ∧
      stepped.exchange.pipe.content = last.exchange.pipe.content ++ stepped.queued ∧
      (stepped.exchange.sender = .parked rest queued next ∨
        stepped.exchange.sender = .ready (next (.ok queued)) ∨
        stepped.queued = [] ∧ ∃ fault, stepped.exchange.sender = .ready (next (.error fault)))
  delivers : ∀ event stepped, last.exchange.step? event = some stepped →
    stepped.delivered ≠ [] →
    ∃ expired wanted next, event = .receiver expired ∧
      last.exchange.receiver.InReceive wanted next
  takes : ∀ expired stepped wanted next, last.exchange.receiver.InReceive wanted next →
    last.exchange.step? (.receiver expired) = some stepped →
    let count := min wanted last.exchange.pipe.available
    stepped.delivered = last.exchange.pipe.content.take count ∧
      stepped.exchange.pipe.content = last.exchange.pipe.content.drop count ∧
      (stepped.delivered ≠ [] →
        stepped.exchange.receiver = .ready (next (.ok stepped.delivered)))

/-- Whatever two threads do and in whatever order, the bytes that were queued are those that
were delivered and then those in the pipe, which are never more than it may hold. -/
theorem schedule_keeps_order {capacity : Option Nat} (usable : capacity ≠ some 0)
    (sendLimit receiveLimit : Option Span) (sender : σ) (receiver : ρ) :
    ∃ pipe, create capacity = .ok pipe ∧
      ∀ events last,
        (start pipe sendLimit receiveLimit sender receiver).follow? events = some last →
        last.InOrder capacity := by
  refine ⟨empty capacity, create_of_usable usable, ?_⟩
  intro events last followed
  have keeps := keeps_of_follow usable followed
  have sound := keeps.sound
  refine ⟨keeps.conserved, sound.pipe.counted, keeps.capacity_eq, ?_, ?_, ?_, ?_, ?_, ?_⟩
  · intro most bounded
    exact sound.pipe.within most (keeps.capacity_eq.trans bounded)
  · intro wanted
    rw [(sound.pipe.loses_drain wanted).2, sound.pipe.counted]
    exact List.length_take_le' ..
  · intro event stepped happens
    exact (step?_eq_some_iff.mp happens).queues
  · intro expired stepped left count next inSend happens
    rw [(step?_eq_some_iff.mp happens).eq_runSend inSend]
    exact sound.runSend_puts left count next expired
  · intro event stepped happens
    exact (step?_eq_some_iff.mp happens).delivers
  · intro expired stepped wanted next inReceive happens
    rw [(step?_eq_some_iff.mp happens).eq_runReceive inReceive]
    exact sound.runReceive_takes wanted next expired

/-- The sender waits once, and a receive takes a part of what it queued before that. -/
theorem schedule_keeps_order_through_three_bytes :
    let sender : Sending Unit := .send [1, 2, 3, 4, 5] fun _ => .done ()
    let receiver : Receiving Unit := .receive 2 fun _ => .receive 9 fun _ => .done ()
    ∃ pipe last, create (some 3) = .ok pipe ∧
      (start pipe none none sender receiver).follow?
        [.sender false, .receiver false, .sender false] = some last ∧
      last.queued = [1, 2, 3, 4, 5] ∧ last.delivered = [1, 2] ∧
      last.exchange.pipe.content = [3, 4, 5] ∧ last.InOrder (some 3) := by
  intro sender receiver
  have usable : (some 3 : Option Nat) ≠ some 0 := by decide
  rcases schedule_keeps_order usable none none sender receiver with ⟨pipe, created, always⟩
  cases created
  have moves : ((start (empty (some 3)) none none sender receiver).follow?
      [.sender false, .receiver false, .sender false]).map (fun last =>
        (last.queued, last.delivered, last.exchange.pipe.content)) =
      some ([1, 2, 3, 4, 5], [1, 2], [3, 4, 5]) := by decide +kernel
  rcases Option.map_eq_some_iff.mp moves with ⟨last, followed, moved⟩
  simp only [Prod.mk.injEq] at moved
  exact ⟨_, last, rfl, followed, moved.1, moved.2.1, moved.2.2, always _ last followed⟩

/-! ## Waiting -/

/-- A thread closes its end in an event, or drops it because its task is over. -/
inductive Closes (exchange : Exchange σ ρ) : Event → Prop
  | sender {expired : Bool} {task : σ} (ready : exchange.sender = .ready task)
      (call : SendTask.call task = .done ∨ ∃ next, SendTask.call task = .close next) :
      Closes exchange (.sender expired)
  | receiver {expired : Bool} {task : ρ} (ready : exchange.receiver = .ready task)
      (call : ReceiveTask.call task = .done ∨ ∃ next, ReceiveTask.call task = .close next) :
      Closes exchange (.receiver expired)

theorem Steps.closed_of_closes {exchange : Exchange σ ρ} {event : Event}
    {stepped : Stepped σ ρ} (steps : exchange.Steps event stepped)
    (closes : exchange.Closes event) : stepped.exchange.pipe.closed = true := by
  -- The event closes the pipe in the one way it can happen, so that is what this step did.
  cases closes with
  | sender ready call =>
      have inTime := steps.sender_inTime
      rcases call with done | ⟨next, closing⟩
      · rw [steps.unique (.senderOver inTime ready done)]
        exact closed_close exchange
      · rw [steps.unique (.senderCloses inTime ready closing)]
        exact closed_close exchange
  | receiver ready call =>
      have inTime := steps.receiver_inTime
      rcases call with done | ⟨next, closing⟩
      · rw [steps.unique (.receiverOver inTime ready done)]
        exact closed_close exchange
      · rw [steps.unique (.receiverCloses inTime ready closing)]
        exact closed_close exchange

theorem Steps.isSome {exchange : Exchange σ ρ} {event : Event} {stepped : Stepped σ ρ}
    (steps : exchange.Steps event stepped) : (exchange.step? event).isSome :=
  Option.isSome_of_eq_some (step?_eq_some_iff.mpr steps)

theorem isSome_step?_sender {exchange : Exchange σ ρ}
    (runs : exchange.sender.isParked = false) (unfinished : exchange.sender.finished? = none) :
    (exchange.step? (.sender false)).isSome := by
  have inTime : false = true → mayExpire exchange.sendLimit = true := nofun
  cases state : exchange.sender with
  | ready task =>
      cases call : SendTask.call task with
      | done => exact (Steps.senderOver inTime state call).isSome
      | send data next =>
          have inSend : exchange.sender.InSend data 0 next := state ▸ .begins call
          exact (Steps.send inTime inSend).isSome
      | close next => exact (Steps.senderCloses inTime state call).isSome
  | awake left queued next =>
      have inSend : exchange.sender.InSend left queued next := state ▸ .resumes left queued next
      exact (Steps.send inTime inSend).isSome
  | parked left queued next => simp [state, SenderState.isParked] at runs
  | finished task => simp [state, SenderState.finished?] at unfinished

theorem isSome_step?_receiver {exchange : Exchange σ ρ}
    (runs : exchange.receiver.isParked = false)
    (unfinished : exchange.receiver.finished? = none) :
    (exchange.step? (.receiver false)).isSome := by
  have inTime : false = true → mayExpire exchange.receiveLimit = true := nofun
  cases state : exchange.receiver with
  | ready task =>
      cases call : ReceiveTask.call task with
      | done => exact (Steps.receiverOver inTime state call).isSome
      | receive wanted next =>
          have inReceive : exchange.receiver.InReceive wanted next := state ▸ .begins call
          exact (Steps.receive inTime inReceive).isSome
      | close next => exact (Steps.receiverCloses inTime state call).isSome
  | awake wanted next =>
      have inReceive : exchange.receiver.InReceive wanted next := state ▸ .resumes wanted next
      exact (Steps.receive inTime inReceive).isSome
  | parked wanted next => simp [state, ReceiverState.isParked] at runs
  | finished task => simp [state, ReceiverState.finished?] at unfinished

/-- What a schedule leads to if no wake-up is lost and the threads do not block each other. -/
structure Unblocked (capacity : Option Nat) (exchange : Exchange σ ρ) : Prop where
  senderWaits : exchange.sender.isParked = true →
    exchange.pipe.closed = false ∧ capacity = some exchange.pipe.available
  receiverWaits : exchange.receiver.isParked = true →
    exchange.pipe.closed = false ∧ exchange.pipe.available = 0
  oneWaits : ¬(exchange.sender.isParked = true ∧ exchange.receiver.isParked = true)
  receiverLives : exchange.sender.isParked = true → exchange.receiver.finished? = none
  senderLives : exchange.receiver.isParked = true → exchange.sender.finished? = none
  /-- Nobody waits once an end has been closed or dropped, however it goes on. -/
  released : ∀ event stepped events last, exchange.Closes event →
    exchange.step? event = some stepped → stepped.exchange.follow? events = some last →
    last.exchange.sender.isParked = false ∧ last.exchange.receiver.isParked = false
  goesOn : exchange.sender.finished?.isSome ∧ exchange.receiver.finished?.isSome ∨
    (exchange.step? (.sender false)).isSome ∨ (exchange.step? (.receiver false)).isSome

theorem Sound.released {exchange : Exchange σ ρ} (sound : exchange.Sound) {event : Event}
    {stepped last : Stepped σ ρ} {events : List Event} (closes : exchange.Closes event)
    (steps : exchange.Steps event stepped)
    (followed : stepped.exchange.follow? events = some last) :
    last.exchange.sender.isParked = false ∧ last.exchange.receiver.isParked = false := by
  have later := (steps.keeps sound).sound.follow events followed
  have closed := later.staysClosed (steps.closed_of_closes closes)
  exact ⟨later.sound.sender.runs_of_closed closed, later.sound.receiver.runs_of_closed closed⟩

theorem Sound.goesOn {exchange : Exchange σ ρ} (sound : exchange.Sound) :
    exchange.sender.finished?.isSome ∧ exchange.receiver.finished?.isSome ∨
      (exchange.step? (.sender false)).isSome ∨ (exchange.step? (.receiver false)).isSome := by
  -- Only a sender that waits or has finished leaves the turn to the receiver. While it waits
  -- the pipe is full and open, and once it has finished the pipe is closed: the receiver has
  -- no reason to wait either way.
  cases parked : exchange.sender.isParked with
  | true =>
      have opened := (sound.sender.of_parked parked).1
      have runs : exchange.receiver.isParked = false := by
        rw [← Bool.not_eq_true]
        exact fun receiverParked => sound.oneWaits ⟨parked, receiverParked⟩
      have unfinished := sound.receiver.unfinished_of_open opened
      exact .inr (.inr (isSome_step?_receiver runs unfinished))
  | false =>
      cases ended : exchange.sender.finished? with
      | none =>
          exact .inr (.inl (isSome_step?_sender parked ended))
      | some task =>
          have closed := sound.sender.closed_of_finished ended
          cases receiverEnded : exchange.receiver.finished? with
          | none =>
              have runs := sound.receiver.runs_of_closed closed
              exact .inr (.inr (isSome_step?_receiver runs receiverEnded))
          | some receiverTask => exact .inl ⟨rfl, rfl⟩

theorem Sound.unblocked {exchange : Exchange σ ρ} (sound : exchange.Sound) :
    exchange.Unblocked exchange.pipe.capacity := by
  refine ⟨sound.sender.of_parked, ?_, sound.oneWaits, ?_, ?_, ?_, sound.goesOn⟩
  · intro parked
    rcases sound.receiver.of_parked parked with ⟨opened, empty⟩
    exact ⟨opened, by rw [sound.pipe.counted, empty, List.length_nil]⟩
  · intro parked
    exact sound.receiver.unfinished_of_open (sound.sender.of_parked parked).1
  · intro parked
    exact sound.sender.unfinished_of_open (sound.receiver.of_parked parked).1
  · intro event stepped events last closes happens followed
    exact sound.released closes (step?_eq_some_iff.mp happens) followed

/-- Whatever two threads do and in whatever order, a thread waits only for room in an open
pipe or for bytes from one, so the other one can go on and wake it. -/
theorem schedule_never_blocks {capacity : Option Nat} (usable : capacity ≠ some 0)
    (sendLimit receiveLimit : Option Span) (sender : σ) (receiver : ρ) :
    ∃ pipe, create capacity = .ok pipe ∧
      ∀ events last,
        (start pipe sendLimit receiveLimit sender receiver).follow? events = some last →
        last.exchange.Unblocked capacity := by
  refine ⟨empty capacity, create_of_usable usable, ?_⟩
  intro events last followed
  have keeps := keeps_of_follow usable followed
  have unblocked := keeps.sound.unblocked
  rw [keeps.capacity_eq] at unblocked
  exact unblocked

/-- The receiver waits first, and what wakes it makes the sender wait. -/
theorem schedule_never_blocks_in_turn :
    let sender : Sending Unit := .send [1, 2] fun _ => .done ()
    let receiver : Receiving Unit := .receive 1 fun _ => .done ()
    ∃ pipe last, create (some 1) = .ok pipe ∧
      (start pipe none none sender receiver).follow? [.receiver false, .sender false] =
        some last ∧
      last.exchange.sender.isParked = true ∧ last.exchange.pipe.available = 1 ∧
      last.exchange.Unblocked (some 1) := by
  intro sender receiver
  have usable : (some 1 : Option Nat) ≠ some 0 := by decide
  rcases schedule_never_blocks usable none none sender receiver with ⟨pipe, created, always⟩
  cases created
  have waits : ((start (empty (some 1)) none none sender receiver).follow?
      [.receiver false, .sender false]).map (fun last =>
        (last.exchange.sender.isParked, last.exchange.pipe.available)) = some (true, 1) := by
    decide +kernel
  rcases Option.map_eq_some_iff.mp waits with ⟨last, followed, waiting⟩
  simp only [Prod.mk.injEq] at waiting
  exact ⟨_, last, rfl, followed, waiting.1, waiting.2, always _ last followed⟩

/-! ## The schedule that settles -/

theorem steps_of_nextEvent {exchange : Exchange σ ρ} {first : Stepped σ ρ}
    (next : exchange.nextEvent = some first) :
    ∃ event, (event = .sender false ∨ event = .receiver false) ∧ exchange.Steps event first := by
  rcases Option.or_eq_some_iff.mp next with happens | ⟨-, happens⟩
  · exact ⟨_, .inl rfl, step?_eq_some_iff.mp happens⟩
  · exact ⟨_, .inr rfl, step?_eq_some_iff.mp happens⟩

/-- An exchange settles along a schedule in which no time limit passes and nobody wakes without a
reason. The schedule is as long as it may be, unless neither thread can go on before. -/
theorem settleWithin_follows (exchange : Exchange σ ρ) (peak steps : Nat) :
    ∃ events last, exchange.follow? events = some last ∧
      (settleWithin peak exchange steps).exchange = last.exchange ∧
      (∀ event ∈ events, event = .sender false ∨ event = .receiver false) ∧
      (events.length = steps ∨ last.exchange.nextEvent = none) := by
  induction steps generalizing exchange peak with
  | zero => exact ⟨[], _, rfl, rfl, nofun, .inl rfl⟩
  | succ steps induction =>
      cases next : exchange.nextEvent with
      | none =>
          rw [settleWithin, next]
          exact ⟨[], _, rfl, rfl, nofun, .inr next⟩
      | some first =>
          rw [settleWithin, next]
          rcases induction first.exchange _ with ⟨events, rest, later, same, timely, ends⟩
          rcases steps_of_nextEvent next with ⟨event, inTime, steps⟩
          refine ⟨event :: events, _, follow?_cons_eq_some_iff.mpr ⟨first, rest, steps, later, rfl⟩,
            same, List.forall_mem_cons.mpr ⟨inTime, timely⟩, ?_⟩
          exact ends.imp_left fun full => congrArg (· + 1) full

end Exchange

end Pipe

end ByteStreams
