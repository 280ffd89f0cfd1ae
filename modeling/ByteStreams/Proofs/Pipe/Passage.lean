import ByteStreams.Proofs.Channel.Faultless
import ByteStreams.Proofs.Pipe.Steps

/-! # Tasks that fit together

A sending task sends certain bytes if all its calls are answered in full, and a receiving
task takes certain bytes however they are cut. When these are the same bytes and no call
has a time limit, every schedule keeps the two tasks fitting, so neither ever meets a
fault; and from every state on there is a way to the end.
-/

namespace ByteStreams

namespace Pipe

open Channel (Served)

variable {σ ρ : Type}

/-! ## What tasks do -/

/-- Answered in full, the task is over after so many calls, has sent these bytes and is
good. It closes the pipe only after all of them. -/
inductive Sends [SendTask σ] (good : σ → Prop) : Nat → σ → Bytes → Prop
  | done {task : σ} (call : SendTask.call task = .done) (holds : good task) :
      Sends good 1 task []
  | send {task : σ} {data bytes : Bytes} {next : Except Fault Nat → σ} {calls : Nat}
      (call : SendTask.call task = .send data next)
      (later : Sends good calls (next (.ok data.length)) bytes) :
      Sends good (calls + 1) task (data ++ bytes)
  | close {task next : σ} {calls : Nat} (call : SendTask.call task = .close next)
      (later : Sends good calls next []) : Sends good (calls + 1) task []

/-- However the bytes are cut, the task takes all of them, is over and is good. It closes
the pipe only after that. -/
inductive Receives [ReceiveTask ρ] (good : ρ → Prop) : ρ → Bytes → Prop
  | done {task : ρ} (call : ReceiveTask.call task = .done) (holds : good task) :
      Receives good task []
  | receive {task : ρ} {bytes : Bytes} {wanted : Nat} {next : Except Fault Bytes → ρ}
      (call : ReceiveTask.call task = .receive wanted next)
      (later : ∀ piece rest, Served wanted bytes piece rest →
        Receives good (next (.ok piece)) rest) : Receives good task bytes
  | close {task next : ρ} (call : ReceiveTask.call task = .close next)
      (later : Receives good next []) : Receives good task []

/-! ## What threads have before them -/

def SenderState.Owes [SendTask σ] (good : σ → Prop) (work : Nat) (unsent : Bytes) :
    SenderState σ → Prop
  | .ready task => ∃ calls, work = 2 * calls ∧ Sends good calls task unsent
  | .awake left queued next | .parked left queued next =>
      ∃ calls rest, work = 2 * calls + 1 ∧ unsent = left ++ rest ∧
        Sends good calls (next (.ok (queued + left.length))) rest
  | .finished task => work = 0 ∧ unsent = [] ∧ good task

/-- Whether a thread was woken in a send and has not run since. -/
def SenderState.isAwake : SenderState σ → Bool
  | .awake _ _ _ => true
  | .ready _ | .parked _ _ _ | .finished _ => false

def ReceiverState.Awaits [ReceiveTask ρ] (good : ρ → Prop) (bytes : Bytes) :
    ReceiverState ρ → Prop
  | .ready task => Receives good task bytes
  | .awake wanted next | .parked wanted next =>
      ∀ piece rest, Served wanted bytes piece rest → Receives good (next (.ok piece)) rest
  | .finished task => bytes = [] ∧ good task

theorem SenderState.Owes.wake [SendTask σ] {good : σ → Prop} {work : Nat} {unsent : Bytes}
    {sender : SenderState σ} (owes : sender.Owes good work unsent) :
    sender.wake.Owes good work unsent := by
  cases sender <;> exact owes

theorem ReceiverState.Awaits.wake [ReceiveTask ρ] {good : ρ → Prop} {bytes : Bytes}
    {receiver : ReceiverState ρ} (awaits : receiver.Awaits good bytes) :
    receiver.wake.Awaits good bytes := by
  cases receiver <;> exact awaits

theorem SenderState.Owes.wakeUnless [SendTask σ] {good : σ → Prop} {work : Nat} {unsent : Bytes}
    {sender : SenderState σ} (owes : sender.Owes good work unsent) (nothing : Bool) :
    (if nothing then sender else sender.wake).Owes good work unsent := by
  cases nothing with
  | true => exact owes
  | false => exact owes.wake

theorem ReceiverState.Awaits.wakeUnless [ReceiveTask ρ] {good : ρ → Prop} {bytes : Bytes}
    {receiver : ReceiverState ρ} (awaits : receiver.Awaits good bytes) (nothing : Bool) :
    (if nothing then receiver else receiver.wake).Awaits good bytes := by
  cases nothing with
  | true => exact awaits
  | false => exact awaits.wake

theorem SenderState.Owes.inSend [SendTask σ] {good : σ → Prop} {work : Nat} {unsent left : Bytes}
    {queued : Nat} {next : Except Fault Nat → σ} {sender : SenderState σ}
    (owes : sender.Owes good work unsent) (inSend : sender.InSend left queued next) :
    ∃ calls rest, 2 * calls + 1 ≤ work ∧ unsent = left ++ rest ∧
      Sends good calls (next (.ok (queued + left.length))) rest := by
  cases inSend with
  | begins call =>
      rcases owes with ⟨calls, rfl, sends⟩
      cases sends with
      | done other => simp [other] at call
      | close other => simp [other] at call
      | @send _ data bytes next calls other later =>
          rw [other] at call
          cases call
          refine ⟨calls, bytes, by omega, rfl, ?_⟩
          rw [Nat.zero_add]
          exact later
  | resumes left queued next =>
      rcases owes with ⟨calls, rest, rfl, split, later⟩
      exact ⟨calls, rest, Nat.le_refl _, split, later⟩

theorem ReceiverState.Awaits.inReceive [ReceiveTask ρ] {good : ρ → Prop} {bytes : Bytes}
    {wanted : Nat} {next : Except Fault Bytes → ρ} {receiver : ReceiverState ρ}
    (awaits : receiver.Awaits good bytes) (inReceive : receiver.InReceive wanted next) :
    ∀ piece rest, Served wanted bytes piece rest → Receives good (next (.ok piece)) rest := by
  cases inReceive with
  | begins call =>
      cases awaits with
      | done other => simp [other] at call
      | close other => simp [other] at call
      | receive other later =>
          rw [other] at call
          cases call
          exact later
  | resumes wanted next => exact awaits

namespace Exchange

variable [SendTask σ] {goodSender : σ → Prop}

/-- A stretch of a send queues the first of the bytes that are to be sent. It gets on with the
work, unless it finds the pipe full, and then it was woken for nothing. -/
theorem Sound.owes_runSend {exchange : Exchange σ ρ} (sound : exchange.Sound) {work : Nat}
    {unsent left : Bytes} {queued : Nat} {next : Except Fault Nat → σ}
    (owes : exchange.sender.Owes goodSender work unsent)
    (closed : exchange.pipe.closed = true → unsent = [])
    (inSend : exchange.sender.InSend left queued next) :
    ∃ after rest,
      (exchange.runSend left queued next false).exchange.sender.Owes goodSender after rest ∧
      unsent = (exchange.runSend left queued next false).queued ++ rest ∧
      ((exchange.runSend left queued next false).exchange.pipe.closed = true → rest = []) ∧
      (exchange.runSend left queued next false).exchange.sender.isAwake = false ∧
      after < work + exchange.sender.isAwake.toNat ∧
      (exchange.pipe.content = [] → after + rest.length < work + unsent.length) := by
  have less : ∃ calls rest, 2 * calls + 1 ≤ work ∧
      2 * calls + 1 < work + exchange.sender.isAwake.toNat ∧ unsent = left ++ rest ∧
        Sends goodSender calls (next (.ok (queued + left.length))) rest := by
    rcases owes.inSend inSend with ⟨calls, rest, atMost, split, later⟩
    refine ⟨calls, rest, atMost, ?_, split, later⟩
    generalize exchange.sender = sender at owes inSend
    cases inSend with
    | begins call =>
        -- An even number is no less than an odd one only if it is greater.
        rcases owes with ⟨total, rfl, -⟩
        omega
    | resumes => exact Nat.lt_succ_of_le atMost
  rcases less with ⟨calls, bytes, less, lessAwake, rfl, later⟩
  have outcome := sendStretch_outcome sound.pipe left queued exchange.sendLimit false
  unfold Exchange.runSend
  generalize exchange.pipe.sendStretch left queued exchange.sendLimit false = stretch at outcome
  cases outcome with
  | whole gains =>
      rw [← gains.closed_eq] at closed
      refine ⟨2 * calls, bytes, ⟨calls, rfl, later⟩, rfl, ?_, rfl, by omega, ?_⟩
      · intro isClosed
        exact (List.append_eq_nil_iff.mp (closed isClosed)).2
      · intro _
        rw [List.length_append]
        omega
  | refused some' isClosed =>
      exact absurd (List.append_eq_nil_iff.mp (closed isClosed)).1 some'
  | @stuck part rest after split more opened gains full =>
      subst split
      have total : queued + part.length + rest.length = queued + (part ++ rest).length := by
        rw [List.length_append]
        omega
      refine ⟨2 * calls + 1, rest ++ bytes, ⟨calls, bytes, rfl, rfl, ?_⟩,
        List.append_assoc .., ?_, rfl, lessAwake, ?_⟩
      · rw [total]
        exact later
      · intro isClosed
        rw [gains.closed_eq, opened] at isClosed
        cases isClosed
      · intro empty
        -- An empty pipe is not full, so some bytes went in.
        have went := full.content_ne_nil gains.sound
        rw [gains.content_eq, empty, List.nil_append] at went
        have some' := List.length_pos_iff.mpr went
        simp only [List.length_append]
        omega

variable [ReceiveTask ρ] {goodReceiver : ρ → Prop}

/-- The receiver takes what is in the pipe and what the sender has still to send. -/
structure Fits (goodSender : σ → Prop) (goodReceiver : ρ → Prop) (work : Nat)
    (unsent : Bytes) (exchange : Exchange σ ρ) : Prop where
  sound : exchange.Sound
  sendUnlimited : exchange.sendLimit = none
  receiveUnlimited : exchange.receiveLimit = none
  owes : exchange.sender.Owes goodSender work unsent
  awaits : exchange.receiver.Awaits goodReceiver (exchange.pipe.content ++ unsent)
  closed : exchange.pipe.closed = true → unsent = []

theorem Fits.runSend {exchange : Exchange σ ρ} {work : Nat} {unsent left : Bytes} {queued : Nat}
    {next : Except Fault Nat → σ} (fits : exchange.Fits goodSender goodReceiver work unsent)
    (inSend : exchange.sender.InSend left queued next) :
    ∃ after rest,
      (exchange.runSend left queued next false).exchange.Fits goodSender goodReceiver after
        rest ∧
      unsent = (exchange.runSend left queued next false).queued ++ rest ∧
      (exchange.pipe.content = [] → after + rest.length < work + unsent.length) := by
  rcases fits.sound.owes_runSend fits.owes fits.closed inSend with
    ⟨after, rest, owes, split, closed, -, -, progress⟩
  have kept := fits.sound.runSend left queued next false
  have awaits := fits.awaits
  rw [split, ← List.append_assoc, kept.conserved] at awaits
  refine ⟨after, rest, ⟨kept.sound, fits.sendUnlimited, fits.receiveUnlimited, owes, ?_, closed⟩,
    split, progress⟩
  exact awaits.wakeUnless _

theorem Fits.runReceive {exchange : Exchange σ ρ} {work : Nat} {unsent : Bytes} {wanted : Nat}
    {next : Except Fault Bytes → ρ} (fits : exchange.Fits goodSender goodReceiver work unsent)
    (inReceive : exchange.receiver.InReceive wanted next) :
    (exchange.runReceive wanted next false).exchange.Fits goodSender goodReceiver work unsent ∧
      (exchange.runReceive wanted next false).queued = [] ∧
      ((∃ piece,
          (exchange.runReceive wanted next false).exchange.receiver = .ready (next (.ok piece)) ∧
          Served wanted (exchange.pipe.content ++ unsent) piece
            ((exchange.runReceive wanted next false).exchange.pipe.content ++ unsent)) ∨
        (exchange.runReceive wanted next false).exchange.receiver = .parked wanted next ∧
          (exchange.runReceive wanted next false).exchange.pipe = exchange.pipe) := by
  have later := fits.awaits.inReceive inReceive
  have kept := fits.sound.runReceive wanted next false
  have outcome := receiveStretch_outcome fits.sound.pipe wanted exchange.receiveLimit false
  unfold Exchange.runReceive at kept ⊢
  generalize exchange.pipe.receiveStretch wanted exchange.receiveLimit false = stretch
    at outcome kept ⊢
  cases outcome with
  | @gives piece after loses count nothing =>
      have served : Served wanted (exchange.pipe.content ++ unsent) piece
          (after.content ++ unsent) := by
        refine ⟨by rw [loses.content_eq, List.append_assoc], count ▸ Nat.min_le_left .., ?_⟩
        intro noPiece
        rcases nothing noPiece with none' | ⟨empty, isClosed⟩
        · exact .inl none'
        · exact .inr (by rw [empty, fits.closed isClosed]; rfl)
      refine ⟨⟨kept.sound, fits.sendUnlimited, fits.receiveUnlimited, fits.owes.wakeUnless _,
        later piece _ served, ?_⟩, rfl, .inl ⟨piece, rfl, served⟩⟩
      intro isClosed
      exact fits.closed (loses.closed_eq ▸ isClosed)
  | expires asked empty opened expiry => cases expiry
  | waits asked empty opened inTime =>
      exact ⟨⟨kept.sound, fits.sendUnlimited, fits.receiveUnlimited, fits.owes, later,
        fits.closed⟩, rfl, .inr ⟨rfl, rfl⟩⟩

theorem Fits.close {exchange : Exchange σ ρ} {work : Nat} {unsent : Bytes}
    (fits : exchange.Fits goodSender goodReceiver work unsent) (nothing : unsent = []) :
    exchange.close.Fits goodSender goodReceiver work unsent := by
  have sound := fits.sound.close
  unfold Exchange.close at sound ⊢
  split
  · exact fits
  · rename_i opened
    rw [if_neg opened] at sound
    exact ⟨sound, fits.sendUnlimited, fits.receiveUnlimited, fits.owes.wake, fits.awaits.wake,
      fun _ => nothing⟩

theorem Fits.senderReady {exchange : Exchange σ ρ} {work : Nat} {unsent : Bytes} {task : σ}
    (fits : exchange.Fits goodSender goodReceiver work unsent)
    (ready : exchange.sender = .ready task) :
    ∃ calls, work = 2 * calls ∧ Sends goodSender calls task unsent := by
  have owes := fits.owes
  rw [ready] at owes
  exact owes

theorem Fits.senderOver {exchange : Exchange σ ρ} {work : Nat} {unsent : Bytes} {task : σ}
    (fits : exchange.Fits goodSender goodReceiver work unsent)
    (ready : exchange.sender = .ready task) (call : SendTask.call task = .done) :
    work = 2 ∧ unsent = [] ∧
      Fits goodSender goodReceiver 0 []
        { exchange.close with sender := SenderState.finished task } := by
  rcases fits.senderReady ready with ⟨calls, rfl, sends⟩
  cases sends with
  | send other => simp [other] at call
  | close other => simp [other] at call
  | done other holds =>
      have closed := fits.close rfl
      exact ⟨rfl, rfl, ⟨closed.sound.pipe, closed_close exchange, closed.sound.receiver⟩,
        closed.sendUnlimited, closed.receiveUnlimited, ⟨rfl, rfl, holds⟩, closed.awaits,
        fun _ => rfl⟩

theorem Fits.senderCloses {exchange : Exchange σ ρ} {work : Nat} {unsent : Bytes}
    {task next : σ} (fits : exchange.Fits goodSender goodReceiver work unsent)
    (ready : exchange.sender = .ready task) (call : SendTask.call task = .close next) :
    unsent = [] ∧ ∃ after, after < work ∧
      Fits goodSender goodReceiver after []
        { exchange.close with sender := SenderState.ready next } := by
  rcases fits.senderReady ready with ⟨calls, rfl, sends⟩
  cases sends with
  | done other => simp [other] at call
  | send other => simp [other] at call
  | @close _ next calls other later =>
      rw [other] at call
      cases call
      have closed := fits.close rfl
      exact ⟨rfl, 2 * calls, by omega, ⟨closed.sound.pipe, trivial, closed.sound.receiver⟩,
        closed.sendUnlimited, closed.receiveUnlimited, ⟨calls, rfl, later⟩, closed.awaits,
        fun _ => rfl⟩

theorem Fits.receiverOver {exchange : Exchange σ ρ} {work : Nat} {unsent : Bytes} {task : ρ}
    (fits : exchange.Fits goodSender goodReceiver work unsent)
    (ready : exchange.receiver = .ready task) (call : ReceiveTask.call task = .done) :
    Fits goodSender goodReceiver work unsent
      { exchange.close with receiver := ReceiverState.finished task } := by
  have awaits := fits.awaits
  rw [ready] at awaits
  generalize bytes : exchange.pipe.content ++ unsent = ahead at awaits
  cases awaits with
  | receive other => simp [other] at call
  | close other => simp [other] at call
  | done other holds =>
      have closed := fits.close (List.append_eq_nil_iff.mp bytes).2
      refine ⟨⟨closed.sound.pipe, closed.sound.sender, closed_close exchange⟩,
        closed.sendUnlimited, closed.receiveUnlimited, closed.owes, ⟨?_, holds⟩, closed.closed⟩
      rw [content_close]
      exact bytes

theorem Fits.receiverCloses {exchange : Exchange σ ρ} {work : Nat} {unsent : Bytes}
    {task next : ρ} (fits : exchange.Fits goodSender goodReceiver work unsent)
    (ready : exchange.receiver = .ready task) (call : ReceiveTask.call task = .close next) :
    Fits goodSender goodReceiver work unsent
      { exchange.close with receiver := ReceiverState.ready next } := by
  have awaits := fits.awaits
  rw [ready] at awaits
  generalize bytes : exchange.pipe.content ++ unsent = ahead at awaits
  cases awaits with
  | done other => simp [other] at call
  | receive other => simp [other] at call
  | close other later =>
      rw [other] at call
      cases call
      have closed := fits.close (List.append_eq_nil_iff.mp bytes).2
      refine ⟨⟨closed.sound.pipe, closed.sound.sender, trivial⟩,
        closed.sendUnlimited, closed.receiveUnlimited, closed.owes, ?_, closed.closed⟩
      rw [content_close, bytes]
      exact later

/-! ## Every schedule -/

theorem Fits.step {exchange : Exchange σ ρ} {work : Nat} {unsent : Bytes} {event : Event}
    {stepped : Stepped σ ρ} (fits : exchange.Fits goodSender goodReceiver work unsent)
    (steps : exchange.Steps event stepped) :
    ∃ after rest, stepped.exchange.Fits goodSender goodReceiver after rest ∧
      unsent = stepped.queued ++ rest := by
  cases steps with
  | @send expired left queued next inTime inSend =>
      rw [fits.sendUnlimited] at inTime
      cases expired with
      | true => cases inTime rfl
      | false =>
          rcases fits.runSend inSend with ⟨after, rest, later, split, -⟩
          exact ⟨after, rest, later, split⟩
  | @receive expired wanted next inTime inReceive =>
      rw [fits.receiveUnlimited] at inTime
      cases expired with
      | true => cases inTime rfl
      | false =>
          rcases fits.runReceive inReceive with ⟨later, none', -⟩
          exact ⟨work, unsent, later, by rw [none']; rfl⟩
  | senderOver inTime ready call =>
      rcases fits.senderOver ready call with ⟨-, nothing, later⟩
      exact ⟨0, [], later, nothing⟩
  | senderCloses inTime ready call =>
      rcases fits.senderCloses ready call with ⟨nothing, after, -, later⟩
      exact ⟨after, [], later, nothing⟩
  | receiverOver inTime ready call => exact ⟨work, unsent, fits.receiverOver ready call, rfl⟩
  | receiverCloses inTime ready call =>
      exact ⟨work, unsent, fits.receiverCloses ready call, rfl⟩
  | wakeSender parked =>
      have kept := (Steps.wakeSender parked).keeps fits.sound
      exact ⟨work, unsent, ⟨kept.sound, fits.sendUnlimited, fits.receiveUnlimited,
        fits.owes.wake, fits.awaits, fits.closed⟩, rfl⟩
  | wakeReceiver parked =>
      have kept := (Steps.wakeReceiver parked).keeps fits.sound
      exact ⟨work, unsent, ⟨kept.sound, fits.sendUnlimited, fits.receiveUnlimited,
        fits.owes, fits.awaits.wake, fits.closed⟩, rfl⟩

theorem Fits.follow {exchange : Exchange σ ρ} {work : Nat} {unsent : Bytes}
    (events : List Event) {last : Stepped σ ρ}
    (fits : exchange.Fits goodSender goodReceiver work unsent)
    (followed : exchange.follow? events = some last) :
    ∃ after rest, last.exchange.Fits goodSender goodReceiver after rest ∧
      unsent = last.queued ++ rest := by
  induction events generalizing exchange work unsent last with
  | nil =>
      cases followed
      exact ⟨work, unsent, fits, rfl⟩
  | cons event events induction =>
      rcases follow?_cons_eq_some_iff.mp followed with ⟨first, rest, steps, later, rfl⟩
      rcases fits.step steps with ⟨middle, unsentThen, fitsThen, split⟩
      rcases induction fitsThen later with ⟨after, left, fitsLast, splitLast⟩
      exact ⟨after, left, fitsLast, by rw [split, splitLast, List.append_assoc]⟩

/-! ## The way to the end -/

/-- Both tasks can come to their ends, without a time limit that passes or a wake-up that
nobody asked for. -/
def Completes (exchange : Exchange σ ρ) : Prop :=
  ∃ events last, (∀ event ∈ events, event = .sender false ∨ event = .receiver false) ∧
    exchange.follow? events = some last ∧
    last.exchange.sender.finished?.isSome ∧ last.exchange.receiver.finished?.isSome

theorem Completes.before {exchange : Exchange σ ρ} {event : Event} {stepped : Stepped σ ρ}
    (completes : stepped.exchange.Completes) (steps : exchange.Steps event stepped)
    (plain : event = .sender false ∨ event = .receiver false) : exchange.Completes := by
  rcases completes with ⟨events, last, plainOthers, followed, sender, receiver⟩
  refine ⟨event :: events, ⟨last.exchange, stepped.queued ++ last.queued,
    stepped.delivered ++ last.delivered⟩, ?_, ?_, sender, receiver⟩
  · intro other member
    rcases List.mem_cons.mp member with rfl | later
    · exact plain
    · exact plainOthers other later
  · rw [follow?, step?_eq_some_iff.mpr steps, Option.bind_some, followed]
    rfl

/-- A step of the sender got on with its work, and woke the receiver at most. -/
structure Advances (goodSender : σ → Prop) (goodReceiver : ρ → Prop) (exchange : Exchange σ ρ)
    (work : Nat) (unsent : Bytes) (later : Exchange σ ρ) (after : Nat) (rest : Bytes) :
    Prop where
  fits : later.Fits goodSender goodReceiver after rest
  less : after + rest.length < work + unsent.length
  receiver : later.receiver = exchange.receiver ∨ later.receiver = exchange.receiver.wake
  same : later.pipe.content ++ rest = exchange.pipe.content ++ unsent

theorem Fits.advance_inSend {exchange : Exchange σ ρ} {work : Nat} {unsent left : Bytes}
    {queued : Nat} {next : Except Fault Nat → σ}
    (fits : exchange.Fits goodSender goodReceiver work unsent)
    (empty : exchange.pipe.content = []) (inSend : exchange.sender.InSend left queued next) :
    ∃ stepped after rest, exchange.Steps (.sender false) stepped ∧
      exchange.Advances goodSender goodReceiver work unsent stepped.exchange after rest := by
  rcases fits.runSend inSend with ⟨after, rest, later, split, progress⟩
  refine ⟨_, after, rest, .send nofun inSend, later, progress empty, ?_, ?_⟩
  · simp only [Exchange.runSend]
    split
    · exact .inl rfl
    · exact .inr rfl
  · have conserved := (fits.sound.runSend left queued next false).conserved
    rw [split, ← List.append_assoc, conserved]
    rfl

theorem Fits.advance {exchange : Exchange σ ρ} {work : Nat} {unsent : Bytes}
    (fits : exchange.Fits goodSender goodReceiver work unsent)
    (empty : exchange.pipe.content = []) (runs : exchange.sender.isParked = false)
    (unfinished : exchange.sender.finished? = none) :
    ∃ stepped after rest, exchange.Steps (.sender false) stepped ∧
      exchange.Advances goodSender goodReceiver work unsent stepped.exchange after rest := by
  cases state : exchange.sender with
  | parked left queued next =>
      rw [state] at runs
      cases runs
  | finished task =>
      rw [state] at unfinished
      cases unfinished
  | awake left queued next =>
      exact fits.advance_inSend empty (state.symm ▸ SenderState.InSend.resumes left queued next)
  | ready task =>
      cases call : SendTask.call task with
      | send data next =>
          exact fits.advance_inSend empty (state.symm ▸ SenderState.InSend.begins call)
      | done =>
          rcases fits.senderOver state call with ⟨rfl, rfl, later⟩
          exact ⟨_, 0, [], .senderOver nofun state call, later, by simp,
            receiver_close exchange, congrArg (· ++ []) (content_close exchange)⟩
      | close next =>
          rcases fits.senderCloses state call with ⟨rfl, after, less, later⟩
          exact ⟨_, after, [], .senderCloses nofun state call, later, Nat.add_lt_add_right less _,
            receiver_close exchange, congrArg (· ++ []) (content_close exchange)⟩

theorem Fits.completes_of_finished {exchange : Exchange σ ρ} {work : Nat} {unsent : Bytes}
    {task : ρ} (fits : exchange.Fits goodSender goodReceiver work unsent)
    (ended : exchange.receiver = .finished task) : exchange.Completes := by
  -- Nothing is left to be taken, so each step of the sender lessens its work.
  induction measured : work + unsent.length using Nat.strongRecOn
    generalizing exchange work unsent with
  | ind measure induction =>
      have placed := fits.sound.receiver
      have awaits := fits.awaits
      rw [ended] at placed awaits
      cases state : exchange.sender.finished? with
      | some done =>
          refine ⟨[], .still exchange, nofun, rfl, ?_, ?_⟩
          · simp [Stepped.still, state]
          · simp [Stepped.still, ended, ReceiverState.finished?]
      | none =>
          have runs := fits.sound.sender.runs_of_closed placed
          rcases fits.advance (List.append_eq_nil_iff.mp awaits.1).1 runs state with
            ⟨stepped, after, rest, steps, advances⟩
          have stillOver : stepped.exchange.receiver = .finished task := by
            rcases advances.receiver with same | woken
            · exact same.trans ended
            · rw [woken, ended]
              rfl
          exact (induction _ (measured ▸ advances.less) advances.fits stillOver rfl).before steps
            (.inl rfl)

private theorem Fits.completes_of_inReceive {exchange : Exchange σ ρ} {work wanted : Nat}
    {unsent bytes : Bytes} {next : Except Fault Bytes → ρ}
    (later : ∀ piece rest, Served wanted bytes piece rest →
      ∀ {exchange : Exchange σ ρ} {work : Nat} {unsent : Bytes},
        exchange.Fits goodSender goodReceiver work unsent →
        exchange.receiver = .ready (next (.ok piece)) →
        exchange.pipe.content ++ unsent = rest → exchange.Completes)
    (fits : exchange.Fits goodSender goodReceiver work unsent)
    (state : exchange.receiver.InReceive wanted next ∨ exchange.receiver = .parked wanted next)
    (ahead : exchange.pipe.content ++ unsent = bytes) : exchange.Completes := by
  -- The receiver runs until it waits, and then the sender makes one step.
  induction measured : work + unsent.length using Nat.strongRecOn
    generalizing exchange work unsent with
  | ind measure induction =>
      have parked {exchange : Exchange σ ρ} {work : Nat} {unsent : Bytes}
          (fits : exchange.Fits goodSender goodReceiver work unsent)
          (state : exchange.receiver = .parked wanted next)
          (ahead : exchange.pipe.content ++ unsent = bytes)
          (measured : work + unsent.length = measure) : exchange.Completes := by
        have placed := fits.sound.receiver
        rw [state] at placed
        rcases placed with ⟨-, opened, empty⟩
        have runs := fits.sound.sender.runs_of_empty fits.sound.pipe empty
        have unfinished := fits.sound.sender.unfinished_of_open opened
        rcases fits.advance empty runs unfinished with ⟨stepped, after, rest, steps, advances⟩
        have stateThen : stepped.exchange.receiver.InReceive wanted next ∨
            stepped.exchange.receiver = .parked wanted next := by
          rcases advances.receiver with same | woken
          · exact .inr (same.trans state)
          · rw [woken, state]
            exact .inl (.resumes wanted next)
        exact (induction _ (measured ▸ advances.less) advances.fits stateThen
          (advances.same.trans ahead) rfl).before steps (.inl rfl)
      rcases state with inReceive | waits
      · have steps : exchange.Steps (.receiver false) _ := .receive nofun inReceive
        rcases fits.runReceive inReceive with
          ⟨fitsThen, -, ⟨piece, ready, served⟩ | ⟨waits, same⟩⟩
        · rw [ahead] at served
          exact (later piece _ served fitsThen ready rfl).before steps (.inr rfl)
        · rw [← same] at ahead
          exact (parked fitsThen waits ahead measured).before steps (.inr rfl)
      · exact parked fits waits ahead measured

private theorem Fits.completes_of_ready {exchange : Exchange σ ρ} {work : Nat}
    {unsent bytes : Bytes} {task : ρ} (receives : Receives goodReceiver task bytes)
    (fits : exchange.Fits goodSender goodReceiver work unsent)
    (ready : exchange.receiver = .ready task)
    (ahead : exchange.pipe.content ++ unsent = bytes) : exchange.Completes := by
  induction receives generalizing exchange work unsent with
  | done call holds =>
      have steps : exchange.Steps (.receiver false) _ := .receiverOver nofun ready call
      exact ((fits.receiverOver ready call).completes_of_finished rfl).before steps (.inr rfl)
  | close call later induction =>
      have steps : exchange.Steps (.receiver false) _ := .receiverCloses nofun ready call
      have aheadThen : exchange.close.pipe.content ++ unsent = [] := by
        rw [content_close]
        exact ahead
      exact (induction (fits.receiverCloses ready call) rfl aheadThen).before steps (.inr rfl)
  | receive call later induction =>
      exact fits.completes_of_inReceive
        (fun piece rest served _ _ _ => induction piece rest served)
        (.inl (ready.symm ▸ ReceiverState.InReceive.begins call)) ahead

/-- From every state in which the tasks fit, both can come to their ends. -/
theorem Fits.completes {exchange : Exchange σ ρ} {work : Nat} {unsent : Bytes}
    (fits : exchange.Fits goodSender goodReceiver work unsent) : exchange.Completes := by
  have awaits := fits.awaits
  cases state : exchange.receiver with
  | ready task =>
      rw [state] at awaits
      exact completes_of_ready awaits fits state rfl
  | awake wanted next =>
      rw [state] at awaits
      exact fits.completes_of_inReceive
        (fun piece rest served _ _ _ => completes_of_ready (awaits piece rest served))
        (.inl (state.symm ▸ ReceiverState.InReceive.resumes wanted next)) rfl
  | parked wanted next =>
      rw [state] at awaits
      exact fits.completes_of_inReceive
        (fun piece rest served _ _ _ => completes_of_ready (awaits piece rest served))
        (.inr state) rfl
  | finished task => exact fits.completes_of_finished state

end Exchange

end Pipe

end ByteStreams
