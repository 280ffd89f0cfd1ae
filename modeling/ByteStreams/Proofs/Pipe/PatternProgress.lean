import ByteStreams.Proofs.Pipe.PatternTransfer

/-! # A pattern goes through a pipe in so many steps

Every step of a thread that sends the pattern or of the one that checks it does some of the
work there is, and a wake-up without a reason adds a little. So a schedule is no longer than
the size of the pattern and the number of its wake-ups allow, whichever waits reach their
time limit.
-/

namespace ByteStreams

namespace Pipe

open Exchange

/-- What a sender has before it besides the bytes it has not queued. -/
def SenderState.rank : SenderState PatternSender → Nat
  | .finished _ => 0
  | .ready sender => if sender.finish.isSome then 2 else 4
  | .parked _ _ _ => 3
  | .awake _ _ _ => 5

def ReceiverState.rank : ReceiverState PatternChecker → Nat
  | .finished _ => 0
  | .ready checker => if checker.closed then 3 else if checker.finish.isSome then 6 else 8
  | .parked _ _ => 7
  | .awake _ _ => 8

theorem SenderState.rank_wake_le (sender : SenderState PatternSender) :
    sender.wake.rank ≤ sender.rank + 2 := by
  cases sender with
  | parked left sent next => exact Nat.le_refl 5
  | _ => exact Nat.le_add_right ..

theorem ReceiverState.rank_wake_le (receiver : ReceiverState PatternChecker) :
    receiver.wake.rank ≤ receiver.rank + 1 := by
  cases receiver with
  | parked wanted next => exact Nat.le_refl 8
  | _ => exact Nat.le_add_right ..

theorem SenderState.rank_of_parked {sender : SenderState PatternSender}
    (parked : sender.isParked = true) : sender.rank = 3 := by
  cases sender with
  | parked left sent next => rfl
  | _ => cases parked

theorem SenderState.InSend.rank_of_unended {sender : SenderState PatternSender} {left : Bytes}
    {sent : Nat} {next : Except Fault Nat → PatternSender}
    (inSend : sender.InSend left sent next) (unended : sender.end? = none) :
    4 ≤ sender.rank ∧ (0 < sent → sender.rank = 5) := by
  cases inSend with
  | begins call =>
      have unfinished := Option.isSome_eq_false_iff.mpr (Option.isNone_iff_eq_none.mpr unended)
      simp only [end?] at unfinished
      simp [rank, unfinished]
  | resumes => exact ⟨Nat.le_succ 4, fun _ => rfl⟩

theorem ReceiverState.rank_le (receiver : ReceiverState PatternChecker) : receiver.rank ≤ 8 := by
  cases receiver with
  | ready checker =>
      rw [rank]
      split
      · decide
      · split <;> decide
  | awake wanted next => exact Nat.le_refl 8
  | parked wanted next => exact Nat.le_succ 7
  | finished checker => exact Nat.zero_le 8

theorem ReceiverState.InReceive.rank_eq {receiver : ReceiverState PatternChecker} {wanted : Nat}
    {next : Except Fault Bytes → PatternChecker} (inReceive : receiver.InReceive wanted next) :
    receiver.rank = 8 := by
  cases inReceive with
  | resumes => rfl
  | @begins checker wanted next call =>
      cases closed : checker.closed <;> cases finish : checker.finish <;>
        simp_all [ReceiveTask.call, rank]

theorem SenderState.rank_of_done {task : PatternSender} (call : SendTask.call task = .done) :
    (finished task).rank + 2 = (ready task).rank := by
  simp only [SendTask.call] at call
  split at call
  · rename_i ended
    rw [rank, rank, if_pos ended]
  · split at call <;> cases call

theorem SenderState.rank_of_close {task next : PatternSender}
    (call : SendTask.call task = .close next) : (ready next).rank + 2 = (ready task).rank := by
  simp only [SendTask.call] at call
  split at call
  · cases call
  · rename_i unended
    split at call
    · cases call
    · cases call
      rw [rank, rank, if_neg unended]
      rfl

theorem ReceiverState.rank_of_done {task : PatternChecker}
    (call : ReceiveTask.call task = .done) : (finished task).rank + 3 = (ready task).rank := by
  simp only [ReceiveTask.call] at call
  split at call
  · rename_i closed
    rw [rank, rank, if_pos closed]
  · split at call <;> cases call

theorem ReceiverState.rank_of_close {task next : PatternChecker}
    (call : ReceiveTask.call task = .close next) :
    (ready next).rank + 3 = (ready task).rank := by
  simp only [ReceiveTask.call] at call
  split at call
  · cases call
  · rename_i opened
    split at call
    · rename_i ended
      cases call
      rw [rank, rank, if_neg opened, if_pos ended]
      rfl
    · cases call

/-- The work that is left once so many of the bytes are queued: queuing a byte takes five parts
of it, three of which are left until the byte is delivered. -/
def Exchange.work (size queued : Nat) (exchange : Exchange PatternSender PatternChecker) : Nat :=
  5 * (size - queued) + 3 * exchange.pipe.content.length + exchange.sender.rank +
    exchange.receiver.rank

def Exchange.Event.isWakeUp : Event → Bool
  | .wakeSender | .wakeReceiver => true
  | .sender _ | .receiver _ => false

namespace Exchange

variable {exchange : Exchange PatternSender PatternChecker} {event : Event}
  {stepped : Stepped PatternSender PatternChecker}

theorem rank_sender_close_le (exchange : Exchange PatternSender PatternChecker) :
    exchange.close.sender.rank ≤ exchange.sender.rank + 2 := by
  rcases sender_close exchange with same | woken
  · rw [same]
    exact Nat.le_add_right ..
  · rw [woken]
    exact exchange.sender.rank_wake_le

theorem rank_receiver_close_le (exchange : Exchange PatternSender PatternChecker) :
    exchange.close.receiver.rank ≤ exchange.receiver.rank + 1 := by
  rcases receiver_close exchange with same | woken
  · rw [same]
    exact Nat.le_add_right ..
  · rw [woken]
    exact exchange.receiver.rank_wake_le

namespace MovesPattern

variable {size chunk : Nat} {limit : Span} {queued delivered : Bytes}
  {sendAnswers : List (Except Fault Nat)} {receiveAnswers : List (Except Fault Bytes)}

theorem rank_sender_runSend (some' : chunk ≠ 0)
    (moves : exchange.MovesPattern size chunk limit queued delivered sendAnswers receiveAnswers)
    {left : Bytes} {sent : Nat} {next : Except Fault Nat → PatternSender}
    (inSend : exchange.sender.InSend left sent next) (expired : Bool) :
    (exchange.runSend left sent next expired).exchange.sender.rank ≤ exchange.sender.rank ∧
      ((exchange.runSend left sent next expired).queued = [] →
        (exchange.runSend left sent next expired).exchange.sender.rank <
          exchange.sender.rank) := by
  rcases moves.hasQueued.amid inSend with ⟨amid, unended⟩
  rcases inSend.rank_of_unended unended with ⟨atLeast, resumed⟩
  have goesOn := sender_runSend inSend expired
  cases answered : exchange.sendAnswer? (.sender expired) with
  | none =>
      rw [answered] at goesOn
      rw [SenderState.rank_of_parked goesOn]
      omega
  | some answer =>
      rw [answered] at goesOn
      rw [goesOn]
      cases amid with
      | sending position sent more count_eq within =>
          cases answer with
          | error fault =>
              have ended : (SenderState.ready (PatternSender.afterSend
                  ⟨size, chunk, position, none⟩ (.error fault))).rank = 2 := rfl
              omega
          | ok count =>
              have goes : (SenderState.ready (PatternSender.afterSend
                  ⟨size, chunk, position, none⟩ (.ok count))).rank = 4 := rfl
              rw [goes]
              refine ⟨atLeast, ?_⟩
              intro nothing
              have outcome := sendStretch_outcome moves.sound.pipe (pattern queued.length more)
                sent exchange.sendLimit expired
              rw [sendAnswer?_eq inSend] at answered
              have begun := outcome.queued_pos
                (moves.hasQueued.left_ne_nil some' moves.hasLeft inSend) nothing answered
              rw [resumed begun]
              exact Nat.lt_succ_self 4

theorem work_runSend (some' : chunk ≠ 0)
    (moves : exchange.MovesPattern size chunk limit queued delivered sendAnswers receiveAnswers)
    {left : Bytes} {sent : Nat} {next : Except Fault Nat → PatternSender}
    (inSend : exchange.sender.InSend left sent next) (expired : Bool) :
    (exchange.runSend left sent next expired).exchange.work size
        (queued ++ (exchange.runSend left sent next expired).queued).length <
      exchange.work size queued.length := by
  rcases moves.sound.runSend_puts left sent next expired with ⟨rest, -, gained, -⟩
  have within := (moves.hasQueued_send inSend expired).2.within
  have ranks := moves.rank_sender_runSend some' inSend expired
  have receiver : (exchange.runSend left sent next expired).exchange.receiver =
    if (exchange.runSend left sent next expired).queued.isEmpty then exchange.receiver
    else exchange.receiver.wake := rfl
  generalize exchange.runSend left sent next expired = after at gained within ranks receiver ⊢
  have lengths := congrArg List.length gained
  rw [List.length_append] at lengths within
  unfold work
  rw [List.length_append, lengths, receiver]
  by_cases nothing : after.queued = []
  · have nearer := ranks.2 nothing
    rw [nothing, List.isEmpty_nil, if_pos rfl, List.length_nil]
    omega
  · have positive := List.length_pos_iff.mpr nothing
    have woken := exchange.receiver.rank_wake_le
    rw [if_neg (by simpa using nothing)]
    omega

theorem rank_receiver_runReceive
    (moves : exchange.MovesPattern size chunk limit queued delivered sendAnswers receiveAnswers)
    {expired : Bool} (inTime : expired = true → mayExpire exchange.receiveLimit = true)
    {wanted : Nat} {next : Except Fault Bytes → PatternChecker}
    (inReceive : exchange.receiver.InReceive wanted next) :
    (exchange.runReceive wanted next expired).exchange.receiver.rank ≤ exchange.receiver.rank ∧
      ((exchange.runReceive wanted next expired).delivered = [] →
        (exchange.runReceive wanted next expired).exchange.receiver.rank <
          exchange.receiver.rank) := by
  have taken := (Steps.receive inTime inReceive).delivered_eq moves.sound
  have goesOn := receiver_runReceive inReceive expired
  rcases moves.hasChecked.asks inReceive with ⟨rfl, rfl, -⟩
  rw [inReceive.rank_eq]
  cases answered : exchange.receiveAnswer? (.receiver expired) with
  | none =>
      rw [answered] at goesOn
      rw [goesOn]
      exact ⟨Nat.le_succ 7, fun _ => Nat.lt_succ_self 7⟩
  | some answer =>
      rw [answered] at goesOn taken
      refine ⟨ReceiverState.rank_le _, ?_⟩
      intro nothing
      rw [goesOn]
      cases answer with
      | error fault =>
          change 6 < 8
          decide
      | ok piece =>
          rw [nothing, Option.toList_some, List.flatMap_singleton, receivedBytes] at taken
          rw [← taken]
          change 6 < 8
          decide

theorem work_runReceive
    (moves : exchange.MovesPattern size chunk limit queued delivered sendAnswers receiveAnswers)
    {expired : Bool} (inTime : expired = true → mayExpire exchange.receiveLimit = true)
    {wanted : Nat} {next : Except Fault Bytes → PatternChecker}
    (inReceive : exchange.receiver.InReceive wanted next) :
    (exchange.runReceive wanted next expired).exchange.work size queued.length <
      exchange.work size queued.length := by
  have conserved := (moves.sound.runReceive wanted next expired).conserved
  have ranks := moves.rank_receiver_runReceive inTime inReceive
  have sender : (exchange.runReceive wanted next expired).exchange.sender =
    if (exchange.runReceive wanted next expired).delivered.isEmpty then exchange.sender
    else exchange.sender.wake := rfl
  have noneQueued : (exchange.runReceive wanted next expired).queued = [] := rfl
  rw [noneQueued] at conserved
  generalize exchange.runReceive wanted next expired = after at conserved ranks sender ⊢
  have lengths := congrArg List.length conserved
  rw [List.append_nil, List.length_append] at lengths
  unfold work
  rw [lengths, sender]
  by_cases nothing : after.delivered = []
  · have nearer := ranks.2 nothing
    rw [nothing, List.isEmpty_nil, if_pos rfl, List.length_nil]
    omega
  · have positive := List.length_pos_iff.mpr nothing
    have woken := exchange.sender.rank_wake_le
    rw [if_neg (by simpa using nothing)]
    omega

/-- Every step but a wake-up does some of the work. -/
theorem work_step (some' : chunk ≠ 0)
    (moves : exchange.MovesPattern size chunk limit queued delivered sendAnswers receiveAnswers)
    (steps : exchange.Steps event stepped) :
    stepped.exchange.work size (queued ++ stepped.queued).length + 1 ≤
      exchange.work size queued.length + 3 * if event.isWakeUp then 1 else 0 := by
  -- Closing the pipe may wake the other thread, but the one that closes it gets on by more.
  have wokenSender := exchange.rank_sender_close_le
  have wokenReceiver := exchange.rank_receiver_close_le
  cases steps with
  | send inTime inSend => exact moves.work_runSend some' inSend _
  | receive inTime inReceive =>
      rw [runReceive, List.append_nil]
      exact moves.work_runReceive inTime inReceive
  | senderOver inTime ready call =>
      have ranks := SenderState.rank_of_done call
      simp only [Stepped.still, List.append_nil, work, content_close, ready]
      omega
  | senderCloses inTime ready call =>
      have ranks := SenderState.rank_of_close call
      simp only [Stepped.still, List.append_nil, work, content_close, ready]
      omega
  | receiverOver inTime ready call =>
      have ranks := ReceiverState.rank_of_done call
      simp only [Stepped.still, List.append_nil, work, content_close, ready]
      omega
  | receiverCloses inTime ready call =>
      have ranks := ReceiverState.rank_of_close call
      simp only [Stepped.still, List.append_nil, work, content_close, ready]
      omega
  | wakeSender parked =>
      have woken := exchange.sender.rank_wake_le
      simp only [Stepped.still, List.append_nil, work, Event.isWakeUp, if_true]
      omega
  | wakeReceiver parked =>
      have woken := exchange.receiver.rank_wake_le
      simp only [Stepped.still, List.append_nil, work, Event.isWakeUp, if_true]
      omega

theorem length_le_work (some' : chunk ≠ 0)
    (moves : exchange.MovesPattern size chunk limit queued delivered sendAnswers receiveAnswers)
    (events : List Event) {last : Stepped PatternSender PatternChecker}
    (followed : exchange.follow? events = some last) :
    events.length ≤ exchange.work size queued.length + 3 * events.countP Event.isWakeUp := by
  induction events generalizing exchange queued delivered sendAnswers receiveAnswers last with
  | nil => exact Nat.zero_le _
  | cons event events induction =>
      rcases follow?_cons_eq_some_iff.mp followed with ⟨first, rest, steps, later, rfl⟩
      have worked := moves.work_step some' steps
      have bounded := induction (moves.step some' steps) later
      rw [List.length_cons, List.countP_cons]
      omega

end MovesPattern

end Exchange

end Pipe

end ByteStreams
