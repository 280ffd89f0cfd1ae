import ByteStreams.Proofs.Channel.Reporting
import ByteStreams.Proofs.Pipe.Answers
import ByteStreams.Proofs.Pipe.Closing

/-! # What a program hears of its pipe

However two threads run, and whatever time limits are set meanwhile, the answers that the calls
of one end with are those along a branch of its program. A write to a pipe is a number of
sends. It fails with the fault of a send, and that send is its last.
-/

namespace ByteStreams

namespace Pipe

open Channel (Call Pull Reading Unfailed Writing)

variable {α σ ρ : Type}

/-! ## Runs -/

/-- From `first` on, whatever the threads do and whatever time limits are set, their sends and
receives may answer so until the threads have come to this. -/
inductive Exchange.Runs [SendTask σ] [ReceiveTask ρ] (first : Exchange σ ρ) :
    List (Except Fault Nat) → List (Except Fault Bytes) → Exchange σ ρ → Prop
  | refl : Runs first [] [] first
  | step {sent : List (Except Fault Nat)} {received : List (Except Fault Bytes)}
      {exchange : Exchange σ ρ} {event : Event} {stepped : Stepped σ ρ}
      (runs : Runs first sent received exchange) (happens : exchange.step? event = some stepped) :
      Runs first (sent ++ (exchange.sendAnswer? event).toList)
        (received ++ (exchange.receiveAnswer? event).toList) stepped.exchange
  | limits {sent : List (Except Fault Nat)} {received : List (Except Fault Bytes)}
      {exchange : Exchange σ ρ} (runs : Runs first sent received exchange)
      (sendLimit receiveLimit : Option Span) :
      Runs first sent received
        { exchange with sendLimit := sendLimit, receiveLimit := receiveLimit }

namespace Exchange.Runs

variable [SendTask σ] [ReceiveTask ρ] {first exchange : Exchange σ ρ}
  {sent : List (Except Fault Nat)} {received : List (Except Fault Bytes)}

theorem of_follow (runs : first.Runs sent received exchange) (events : List Event)
    {last : Stepped σ ρ} (followed : exchange.follow? events = some last) :
    first.Runs (sent ++ exchange.sendAnswers events) (received ++ exchange.receiveAnswers events)
      last.exchange := by
  induction events generalizing exchange sent received last with
  | nil =>
      cases followed
      rw [sendAnswers, receiveAnswers, List.append_nil, List.append_nil]
      exact runs
  | cons event events induction =>
      rcases follow?_cons_eq_some_iff.mp followed with ⟨next, rest, steps, later, rfl⟩
      rw [sendAnswers_cons steps, receiveAnswers_cons steps, ← List.append_assoc,
        ← List.append_assoc]
      have reached := induction (runs.step (step?_eq_some_iff.mpr steps)) later
      exact reached

theorem keeps (runs : first.Runs sent received exchange) (sound : first.Sound)
    (hasLeft : first.sender.HasLeft) : exchange.Sound ∧ exchange.sender.HasLeft := by
  induction runs with
  | refl => exact ⟨sound, hasLeft⟩
  | step runs happens induction =>
      have steps := step?_eq_some_iff.mp happens
      exact ⟨(steps.keeps induction.1).sound, steps.hasLeft induction.1 induction.2⟩
  | limits runs sendLimit receiveLimit induction =>
      rcases induction with ⟨sound, hasLeft⟩
      exact ⟨⟨sound.pipe, sound.sender, sound.receiver⟩, hasLeft⟩

end Exchange.Runs

/-! ## Branches -/

/-- The sends of the program may be answered so, and then it has this result. No send of bytes
succeeds without having queued any. -/
inductive Sending.Hears : Sending α → List (Except Fault Nat) → α → Prop
  | done (result : α) : Hears (.done result) [] result
  | send {data : Bytes} {next : Except Fault Nat → Sending α} {answer : Except Fault Nat}
      {answers : List (Except Fault Nat)} {result : α} (progress : data ≠ [] → answer ≠ .ok 0)
      (others : Hears (next answer) answers result) :
      Hears (.send data next) (answer :: answers) result
  | close {next : Sending α} {answers : List (Except Fault Nat)} {result : α}
      (others : Hears next answers result) : Hears (.close next) answers result

inductive Receiving.Hears : Receiving α → List (Except Fault Bytes) → α → Prop
  | done (result : α) : Hears (.done result) [] result
  | receive {wanted : Nat} {next : Except Fault Bytes → Receiving α}
      {answer : Except Fault Bytes} {answers : List (Except Fault Bytes)} {result : α}
      (others : Hears (next answer) answers result) :
      Hears (.receive wanted next) (answer :: answers) result
  | close {next : Receiving α} {answers : List (Except Fault Bytes)} {result : α}
      (others : Hears next answers result) : Hears (.close next) answers result

def SenderState.Hears : SenderState (Sending α) → List (Except Fault Nat) → α → Prop
  | .ready task, answers, result | .finished task, answers, result => task.Hears answers result
  | .awake _ _ next, answers, result | .parked _ _ next, answers, result =>
      ∃ answer others, answers = answer :: others ∧ answer ≠ .ok 0 ∧
        (next answer).Hears others result

def ReceiverState.Hears : ReceiverState (Receiving α) → List (Except Fault Bytes) → α → Prop
  | .ready task, answers, result | .finished task, answers, result => task.Hears answers result
  | .awake _ next, answers, result | .parked _ next, answers, result =>
      ∃ answer others, answers = answer :: others ∧ (next answer).Hears others result

theorem SenderState.hears_of_finished {sender : SenderState (Sending α)} {result : α}
    (finished : sender.finished?.bind Sending.result? = some result) : sender.Hears [] result := by
  cases sender with
  | finished task =>
      cases task with
      | done last =>
          cases finished
          exact .done result
      | _ => cases finished
  | _ => cases finished

theorem ReceiverState.hears_of_finished {receiver : ReceiverState (Receiving α)} {result : α}
    (finished : receiver.finished?.bind Receiving.result? = some result) :
    receiver.Hears [] result := by
  cases receiver with
  | finished task =>
      cases task with
      | done last =>
          cases finished
          exact .done result
      | _ => cases finished
  | _ => cases finished

theorem SenderState.Hears.of_wake {sender : SenderState (Sending α)}
    {answers : List (Except Fault Nat)} {result : α} (hears : sender.wake.Hears answers result) :
    sender.Hears answers result := by
  cases sender <;> exact hears

theorem ReceiverState.Hears.of_wake {receiver : ReceiverState (Receiving α)}
    {answers : List (Except Fault Bytes)} {result : α}
    (hears : receiver.wake.Hears answers result) : receiver.Hears answers result := by
  cases receiver <;> exact hears

theorem SenderState.InSend.hears {sender : SenderState (Sending α)} {left : Bytes} {count : Nat}
    {next : Except Fault Nat → Sending α} {answer : Except Fault Nat}
    {answers : List (Except Fault Nat)} {result : α} (inSend : sender.InSend left count next)
    (hasLeft : sender.HasLeft) (progress : left ≠ [] → answer ≠ .ok 0)
    (others : (next answer).Hears answers result) : sender.Hears (answer :: answers) result := by
  cases inSend with
  | @begins task data next call =>
      cases task with
      | send data next =>
          cases call
          exact .send progress others
      | _ => cases call
  | resumes left count next => exact ⟨answer, answers, rfl, progress hasLeft, others⟩

theorem ReceiverState.InReceive.hears {receiver : ReceiverState (Receiving α)} {wanted : Nat}
    {next : Except Fault Bytes → Receiving α} {answer : Except Fault Bytes}
    {answers : List (Except Fault Bytes)} {result : α}
    (inReceive : receiver.InReceive wanted next) (others : (next answer).Hears answers result) :
    receiver.Hears (answer :: answers) result := by
  cases inReceive with
  | @begins task wanted next call =>
      cases task with
      | receive wanted next =>
          cases call
          exact .receive others
      | _ => cases call
  | resumes wanted next => exact ⟨answer, answers, rfl, others⟩

/-! ## Steps back -/

theorem SendOutcome.progress {pipe : Pipe} {left : Bytes} {queued : Nat} {limit : Option Span}
    {expired : Bool} {stretch : SendStretch} {answer : Except Fault Nat}
    (outcome : SendOutcome pipe left queued limit expired stretch)
    (answers : stretch.finish = .answers answer) (some' : left ≠ []) : answer ≠ .ok 0 := by
  have size := List.length_pos_iff.mpr some'
  cases outcome with
  | whole gains =>
      cases answers
      intro nothing
      have total := Except.ok.inj nothing
      omega
  | refused more closed =>
      cases answers
      intro same
      cases same
  | stuck split more opened gains full =>
      cases expired with
      | false => cases answers
      | true =>
          rw [awaitRoom, if_pos rfl] at answers
          split at answers
          · rename_i positive
            cases answers
            exact fun nothing => Nat.pos_iff_ne_zero.mp positive (Except.ok.inj nothing)
          · cases answers
            intro same
            cases same

namespace Exchange

section Sender

variable {exchange : Exchange (Sending α) ρ} {result : α} {answers : List (Except Fault Nat)}

theorem Sound.runSend_hears (sound : exchange.Sound) (hasLeft : exchange.sender.HasLeft)
    {left : Bytes} {count : Nat} {next : Except Fault Nat → Sending α} {expired : Bool}
    (inSend : exchange.sender.InSend left count next)
    (hears : (exchange.runSend left count next expired).exchange.sender.Hears answers result) :
    exchange.sender.Hears ((exchange.sendAnswer? (.sender expired)).toList ++ answers) result := by
  have outcome := sendStretch_outcome sound.pipe left count exchange.sendLimit expired
  rw [sendAnswer?_eq inSend]
  rw [Exchange.runSend] at hears
  cases finish : (exchange.pipe.sendStretch left count exchange.sendLimit expired).finish with
  | answers answer =>
      rw [finish] at hears
      exact inSend.hears hasLeft (outcome.progress finish) hears
  | waits rest queued =>
      rw [finish] at hears
      rcases hears with ⟨answer, others, rfl, progress, later⟩
      exact inSend.hears hasLeft (fun _ => progress) later

variable [ReceiveTask ρ]

theorem Steps.sender_hears {event : Event} {stepped : Stepped (Sending α) ρ}
    (steps : exchange.Steps event stepped) (sound : exchange.Sound)
    (hasLeft : exchange.sender.HasLeft) (hears : stepped.exchange.sender.Hears answers result) :
    exchange.sender.Hears ((exchange.sendAnswer? event).toList ++ answers) result := by
  cases event with
  | sender expired =>
      cases steps with
      | send inTime inSend => exact sound.runSend_hears hasLeft inSend hears
      | senderOver inTime ready call =>
          rw [sendAnswer?_of_done ready call, ready]
          exact hears
      | @senderCloses _ task next inTime ready call =>
          rw [sendAnswer?_of_close ready call, ready]
          cases task with
          | close next =>
              cases call
              exact .close hears
          | _ => cases call
  | _ =>
      rcases steps.sender_unmoved (by simp) with ⟨-, unanswered, same | woken⟩
      · rwa [unanswered, ← same]
      · rw [woken] at hears
        rw [unanswered]
        exact hears.of_wake

/-- What a sender hears along a run is what the run's sends answered. -/
theorem Runs.sender_hears {first : Exchange (Sending α) ρ} {sent : List (Except Fault Nat)}
    {received : List (Except Fault Bytes)} (runs : first.Runs sent received exchange)
    (sound : first.Sound) (hasLeft : first.sender.HasLeft)
    (hears : exchange.sender.Hears answers result) :
    first.sender.Hears (sent ++ answers) result := by
  induction runs generalizing answers with
  | refl => exact hears
  | step runs happens induction =>
      rcases runs.keeps sound hasLeft with ⟨middleSound, middleHasLeft⟩
      rw [List.append_assoc]
      exact induction
        ((step?_eq_some_iff.mp happens).sender_hears middleSound middleHasLeft hears)
  | limits runs sendLimit receiveLimit induction => exact induction hears

theorem Runs.started_hears {pipe : Pipe} {sendLimit receiveLimit : Option Span}
    {task : Sending α} {receiver : ρ} {sent : List (Except Fault Nat)}
    {received : List (Except Fault Bytes)}
    (runs : (start pipe sendLimit receiveLimit task receiver).Runs sent received exchange)
    (sound : pipe.Sound) (hears : exchange.sender.Hears answers result) :
    task.Hears (sent ++ answers) result :=
  runs.sender_hears (sound_start sound sendLimit receiveLimit task receiver) trivial hears

end Sender

section Receiver

variable [SendTask σ] {exchange : Exchange σ (Receiving α)} {result : α}
  {answers : List (Except Fault Bytes)}

theorem Steps.receiver_hears {event : Event} {stepped : Stepped σ (Receiving α)}
    (steps : exchange.Steps event stepped)
    (hears : stepped.exchange.receiver.Hears answers result) :
    exchange.receiver.Hears ((exchange.receiveAnswer? event).toList ++ answers) result := by
  cases event with
  | receiver expired =>
      cases steps with
      | receive inTime inReceive =>
          have goesOn := receiver_runReceive inReceive expired
          cases answered : exchange.receiveAnswer? (.receiver expired) with
          | some answer =>
              rw [answered] at goesOn
              rw [goesOn] at hears
              exact inReceive.hears hears
          | none =>
              rw [answered] at goesOn
              rw [goesOn] at hears
              rcases hears with ⟨answer, others, rfl, later⟩
              exact inReceive.hears later
      | receiverOver inTime ready call =>
          rw [receiveAnswer?_of_done ready call, ready]
          exact hears
      | @receiverCloses _ task next inTime ready call =>
          rw [receiveAnswer?_of_close ready call, ready]
          cases task with
          | close next =>
              cases call
              exact .close hears
          | _ => cases call
  | _ =>
      rcases steps.receiver_unmoved (by simp) with ⟨-, unanswered, same | woken⟩
      · rwa [unanswered, ← same]
      · rw [woken] at hears
        rw [unanswered]
        exact hears.of_wake

theorem Runs.receiver_hears {first : Exchange σ (Receiving α)} {sent : List (Except Fault Nat)}
    {received : List (Except Fault Bytes)} (runs : first.Runs sent received exchange)
    (hears : exchange.receiver.Hears answers result) :
    first.receiver.Hears (received ++ answers) result := by
  induction runs generalizing answers with
  | refl => exact hears
  | step runs happens induction =>
      rw [List.append_assoc]
      exact induction ((step?_eq_some_iff.mp happens).receiver_hears hears)
  | limits runs sendLimit receiveLimit induction => exact induction hears

end Receiver

end Exchange

/-! ## Programs on channels -/

def Counted (answers : List (Except Fault Nat)) : Prop :=
  ∀ answer ∈ answers, ∃ count, answer = .ok count

def Supplied (answers : List (Except Fault Bytes)) : Prop :=
  ∀ answer ∈ answers, ∃ byte more, answer = .ok (byte :: more)

theorem counted_nil : Counted [] := fun _ none' => nomatch none'

theorem counted_cons (count : Nat) {answers : List (Except Fault Nat)} (counted : Counted answers) :
    Counted (.ok count :: answers) :=
  List.forall_mem_cons.mpr ⟨⟨count, rfl⟩, counted⟩

theorem Counted.append {answers more : List (Except Fault Nat)} (counted : Counted answers)
    (others : Counted more) : Counted (answers ++ more) :=
  List.forall_mem_append.mpr ⟨counted, others⟩

/-- A call of a writing program may be these sends. A pipe is flushed without any. -/
inductive Heard : Call → List (Except Fault Nat) → Prop
  | unfailed {call : Call} {answers : List (Except Fault Nat)} (unfailed : call.failure? = none)
      (counted : Counted answers) : Heard call answers
  | refused {data : Bytes} {fault : Fault} :
      Heard (.offered data (.error (.pipe fault))) [.error fault]
  | cut {taken left : Bytes} {answers : List (Except Fault Nat)} {fault : Fault}
      (counted : Counted answers) :
      Heard (.cut taken left (.pipe fault)) (answers ++ [.error fault])

inductive HeardAll : List Call → List (Except Fault Nat) → Prop
  | nil : HeardAll [] []
  | cons {call : Call} {calls : List Call} {answers more : List (Except Fault Nat)}
      (first : Heard call answers) (others : HeardAll calls more) :
      HeardAll (call :: calls) (answers ++ more)

theorem HeardAll.of_append {calls more : List Call} {answers : List (Except Fault Nat)}
    (heard : HeardAll (calls ++ more) answers) :
    ∃ first later, answers = first ++ later ∧ HeardAll calls first ∧ HeardAll more later := by
  induction calls generalizing answers with
  | nil => exact ⟨[], answers, rfl, .nil, heard⟩
  | cons call calls induction =>
      cases heard with
      | @cons _ _ answers _ one others =>
          rcases induction others with ⟨first, later, rfl, heard, laterHeard⟩
          exact ⟨answers ++ first, later, (List.append_assoc ..).symm, .cons one heard, laterHeard⟩

theorem Heard.counted {call : Call} {answers : List (Except Fault Nat)}
    (heard : Heard call answers) (unfailed : call.failure? = none) : Counted answers := by
  cases heard with
  | unfailed _ counted => exact counted
  | refused => cases unfailed
  | cut counted => cases unfailed

theorem Heard.fails {call : Call} {answers : List (Except Fault Nat)} {failure : Channel.Failure}
    (heard : Heard call answers) (failed : call.failure? = some failure) :
    ∃ counts fault, answers = counts ++ [.error fault] ∧ Counted counts ∧
      failure = .pipe fault := by
  cases heard with
  | unfailed unfailed counted => cases failed.symm.trans unfailed
  | refused =>
      cases failed
      exact ⟨[], _, rfl, counted_nil, rfl⟩
  | cut counted =>
      cases failed
      exact ⟨_, _, rfl, counted, rfl⟩

theorem HeardAll.counted {calls : List Call} {answers : List (Except Fault Nat)}
    (heard : HeardAll calls answers) (unfailed : Unfailed calls) : Counted answers := by
  induction heard with
  | nil => exact counted_nil
  | cons first others induction =>
      rcases List.forall_mem_cons.mp unfailed with ⟨one, rest⟩
      exact (first.counted one).append (induction rest)

theorem HeardAll.settles {calls : List Call} {answers : List (Except Fault Nat)}
    (heard : HeardAll calls answers) (failure : Channel.Failure) :
    .settled (.error failure) ∉ calls := by
  induction heard with
  | nil => exact List.not_mem_nil
  | cons first others induction =>
      intro member
      rcases List.mem_cons.mp member with rfl | later
      · rcases first with ⟨unfailed, -⟩
        cases unfailed
      · exact induction later

theorem HeardAll.reports {ε : Type} {wrap : Channel.Failure → ε} {calls : List Call}
    {outcome : Except ε Unit} {answers : List (Except Fault Nat)} (heard : HeardAll calls answers)
    (reports : Channel.Reports wrap calls outcome) :
    Counted answers ∧ outcome = .ok () ∨
      ∃ counts fault, answers = counts ++ [.error fault] ∧ Counted counts ∧
        outcome = .error (wrap (.pipe fault)) := by
  cases reports with
  | succeeds unfailed => exact .inl ⟨heard.counted unfailed, rfl⟩
  | fails unfailed failed =>
      rcases heard.of_append with ⟨first, later, rfl, firstHeard, laterHeard⟩
      cases laterHeard with
      | cons one none' =>
          cases none'
          rcases one.fails failed with ⟨counts, fault, rfl, counted, rfl⟩
          have allCounted := (firstHeard.counted unfailed).append counted
          exact .inr ⟨first ++ counts, fault, by simp, allCounted, rfl⟩

theorem sendAll_hears {data : Bytes} {next : Except Channel.Failure Unit → Sending α}
    {answers : List (Except Fault Nat)} {result : α}
    (hears : (sendAll data next).Hears answers result) :
    (∃ counts more, answers = counts ++ more ∧ Counted counts ∧
      (next (.ok ())).Hears more result) ∨
    ∃ counts fault more, answers = (counts ++ [.error fault]) ++ more ∧ Counted counts ∧
      data ≠ [] ∧ (next (.error (.pipe fault))).Hears more result := by
  induction count : data.length using Nat.strongRecOn generalizing data answers with
  | ind size induction =>
      rw [sendAll] at hears
      split at hears
      · exact .inl ⟨[], answers, rfl, counted_nil, hears⟩
      · rename_i some'
        have some' : data ≠ [] := by simpa using some'
        have positive := List.length_pos_iff.mpr some'
        cases hears with
        | @send _ _ answer answers _ progress others =>
            match answer with
            | .error fault => exact .inr ⟨[], fault, answers, rfl, counted_nil, some', others⟩
            | .ok 0 => exact absurd rfl (progress some')
            | .ok (more + 1) =>
                have shorter : (data.drop (more + 1)).length < size := by
                  rw [List.length_drop]
                  omega
                rcases induction _ shorter others rfl with
                  ⟨counts, later, rfl, counted, hears⟩ |
                    ⟨counts, fault, later, rfl, counted, -, hears⟩
                · exact .inl ⟨_, later, rfl, counted_cons _ counted, hears⟩
                · exact .inr ⟨_, fault, later, rfl, counted_cons _ counted, some', hears⟩

/-- A writing program over a pipe goes down a branch on which its calls come to what its sends
are answered. -/
theorem toSending_hears {program : Writing α} {answers : List (Except Fault Nat)} {result : α}
    (hears : program.toSending.Hears answers result) :
    ∃ calls, program.Goes calls result ∧ HeardAll calls answers := by
  induction program generalizing answers with
  | done result =>
      cases hears
      exact ⟨[], .done result, .nil⟩
  | write data next induction =>
      cases hears with
      | @send _ _ answer answers _ progress others =>
          rcases induction _ others with ⟨calls, goes, heard⟩
          have one : Heard (.offered data (answer.mapError .pipe)) [answer] := by
            cases answer with
            | ok count => exact .unfailed rfl (counted_cons count counted_nil)
            | error fault => exact .refused
          exact ⟨_, .write _ goes, .cons one heard⟩
  | writeAll data next induction =>
      rcases sendAll_hears hears with
        ⟨counts, more, rfl, counted, others⟩ |
          ⟨counts, fault, more, rfl, counted, some', others⟩
      · rcases induction _ others with ⟨calls, goes, heard⟩
        exact ⟨_, .writeAll .all goes, .cons (.unfailed rfl counted) heard⟩
      · rcases induction _ others with ⟨calls, goes, heard⟩
        have final : (Channel.Failure.pipe fault).isInterruption = false := by
          cases fault <;> rfl
        -- How much of the data was queued before is of no account here.
        have cut : (Call.cut [] data (.pipe fault)).Writes data (.error (.pipe fault)) :=
          .part rfl some' final
        exact ⟨_, .writeAll cut goes, .cons (.cut counted) heard⟩
  | flush next induction =>
      rcases induction _ hears with ⟨calls, goes, heard⟩
      exact ⟨_, .flush (.ok ()) goes, .cons (.unfailed rfl counted_nil) heard⟩
  | settle next induction =>
      rcases induction _ hears with ⟨calls, goes, heard⟩
      exact ⟨_, .settle (.ok ()) goes, .cons (.unfailed rfl counted_nil) heard⟩
  | release next induction =>
      cases hears with
      | close others =>
          rcases induction others with ⟨calls, goes, heard⟩
          exact ⟨_, .release goes, .cons (.unfailed rfl counted_nil) heard⟩

theorem toReceiving_hears {program : Reading α} {answers : List (Except Fault Bytes)} {result : α}
    (hears : program.toReceiving.Hears answers result) :
    ∃ pulls, program.Goes pulls result ∧
      pulls.map Pull.answer = answers.map fun answer => answer.mapError .pipe := by
  induction program generalizing answers with
  | done result =>
      cases hears
      exact ⟨[], .done result, rfl⟩
  | read limit next induction =>
      cases hears with
      | receive others =>
          rcases induction _ others with ⟨pulls, goes, same⟩
          exact ⟨_, .read _ goes, congrArg _ same⟩
  | pull limit next induction =>
      cases hears with
      | receive others =>
          rcases induction _ others with ⟨pulls, goes, same⟩
          exact ⟨_, .pull _ goes, congrArg _ same⟩

/-! ## One program after another -/

variable {β : Type}

def Sending.bind : Sending α → (α → Sending β) → Sending β
  | .done result, andThen => andThen result
  | .send data next, andThen => .send data fun answer => (next answer).bind andThen
  | .close next, andThen => .close (next.bind andThen)

def Receiving.bind : Receiving α → (α → Receiving β) → Receiving β
  | .done result, andThen => andThen result
  | .receive wanted next, andThen => .receive wanted fun answer => (next answer).bind andThen
  | .close next, andThen => .close (next.bind andThen)

theorem Sending.Hears.of_bind {program : Sending α} {andThen : α → Sending β}
    {answers : List (Except Fault Nat)} {last : β}
    (hears : (program.bind andThen).Hears answers last) :
    ∃ first result later, answers = first ++ later ∧ program.Hears first result ∧
      (andThen result).Hears later last := by
  induction program generalizing answers with
  | done result => exact ⟨[], result, answers, rfl, .done result, hears⟩
  | send data next induction =>
      cases hears with
      | send progress others =>
          rcases induction _ others with ⟨first, result, later, rfl, hears, laterHears⟩
          exact ⟨_ :: first, result, later, rfl, .send progress hears, laterHears⟩
  | close next induction =>
      cases hears with
      | close others =>
          rcases induction others with ⟨first, result, later, rfl, hears, laterHears⟩
          exact ⟨first, result, later, rfl, .close hears, laterHears⟩

theorem Receiving.Hears.of_bind {program : Receiving α} {andThen : α → Receiving β}
    {answers : List (Except Fault Bytes)} {last : β}
    (hears : (program.bind andThen).Hears answers last) :
    ∃ first result later, answers = first ++ later ∧ program.Hears first result ∧
      (andThen result).Hears later last := by
  induction program generalizing answers with
  | done result => exact ⟨[], result, answers, rfl, .done result, hears⟩
  | receive wanted next induction =>
      cases hears with
      | receive others =>
          rcases induction _ others with ⟨first, result, later, rfl, hears, laterHears⟩
          exact ⟨_ :: first, result, later, rfl, .receive hears, laterHears⟩
  | close next induction =>
      cases hears with
      | close others =>
          rcases induction others with ⟨first, result, later, rfl, hears, laterHears⟩
          exact ⟨first, result, later, rfl, .close hears, laterHears⟩

theorem sendAll_bind (data : Bytes) (next : Except Channel.Failure Unit → Sending α)
    (andThen : α → Sending β) :
    (sendAll data next).bind andThen = sendAll data fun answer => (next answer).bind andThen := by
  induction count : data.length using Nat.strongRecOn generalizing data with
  | ind size induction =>
      rw [sendAll, sendAll]
      split
      · rfl
      · rename_i some'
        have positive : 0 < data.length := List.length_pos_iff.mpr (by simpa using some')
        refine congrArg (Sending.send data) (funext fun answer => ?_)
        match answer with
        | .error fault => rfl
        | .ok 0 => rfl
        | .ok (more + 1) =>
            refine induction _ ?_ _ rfl
            rw [List.length_drop]
            omega

theorem toSending_bind (program : Writing α) (andThen : α → Writing β) :
    (program.bind andThen).toSending =
      program.toSending.bind fun result => (andThen result).toSending := by
  induction program with
  | done result => rfl
  | write data next induction =>
      simp only [Writing.bind, Writing.toSending, Sending.bind, induction]
  | writeAll data next induction =>
      simp only [Writing.bind, Writing.toSending, sendAll_bind, induction]
  | flush next induction => exact induction _
  | settle next induction => exact induction _
  | release next induction => exact congrArg Sending.close induction

theorem toReceiving_bind (program : Reading α) (andThen : α → Reading β) :
    (program.bind andThen).toReceiving =
      program.toReceiving.bind fun result => (andThen result).toReceiving := by
  induction program with
  | done result => rfl
  | read limit next induction | pull limit next induction =>
      simp only [Reading.bind, Reading.toReceiving, Receiving.bind, induction]

theorem toSending_hears_bind {program : Writing α} {andThen : α → Writing β}
    {answers : List (Except Fault Nat)} {last : β}
    (hears : (program.bind andThen).toSending.Hears answers last) :
    ∃ first result later, answers = first ++ later ∧ program.toSending.Hears first result ∧
      (andThen result).toSending.Hears later last := by
  rw [toSending_bind] at hears
  exact hears.of_bind

theorem toReceiving_hears_bind {program : Reading α} {andThen : α → Reading β}
    {answers : List (Except Fault Bytes)} {last : β}
    (hears : (program.bind andThen).toReceiving.Hears answers last) :
    ∃ first result later, answers = first ++ later ∧ program.toReceiving.Hears first result ∧
      (andThen result).toReceiving.Hears later last := by
  rw [toReceiving_bind] at hears
  exact hears.of_bind

theorem toSending_hears_map {program : Writing α} {change : α → β}
    {answers : List (Except Fault Nat)} {last : β}
    (hears : (program.map change).toSending.Hears answers last) :
    ∃ result, program.toSending.Hears answers result ∧ change result = last := by
  rcases toSending_hears_bind hears with ⟨first, result, later, rfl, firstHears, laterHears⟩
  cases laterHears
  rw [List.append_nil]
  exact ⟨result, firstHears, rfl⟩

theorem toReceiving_hears_map {program : Reading α} {change : α → β}
    {answers : List (Except Fault Bytes)} {last : β}
    (hears : (program.map change).toReceiving.Hears answers last) :
    ∃ result, program.toReceiving.Hears answers result ∧ change result = last := by
  rcases toReceiving_hears_bind hears with ⟨first, result, later, rfl, firstHears, laterHears⟩
  cases laterHears
  rw [List.append_nil]
  exact ⟨result, firstHears, rfl⟩

end Pipe

end ByteStreams
