import ByteStreams.Proofs.Pipe.PatternThreads

/-! # A pattern goes through a pipe

A thread that sends the pattern and one that checks it never disagree, whatever their
schedule is and whichever waits reach their time limit. The pipe is closed only when one
of the two has come to its end, so a sender that finds it closed was left by a checker
that timed out.
-/

namespace ByteStreams

namespace Pipe

open PatternSender (Amid)

namespace Exchange

variable {exchange : Exchange PatternSender PatternChecker} {event : Event}
  {stepped : Stepped PatternSender PatternChecker}

theorem Steps.end_kept (steps : exchange.Steps event stepped) {finish : Except Fault Unit}
    (ended : exchange.sender.end? = some finish) :
    stepped.exchange.sender.end? = some finish := by
  cases event with
  | sender expired =>
      cases steps with
      | send inTime inSend =>
          generalize exchange.sender = sender at inSend ended
          cases inSend with
          | begins call =>
              rw [PatternSender.call_of_finish ended] at call
              cases call
          | resumes => cases ended
      | senderOver inTime ready call =>
          rw [ready] at ended
          exact ended
      | senderCloses inTime ready call =>
          rw [ready] at ended
          rw [PatternSender.call_of_finish ended] at call
          cases call
  | _ => rw [SenderState.end?_of_unmoved (steps.sender_unmoved (by simp)).2.2, ended]

theorem Steps.isSome_end_kept (steps : exchange.Steps event stepped)
    (isOver : exchange.sender.end?.isSome = true) :
    stepped.exchange.sender.end?.isSome = true := by
  rcases Option.isSome_iff_exists.mp isOver with ⟨finish, ended⟩
  rw [steps.end_kept ended, Option.isSome_some]

theorem Steps.found_kept {σ : Type} [SendTask σ] {exchange : Exchange σ PatternChecker}
    {stepped : Stepped σ PatternChecker} (steps : exchange.Steps event stepped)
    {found : CheckEnd} (ended : exchange.receiver.found? = some found) :
    stepped.exchange.receiver.found? = some found := by
  cases event with
  | receiver expired =>
      cases steps with
      | receive inTime inReceive =>
          generalize exchange.receiver = receiver at inReceive ended
          cases inReceive with
          | @begins checker wanted next call =>
              have finish : checker.finish = some found := ended
              cases closed : checker.closed <;>
                simp [ReceiveTask.call, finish, closed] at call
          | resumes => cases ended
      | receiverOver inTime ready call =>
          rw [ready] at ended
          exact ended
      | @receiverCloses _ checker next inTime ready call =>
          rw [ready] at ended
          have finish : checker.finish = some found := ended
          cases closed : checker.closed with
          | true => simp [ReceiveTask.call, closed] at call
          | false =>
              simp only [ReceiveTask.call, closed, finish, Option.isSome_some, if_true,
                Bool.false_eq_true, if_false] at call
              cases call
              rfl
  | _ => rw [ReceiverState.found?_of_unmoved (steps.receiver_unmoved (by simp)).2.2, ended]

theorem Steps.checks_or_receives {σ : Type} [SendTask σ] {exchange : Exchange σ PatternChecker}
    {stepped : Stepped σ PatternChecker} (steps : exchange.Steps event stepped)
    {chunk count : Nat} (hasChecked : exchange.receiver.HasChecked chunk count) :
    stepped.delivered = [] ∧ stepped.exchange.receiver.HasChecked chunk count ∨
      ∃ expired wanted next, event = .receiver expired ∧
        exchange.receiver.InReceive wanted next := by
  cases event with
  | receiver expired =>
      cases steps with
      | receive inTime inReceive => exact .inr ⟨_, _, _, rfl, inReceive⟩
      | receiverOver inTime ready call =>
          rw [ready] at hasChecked
          refine .inl ⟨rfl, ?_⟩
          cases hasChecked with
          | asking => cases call
          | ended found closed =>
              cases closed with
              | true => exact .finished found
              | false => cases call
      | receiverCloses inTime ready call =>
          rw [ready] at hasChecked
          refine .inl ⟨rfl, ?_⟩
          cases hasChecked with
          | asking => cases call
          | ended found closed =>
              cases closed with
              | true => cases call
              | false =>
                  cases call
                  exact .ended found true
  | _ =>
      rcases steps.receiver_unmoved (by simp) with ⟨noneDelivered, -, same⟩
      exact .inl ⟨noneDelivered, hasChecked.carry same⟩

structure IsOver (exchange : Exchange PatternSender PatternChecker) : Prop where
  closed : exchange.pipe.closed = true
  empty : exchange.pipe.content = []
  ended : exchange.sender.end?.isSome = true

theorem Steps.isOver_kept (steps : exchange.Steps event stepped) (sound : exchange.Sound)
    (isOver : exchange.IsOver) : stepped.exchange.IsOver := by
  have keeps := steps.keeps sound
  have conserved := keeps.conserved
  rw [isOver.empty, steps.queued_of_closed isOver.closed, List.append_nil] at conserved
  exact ⟨keeps.staysClosed isOver.closed, (List.append_eq_nil_iff.mp conserved.symm).2,
    steps.isSome_end_kept isOver.ended⟩

def HasEnd (exchange : Exchange PatternSender PatternChecker) : Prop :=
  exchange.sender.end?.isSome = true ∨
    ∃ flaw, exchange.receiver.found? = some (.failed flaw)

theorem Steps.hasEnd_kept (steps : exchange.Steps event stepped) (hasEnd : exchange.HasEnd) :
    stepped.exchange.HasEnd := by
  rcases hasEnd with ended | ⟨flaw, failed⟩
  · exact .inl (steps.isSome_end_kept ended)
  · exact .inr ⟨flaw, steps.found_kept failed⟩

/-- The pattern on its way: what each thread has done with it, and why each has come to its
end, if it has. -/
structure MovesPattern (size chunk : Nat) (limit : Span)
    (exchange : Exchange PatternSender PatternChecker) (queued delivered : Bytes)
    (sendAnswers : List (Except Fault Nat)) (receiveAnswers : List (Except Fault Bytes)) :
    Prop where
  sound : exchange.Sound
  hasLeft : exchange.sender.HasLeft
  sendLimit_eq : exchange.sendLimit = some limit
  receiveLimit_eq : exchange.receiveLimit = some limit
  conserved : queued = delivered ++ exchange.pipe.content
  patterned : queued = pattern 0 queued.length
  hasQueued : exchange.sender.HasQueued size chunk queued.length
  hasChecked : exchange.receiver.HasChecked chunk delivered.length
  whySender : ∀ fault, exchange.sender.end? = some (.error fault) →
    fault = .timeout limit ∧ .error fault ∈ sendAnswers ∨
      fault = .closed ∧ ∃ flaw, exchange.receiver.found? = some (.failed flaw)
  whyChecker : ∀ found, exchange.receiver.found? = some found →
    found = .matched ∧ exchange.IsOver ∨
      found = .failed (.timeout limit) ∧ .error (.timeout limit) ∈ receiveAnswers
  whyClosed : exchange.pipe.closed = true → exchange.HasEnd

namespace MovesPattern

variable {size chunk : Nat} {limit : Span} {queued delivered : Bytes}
  {sendAnswers : List (Except Fault Nat)} {receiveAnswers : List (Except Fault Bytes)}

theorem conserved_step
    (moves : exchange.MovesPattern size chunk limit queued delivered sendAnswers receiveAnswers)
    (steps : exchange.Steps event stepped) :
    queued ++ stepped.queued =
      (delivered ++ stepped.delivered) ++ stepped.exchange.pipe.content := by
  rw [moves.conserved, List.append_assoc, (steps.keeps moves.sound).conserved, List.append_assoc]

theorem hasQueued_send
    (moves : exchange.MovesPattern size chunk limit queued delivered sendAnswers receiveAnswers)
    {left : Bytes} {sent : Nat} {next : Except Fault Nat → PatternSender}
    (inSend : exchange.sender.InSend left sent next) (expired : Bool) :
    (exchange.runSend left sent next expired).queued =
        pattern queued.length (exchange.runSend left sent next expired).queued.length ∧
      (exchange.runSend left sent next expired).exchange.sender.HasQueued size chunk
        (queued ++ (exchange.runSend left sent next expired).queued).length := by
  have amid := (moves.hasQueued.amid inSend).1
  have puts := moves.sound.runSend_puts left sent next expired
  generalize exchange.runSend left sent next expired = after at puts ⊢
  cases amid with
  | sending position sent more count_eq within =>
      rcases puts with ⟨rest, split, -, goesOn⟩
      rcases pattern_eq_append split with ⟨front_eq, rest_eq⟩
      have lengths := congrArg List.length split
      rw [length_pattern, List.length_append] at lengths
      refine ⟨front_eq, ?_⟩
      rw [List.length_append]
      rcases goesOn with waits | answers | ⟨nothing, fault, fails⟩
      · rw [waits, rest_eq]
        exact .parked (.sending position _ rest.length (by omega) (by omega))
      · have place : position + (sent + after.queued.length) =
            queued.length + after.queued.length := by omega
        rw [answers, PatternSender.afterSend, place]
        exact .between (by omega)
      · rw [fails, nothing]
        exact .ended (Nat.le_of_add_right_le within) nofun

theorem hasQueued_step
    (moves : exchange.MovesPattern size chunk limit queued delivered sendAnswers receiveAnswers)
    (steps : exchange.Steps event stepped) :
    stepped.queued = pattern queued.length stepped.queued.length ∧
      stepped.exchange.sender.HasQueued size chunk (queued ++ stepped.queued).length := by
  have hasQueued := moves.hasQueued
  cases event with
  | sender expired =>
      cases steps with
      | send inTime inSend => exact moves.hasQueued_send inSend expired
      | senderOver inTime ready call =>
          rw [ready] at hasQueued
          refine ⟨rfl, ?_⟩
          rw [Stepped.still, List.append_nil]
          cases hasQueued with
          | between within =>
              rw [PatternSender.call_of_unfinished] at call
              split at call <;> cases call
          | ended within whole => exact .finished within whole
      | senderCloses inTime ready call =>
          rw [ready] at hasQueued
          refine ⟨rfl, ?_⟩
          rw [Stepped.still, List.append_nil]
          cases hasQueued with
          | between within =>
              rw [PatternSender.call_of_unfinished] at call
              split at call
              · cases call
              · cases call
                exact .ended within fun _ => by omega
          | ended within whole =>
              rw [PatternSender.call_of_finish rfl] at call
              cases call
  | _ =>
      rcases steps.sender_unmoved (by simp) with ⟨noneQueued, -, same⟩
      rw [noneQueued, List.append_nil]
      exact ⟨rfl, hasQueued.carry same⟩

theorem delivered_patterned
    (moves : exchange.MovesPattern size chunk limit queued delivered sendAnswers receiveAnswers)
    (steps : exchange.Steps event stepped) :
    stepped.delivered = pattern delivered.length stepped.delivered.length := by
  have all : pattern 0 (queued ++ stepped.queued).length =
      delivered ++ (stepped.delivered ++ stepped.exchange.pipe.content) := by
    have conserved := moves.conserved_step steps
    have queuedNow := (moves.hasQueued_step steps).1
    rw [← List.append_assoc, ← conserved, List.length_append, pattern_add, ← moves.patterned,
      Nat.zero_add, ← queuedNow]
  have front := (pattern_eq_append (pattern_eq_append all).2.symm).1
  rwa [Nat.zero_add] at front

theorem hasChecked_receive
    (moves : exchange.MovesPattern size chunk limit queued delivered sendAnswers receiveAnswers)
    {expired : Bool} (inTime : expired = true → mayExpire exchange.receiveLimit = true)
    {wanted : Nat} {next : Except Fault Bytes → PatternChecker}
    (inReceive : exchange.receiver.InReceive wanted next) :
    (exchange.runReceive wanted next expired).exchange.receiver.HasChecked chunk
      (delivered ++ (exchange.runReceive wanted next expired).delivered).length := by
  have steps := Steps.receive inTime inReceive
  have patterned := moves.delivered_patterned steps
  have taken := steps.delivered_eq moves.sound
  have goesOn := receiver_runReceive inReceive expired
  rcases moves.hasChecked.asks inReceive with ⟨rfl, rfl, -⟩
  generalize exchange.runReceive _ _ expired = after at patterned taken goesOn ⊢
  cases answered : exchange.receiveAnswer? (.receiver expired) with
  | none =>
      rw [answered] at goesOn taken
      have nothing : after.delivered = [] := taken
      rw [nothing, List.append_nil, goesOn]
      exact .parked
  | some answer =>
      rw [answered] at goesOn taken
      rw [Option.toList_some, List.flatMap_singleton] at taken
      rw [taken] at patterned ⊢
      rw [goesOn]
      cases answer with
      | error fault =>
          rw [receivedBytes, List.append_nil]
          exact .ended (.failed fault) false
      | ok piece =>
          rw [receivedBytes, List.length_append]
          by_cases nothing : piece = []
          · subst nothing
            exact .ended .matched false
          · rw [ReceiverState.HasChecked.afterBytes nothing patterned]
            exact .asking

theorem hasChecked_step
    (moves : exchange.MovesPattern size chunk limit queued delivered sendAnswers receiveAnswers)
    (steps : exchange.Steps event stepped) :
    stepped.exchange.receiver.HasChecked chunk (delivered ++ stepped.delivered).length := by
  rcases steps.checks_or_receives moves.hasChecked with
    ⟨noneDelivered, hasChecked⟩ | ⟨expired, wanted, next, rfl, inReceive⟩
  · rw [noneDelivered, List.append_nil]
    exact hasChecked
  · rw [steps.eq_runReceive inReceive]
    exact moves.hasChecked_receive steps.receiver_inTime inReceive

/-- A stretch of a send fails because it timed out, or because the checker did and closed the
pipe. -/
theorem whySender_send
    (moves : exchange.MovesPattern size chunk limit queued delivered sendAnswers receiveAnswers)
    {left : Bytes} {sent : Nat} {next : Except Fault Nat → PatternSender}
    (inSend : exchange.sender.InSend left sent next) {expired : Bool} {fault : Fault}
    (failed : (exchange.runSend left sent next expired).exchange.sender.end? =
      some (.error fault)) :
    fault = .timeout limit ∧ exchange.sendAnswer? (.sender expired) = some (.error fault) ∨
      fault = .closed ∧ ∃ flaw, exchange.receiver.found? = some (.failed flaw) := by
  rcases moves.hasQueued.amid inSend with ⟨amid, unended⟩
  have goesOn := sender_runSend inSend expired
  cases answered : exchange.sendAnswer? (.sender expired) with
  | none =>
      rw [answered] at goesOn
      rw [SenderState.end?_of_parked goesOn] at failed
      cases failed
  | some answer =>
      rw [answered] at goesOn
      rw [goesOn] at failed
      have same : answer = .error fault := by
        cases amid with
        | sending position sent more count_eq within =>
            cases answer with
            | ok count => cases failed
            | error flaw =>
                cases failed
                rfl
      rw [sendAnswer?_eq inSend, same] at answered
      have outcome := sendStretch_outcome moves.sound.pipe left sent exchange.sendLimit expired
      rcases outcome.fault_eq answered with ⟨rfl, closed⟩ | ⟨rfl, -⟩
      · rcases moves.whyClosed closed with ended | checkerFailed
        · rw [unended] at ended
          cases ended
        · exact .inr ⟨rfl, checkerFailed⟩
      · rw [moves.sendLimit_eq] at same ⊢
        exact .inl ⟨rfl, congrArg some same⟩

theorem whySender_step
    (moves : exchange.MovesPattern size chunk limit queued delivered sendAnswers receiveAnswers)
    (steps : exchange.Steps event stepped) {fault : Fault}
    (failed : stepped.exchange.sender.end? = some (.error fault)) :
    fault = .timeout limit ∧
        .error fault ∈ sendAnswers ++ (exchange.sendAnswer? event).toList ∨
      fault = .closed ∧ ∃ flaw, stepped.exchange.receiver.found? = some (.failed flaw) := by
  cases ended : exchange.sender.end? with
  | some finish =>
      rw [steps.end_kept ended] at failed
      cases failed
      rcases moves.whySender fault ended with ⟨timedOut, member⟩ | ⟨wasClosed, flaw, found⟩
      · exact .inl ⟨timedOut, List.mem_append_left _ member⟩
      · exact .inr ⟨wasClosed, flaw, steps.found_kept found⟩
  | none =>
      -- The sender failed just now, so this was a stretch of its send.
      cases event with
      | sender expired =>
          cases steps with
          | send inTime inSend =>
              rcases moves.whySender_send inSend failed with
                ⟨timedOut, answered⟩ | ⟨wasClosed, flaw, found⟩
              · refine .inl ⟨timedOut, List.mem_append_right _ ?_⟩
                rw [answered]
                exact List.mem_singleton_self _
              · exact .inr ⟨wasClosed, flaw, (Steps.send inTime inSend).found_kept found⟩
          | senderOver inTime ready call =>
              rw [ready] at ended
              exact absurd (ended.symm.trans failed) nofun
          | senderCloses inTime ready call =>
              have hasQueued := moves.hasQueued
              rw [ready] at hasQueued ended
              cases hasQueued with
              | between within =>
                  rw [PatternSender.call_of_unfinished] at call
                  split at call
                  · cases call
                  · cases call
                    cases failed
              | ended within whole => cases ended
      | _ =>
          rw [SenderState.end?_of_unmoved (steps.sender_unmoved (by simp)).2.2, ended] at failed
          cases failed

theorem whyChecker_receive (some' : chunk ≠ 0)
    (moves : exchange.MovesPattern size chunk limit queued delivered sendAnswers receiveAnswers)
    {expired : Bool} (inTime : expired = true → mayExpire exchange.receiveLimit = true)
    {wanted : Nat} {next : Except Fault Bytes → PatternChecker}
    (inReceive : exchange.receiver.InReceive wanted next) {found : CheckEnd}
    (now : (exchange.runReceive wanted next expired).exchange.receiver.found? = some found) :
    found = .matched ∧ exchange.IsOver ∨
      found = .failed (.timeout limit) ∧
        exchange.receiveAnswer? (.receiver expired) = some (.error (.timeout limit)) := by
  have steps := Steps.receive inTime inReceive
  have patterned := moves.delivered_patterned steps
  have taken := steps.delivered_eq moves.sound
  have outcome := receiveStretch_outcome moves.sound.pipe wanted exchange.receiveLimit expired
  have goesOn := receiver_runReceive inReceive expired
  rcases moves.hasChecked.asks inReceive with ⟨rfl, rfl, unfound⟩
  rw [receiveAnswer?_eq inReceive] at goesOn taken ⊢
  cases answered :
      (exchange.pipe.receiveStretch wanted exchange.receiveLimit expired).finish.answer? with
  | none =>
      rw [answered] at goesOn
      rw [goesOn] at now
      cases now
  | some answer =>
      rw [answered] at goesOn taken
      rw [goesOn] at now
      cases answer with
      | error fault =>
          cases now
          rcases outcome.fault_eq answered with ⟨rfl, -⟩
          rw [moves.receiveLimit_eq]
          exact .inr ⟨rfl, rfl⟩
      | ok piece =>
          rw [Option.toList_some, List.flatMap_singleton, receivedBytes] at taken
          rw [taken] at patterned
          by_cases nothing : piece = []
          · subst nothing
            cases now
            rcases (outcome.answers_nothing_iff some').mp answered with ⟨closed, empty⟩
            rcases moves.whyClosed closed with ended | ⟨flaw, failed⟩
            · exact .inl ⟨rfl, closed, empty, ended⟩
            · rw [unfound] at failed
              cases failed
          · rw [ReceiverState.HasChecked.afterBytes nothing patterned] at now
            cases now

theorem whyChecker_step (some' : chunk ≠ 0)
    (moves : exchange.MovesPattern size chunk limit queued delivered sendAnswers receiveAnswers)
    (steps : exchange.Steps event stepped) {found : CheckEnd}
    (now : stepped.exchange.receiver.found? = some found) :
    found = .matched ∧ stepped.exchange.IsOver ∨
      found = .failed (.timeout limit) ∧
        .error (.timeout limit) ∈
          receiveAnswers ++ (exchange.receiveAnswer? event).toList := by
  cases was : exchange.receiver.found? with
  | some before =>
      rw [steps.found_kept was] at now
      cases now
      rcases moves.whyChecker found was with ⟨matched, isOver⟩ | ⟨timedOut, member⟩
      · exact .inl ⟨matched, steps.isOver_kept moves.sound isOver⟩
      · exact .inr ⟨timedOut, List.mem_append_left _ member⟩
  | none =>
      -- The checker found it just now, so this was a stretch of its receive.
      cases event with
      | receiver expired =>
          cases steps with
          | receive inTime inReceive =>
              rcases moves.whyChecker_receive some' inTime inReceive now with
                ⟨matched, isOver⟩ | ⟨timedOut, answered⟩
              · exact .inl
                  ⟨matched, (Steps.receive inTime inReceive).isOver_kept moves.sound isOver⟩
              · refine .inr ⟨timedOut, List.mem_append_right _ ?_⟩
                rw [answered]
                exact List.mem_singleton_self _
          | receiverOver inTime ready call =>
              rw [ready] at was
              exact absurd (was.symm.trans now) nofun
          | receiverCloses inTime ready call =>
              have hasChecked := moves.hasChecked
              rw [ready] at hasChecked was
              cases hasChecked with
              | asking => cases call
              | ended found closed => cases was
      | _ =>
          rw [ReceiverState.found?_of_unmoved (steps.receiver_unmoved (by simp)).2.2, was] at now
          cases now

theorem whyClosed_of_closes
    (moves : exchange.MovesPattern size chunk limit queued delivered sendAnswers receiveAnswers)
    (steps : exchange.Steps event stepped) (opened : exchange.pipe.closed = false)
    (closes : exchange.Closes event) : stepped.exchange.HasEnd := by
  have hasQueued := moves.hasQueued
  have hasChecked := moves.hasChecked
  cases closes with
  | sender ready call =>
      rw [ready] at hasQueued
      have inTime := steps.sender_inTime
      cases hasQueued with
      | between within =>
          rw [PatternSender.call_of_unfinished] at call
          split at call
          · rcases call with call | ⟨next, call⟩ <;> cases call
          · rename_i finished
            have closing := PatternSender.call_of_unfinished size chunk queued.length
            rw [if_neg finished] at closing
            rw [steps.unique (.senderCloses inTime ready closing)]
            exact .inl rfl
      | ended within whole =>
          refine steps.hasEnd_kept (.inl ?_)
          rw [ready]
          rfl
  | receiver ready call =>
      rw [ready] at hasChecked
      cases hasChecked with
      | asking => rcases call with call | ⟨next, call⟩ <;> cases call
      | ended found closed =>
          have was : exchange.receiver.found? = some found := by
            rw [ready]
            rfl
          rcases moves.whyChecker found was with ⟨-, isOver⟩ | ⟨rfl, -⟩
          · exact absurd (opened.symm.trans isOver.closed) Bool.false_ne_true
          · exact steps.hasEnd_kept (.inr ⟨_, was⟩)

theorem whyClosed_step
    (moves : exchange.MovesPattern size chunk limit queued delivered sendAnswers receiveAnswers)
    (steps : exchange.Steps event stepped) (closed : stepped.exchange.pipe.closed = true) :
    stepped.exchange.HasEnd := by
  cases wasClosed : exchange.pipe.closed with
  | true => exact steps.hasEnd_kept (moves.whyClosed wasClosed)
  | false =>
      rcases steps.closed_eq_or_closes moves.sound with same | closes
      · rw [same, wasClosed] at closed
        cases closed
      · exact moves.whyClosed_of_closes steps wasClosed closes

theorem step (some' : chunk ≠ 0)
    (moves : exchange.MovesPattern size chunk limit queued delivered sendAnswers receiveAnswers)
    (steps : exchange.Steps event stepped) :
    stepped.exchange.MovesPattern size chunk limit (queued ++ stepped.queued)
      (delivered ++ stepped.delivered) (sendAnswers ++ (exchange.sendAnswer? event).toList)
      (receiveAnswers ++ (exchange.receiveAnswer? event).toList) where
  sound := (steps.keeps moves.sound).sound
  hasLeft := steps.hasLeft moves.sound moves.hasLeft
  sendLimit_eq := steps.limits_eq.1.trans moves.sendLimit_eq
  receiveLimit_eq := steps.limits_eq.2.trans moves.receiveLimit_eq
  conserved := moves.conserved_step steps
  patterned := by
    rw [List.length_append, pattern_add, ← moves.patterned, Nat.zero_add,
      ← (moves.hasQueued_step steps).1]
  hasQueued := (moves.hasQueued_step steps).2
  hasChecked := moves.hasChecked_step steps
  whySender _ := moves.whySender_step steps
  whyChecker _ := moves.whyChecker_step some' steps
  whyClosed := moves.whyClosed_step steps

theorem follow (some' : chunk ≠ 0)
    (moves : exchange.MovesPattern size chunk limit queued delivered sendAnswers receiveAnswers)
    (events : List Event) {last : Stepped PatternSender PatternChecker}
    (followed : exchange.follow? events = some last) :
    last.exchange.MovesPattern size chunk limit (queued ++ last.queued)
      (delivered ++ last.delivered) (sendAnswers ++ exchange.sendAnswers events)
      (receiveAnswers ++ exchange.receiveAnswers events) := by
  induction events generalizing exchange queued delivered sendAnswers receiveAnswers last with
  | nil =>
      cases followed
      simpa [Stepped.still, Exchange.sendAnswers, Exchange.receiveAnswers] using moves
  | cons event events induction =>
      rcases follow?_cons_eq_some_iff.mp followed with ⟨first, rest, steps, later, rfl⟩
      have followed := induction (moves.step some' steps) later
      rw [sendAnswers_cons steps, receiveAnswers_cons steps]
      simpa only [List.append_assoc] using followed

theorem start {capacity : Option Nat} (usable : capacity ≠ some 0) (size chunk : Nat)
    (limit : Span) :
    (start (empty capacity) (some limit) (some limit) (PatternSender.new size chunk)
      (PatternChecker.new chunk)).MovesPattern size chunk limit [] [] [] [] where
  sound := sound_start (sound_empty usable) ..
  hasLeft := trivial
  sendLimit_eq := rfl
  receiveLimit_eq := rfl
  conserved := rfl
  patterned := rfl
  hasQueued := .between (Nat.zero_le size)
  hasChecked := .asking
  whySender := nofun
  whyChecker := nofun
  whyClosed := nofun

/-- A checker that has finished timed out or has seen all that was queued, and then the sender
queued the whole pattern or timed out. -/
theorem concluded
    (moves : exchange.MovesPattern size chunk limit queued delivered sendAnswers receiveAnswers)
    {sender : PatternSender} (senderOver : exchange.sender.finished? = some sender)
    {checker : PatternChecker} (checkerOver : exchange.receiver.finished? = some checker) :
    checker.finish = some (.failed (.timeout limit)) ∧
        .error (.timeout limit) ∈ receiveAnswers ∨
      checker.finish = some .matched ∧ checker.position = queued.length ∧
        (sender.finish = some (.ok ()) ∧ queued.length = size ∨
          sender.finish = some (.error (.timeout limit)) ∧
            .error (.timeout limit) ∈ sendAnswers) := by
  rcases moves.hasChecked.of_finished checkerOver with ⟨found, isFound, checkerEnd, position⟩
  rcases moves.hasQueued.of_finished senderOver with ⟨finish, isEnd, senderEnd⟩
  rw [checkerEnd, senderEnd, position]
  rcases moves.whyChecker found isFound with ⟨rfl, isOver⟩ | ⟨rfl, answered⟩
  · have conserved := moves.conserved
    rw [isOver.empty, List.append_nil] at conserved
    refine .inr ⟨rfl, by rw [conserved], ?_⟩
    cases finish with
    | ok => exact .inl ⟨rfl, moves.hasQueued.whole isEnd⟩
    | error fault =>
        rcases moves.whySender fault isEnd with ⟨rfl, answered⟩ | ⟨-, flaw, failed⟩
        · exact .inr ⟨rfl, answered⟩
        · rw [isFound] at failed
          cases failed
  · exact .inl ⟨rfl, answered⟩

end MovesPattern

end Exchange

end Pipe

end ByteStreams
