import ByteStreams.Pipe.Pattern
import ByteStreams.Proofs.Pipe.Closing

/-! # The threads that send and check a pattern

Whatever is cut off the front of a pattern is a pattern again. So a sender that was cut short is
in the middle of its pattern, and a checker that gets the next bytes finds no fault with them.
-/

namespace ByteStreams

namespace Pipe

/-! ## The pattern -/

theorem pattern_succ (position count : Nat) :
    pattern position (count + 1) = patternByte position :: pattern (position + 1) count := by
  simp only [pattern_eq, List.range'_succ, List.map_cons]

theorem pattern_add (position first second : Nat) :
    pattern position (first + second) =
      pattern position first ++ pattern (position + first) second := by
  simp only [pattern_eq, ← List.map_append, List.range'_append_1]

theorem firstMismatch?_eq_none_iff {position : Nat} {bytes : Bytes} :
    firstMismatch? position bytes = none ↔ bytes = pattern position bytes.length := by
  induction bytes generalizing position with
  | nil => exact ⟨fun _ => rfl, fun _ => rfl⟩
  | cons byte bytes induction =>
      rw [firstMismatch?, List.length_cons, pattern_succ, List.cons.injEq]
      by_cases same : byte = patternByte position
      · rw [if_pos same, induction]
        exact ⟨fun others => ⟨same, others⟩, fun both => both.2⟩
      · rw [if_neg same]
        exact ⟨nofun, fun both => absurd both.1 same⟩

theorem pattern_eq_append {position count : Nat} {front rest : Bytes}
    (cut : pattern position count = front ++ rest) :
    front = pattern position front.length ∧
      rest = pattern (position + front.length) rest.length := by
  have lengths := congrArg List.length cut
  rw [length_pattern, List.length_append] at lengths
  rw [lengths, pattern_add] at cut
  have parts := List.append_inj cut (length_pattern ..)
  exact ⟨parts.1.symm, parts.2.symm⟩

/-! ## The sender -/

namespace PatternSender

/-- A sender that is in a send of some bytes of the pattern, `count` of which are queued. -/
inductive Amid (size chunk count : Nat) :
    Bytes → Nat → (Except Fault Nat → PatternSender) → Prop
  | sending (position sent more : Nat) (count_eq : count = position + sent)
      (within : count + more ≤ size) :
      Amid size chunk count (pattern count more) sent (afterSend ⟨size, chunk, position, none⟩)

theorem lt_chunkEnd {sender : PatternSender} (some' : sender.chunk ≠ 0)
    (unfinished : sender.position < sender.size) : sender.position < sender.chunkEnd := by
  have division := Nat.div_add_mod' sender.position sender.chunk
  have left := Nat.mod_lt sender.position (Nat.pos_of_ne_zero some')
  rw [chunkEnd, Nat.add_mul, Nat.one_mul]
  omega

theorem chunkEnd_le (sender : PatternSender) : sender.chunkEnd ≤ sender.size :=
  Nat.min_le_left ..

theorem call_of_unfinished (size chunk position : Nat) :
    SendTask.call (⟨size, chunk, position, none⟩ : PatternSender) =
      if position < size then
        .send (unsent ⟨size, chunk, position, none⟩) (afterSend ⟨size, chunk, position, none⟩)
      else .close ⟨size, chunk, position, some (.ok ())⟩ :=
  rfl

theorem call_of_finish {sender : PatternSender} {finish : Except Fault Unit}
    (ended : sender.finish = some finish) : SendTask.call sender = .done := by
  simp [SendTask.call, ended]

end PatternSender

open PatternSender (Amid)

def SenderState.end? : SenderState PatternSender → Option (Except Fault Unit)
  | .ready sender | .finished sender => sender.finish
  | .awake _ _ _ | .parked _ _ _ => none

theorem SenderState.end?_of_unmoved {after sender : SenderState PatternSender}
    (same : after = sender ∨ after = sender.wake) : after.end? = sender.end? := by
  rcases same with rfl | rfl
  · rfl
  · cases sender <;> rfl

theorem SenderState.end?_of_parked {sender : SenderState PatternSender}
    (parked : sender.isParked = true) : sender.end? = none := by
  cases sender with
  | parked left queued next => rfl
  | _ => cases parked

/-- What a sender does after it has queued `count` bytes of the pattern. -/
inductive SenderState.HasQueued (size chunk count : Nat) : SenderState PatternSender → Prop
  | between (within : count ≤ size) : HasQueued size chunk count (.ready ⟨size, chunk, count, none⟩)
  | awake {left : Bytes} {sent : Nat} {next : Except Fault Nat → PatternSender}
      (amid : Amid size chunk count left sent next) :
      HasQueued size chunk count (.awake left sent next)
  | parked {left : Bytes} {sent : Nat} {next : Except Fault Nat → PatternSender}
      (amid : Amid size chunk count left sent next) :
      HasQueued size chunk count (.parked left sent next)
  | ended {position : Nat} {finish : Except Fault Unit} (within : count ≤ size)
      (whole : finish = .ok () → count = size) :
      HasQueued size chunk count (.ready ⟨size, chunk, position, some finish⟩)
  | finished {position : Nat} {finish : Except Fault Unit} (within : count ≤ size)
      (whole : finish = .ok () → count = size) :
      HasQueued size chunk count (.finished ⟨size, chunk, position, some finish⟩)

namespace SenderState.HasQueued

variable {size chunk count : Nat} {sender : SenderState PatternSender}

theorem carry (hasQueued : sender.HasQueued size chunk count)
    {after : SenderState PatternSender} (same : after = sender ∨ after = sender.wake) :
    after.HasQueued size chunk count := by
  rcases same with rfl | rfl
  · exact hasQueued
  · cases hasQueued with
    | between within => exact .between within
    | awake amid => exact .awake amid
    | parked amid => exact .awake amid
    | ended within whole => exact .ended within whole
    | finished within whole => exact .finished within whole

theorem within (hasQueued : sender.HasQueued size chunk count) : count ≤ size := by
  cases hasQueued with
  | between within => exact within
  | awake amid | parked amid =>
      cases amid with
      | sending position sent more count_eq within => exact Nat.le_of_add_right_le within
  | ended within whole => exact within
  | finished within whole => exact within

theorem whole (hasQueued : sender.HasQueued size chunk count)
    (complete : sender.end? = some (.ok ())) : count = size := by
  cases hasQueued with
  | between within => cases complete
  | awake amid => cases complete
  | parked amid => cases complete
  | ended within whole =>
      cases complete
      exact whole rfl
  | finished within whole =>
      cases complete
      exact whole rfl

theorem amid (hasQueued : sender.HasQueued size chunk count) {left : Bytes} {sent : Nat}
    {next : Except Fault Nat → PatternSender} (inSend : sender.InSend left sent next) :
    Amid size chunk count left sent next ∧ sender.end? = none := by
  cases inSend with
  | resumes =>
      cases hasQueued with
      | awake amid => exact ⟨amid, rfl⟩
  | begins call =>
      cases hasQueued with
      | between within =>
          rw [PatternSender.call_of_unfinished] at call
          split at call
          · rename_i unfinished
            cases call
            refine ⟨.sending count 0 _ rfl ?_, rfl⟩
            have atMost := PatternSender.chunkEnd_le ⟨size, chunk, count, none⟩
            dsimp only at atMost ⊢
            omega
          · cases call
      | ended within whole =>
          rw [PatternSender.call_of_finish rfl] at call
          cases call

theorem left_ne_nil (hasQueued : sender.HasQueued size chunk count) (some' : chunk ≠ 0)
    (hasLeft : sender.HasLeft) {left : Bytes} {sent : Nat}
    {next : Except Fault Nat → PatternSender} (inSend : sender.InSend left sent next) :
    left ≠ [] := by
  cases inSend with
  | resumes => exact hasLeft
  | begins call =>
      cases hasQueued with
      | between within =>
          rw [PatternSender.call_of_unfinished] at call
          split at call
          · rename_i unfinished
            cases call
            rw [← List.length_pos_iff, PatternSender.unsent, length_pattern]
            exact Nat.sub_pos_of_lt (PatternSender.lt_chunkEnd some' unfinished)
          · cases call
      | ended within whole =>
          rw [PatternSender.call_of_finish rfl] at call
          cases call

theorem of_finished (hasQueued : sender.HasQueued size chunk count) {task : PatternSender}
    (isOver : sender.finished? = some task) :
    ∃ finish, sender.end? = some finish ∧ task.finish = some finish := by
  cases hasQueued with
  | finished within whole =>
      cases isOver
      exact ⟨_, rfl, rfl⟩
  | _ => cases isOver

end SenderState.HasQueued

/-! ## The checker -/

def ReceiverState.found? : ReceiverState PatternChecker → Option CheckEnd
  | .ready checker | .finished checker => checker.finish
  | .awake _ _ | .parked _ _ => none

theorem ReceiverState.found?_of_unmoved {after receiver : ReceiverState PatternChecker}
    (same : after = receiver ∨ after = receiver.wake) : after.found? = receiver.found? := by
  rcases same with rfl | rfl
  · rfl
  · cases receiver <;> rfl

/-- What a checker does after `count` bytes that were those of the pattern. -/
inductive ReceiverState.HasChecked (chunk count : Nat) : ReceiverState PatternChecker → Prop
  | asking : HasChecked chunk count (.ready ⟨chunk, count, none, false⟩)
  | awake : HasChecked chunk count
      (.awake chunk (PatternChecker.afterReceive ⟨chunk, count, none, false⟩))
  | parked : HasChecked chunk count
      (.parked chunk (PatternChecker.afterReceive ⟨chunk, count, none, false⟩))
  | ended (found : CheckEnd) (closed : Bool) :
      HasChecked chunk count (.ready ⟨chunk, count, some found, closed⟩)
  | finished (found : CheckEnd) :
      HasChecked chunk count (.finished ⟨chunk, count, some found, true⟩)

namespace ReceiverState.HasChecked

variable {chunk count : Nat} {receiver : ReceiverState PatternChecker}

theorem carry (hasChecked : receiver.HasChecked chunk count)
    {after : ReceiverState PatternChecker} (same : after = receiver ∨ after = receiver.wake) :
    after.HasChecked chunk count := by
  rcases same with rfl | rfl
  · exact hasChecked
  · cases hasChecked with
    | asking => exact .asking
    | awake => exact .awake
    | parked => exact .awake
    | ended found closed => exact .ended found closed
    | finished found => exact .finished found

theorem asks (hasChecked : receiver.HasChecked chunk count) {wanted : Nat}
    {next : Except Fault Bytes → PatternChecker} (inReceive : receiver.InReceive wanted next) :
    wanted = chunk ∧ next = PatternChecker.afterReceive ⟨chunk, count, none, false⟩ ∧
      receiver.found? = none := by
  cases inReceive with
  | resumes =>
      cases hasChecked with
      | awake => exact ⟨rfl, rfl, rfl⟩
  | begins call =>
      cases hasChecked with
      | asking =>
          cases call
          exact ⟨rfl, rfl, rfl⟩
      | ended found closed => cases closed <;> cases call

theorem afterBytes {piece : Bytes} (some' : piece ≠ [])
    (patterned : piece = pattern count piece.length) :
    PatternChecker.afterReceive ⟨chunk, count, none, false⟩ (.ok piece) =
      ⟨chunk, count + piece.length, none, false⟩ := by
  cases piece with
  | nil => exact absurd rfl some'
  | cons byte bytes =>
      have nowhere := firstMismatch?_eq_none_iff.mpr patterned
      simp only [PatternChecker.afterReceive, nowhere]

theorem of_finished (hasChecked : receiver.HasChecked chunk count) {task : PatternChecker}
    (isOver : receiver.finished? = some task) :
    ∃ found, receiver.found? = some found ∧ task.finish = some found ∧ task.position = count := by
  cases hasChecked with
  | finished found =>
      cases isOver
      exact ⟨found, rfl, rfl, rfl⟩
  | _ => cases isOver

end ReceiverState.HasChecked

end Pipe

end ByteStreams
