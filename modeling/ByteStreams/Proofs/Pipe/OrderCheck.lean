import ByteStreams.Pipe.Transfer
import ByteStreams.Proofs.Pipe.Emissions
import ByteStreams.Proofs.Pipe.Passage
import ByteStreams.Proofs.Pipe.PatternProgress

/-! # What a checker finds in any stream

A checker compares the pieces that come out of a pipe with the pattern, however the bytes
were cut on their way. Until it has found something it has seen a front of the stream that
is the pattern, so a difference in the next piece is the first one of the stream, and the
end of the pipe is the end of a stream without one.
-/

namespace ByteStreams

namespace Pipe

variable {σ ρ : Type}

/-! ## Streams -/

/-- The byte at each position is the position, counted around the period. -/
def IsPattern (bytes : Bytes) : Prop :=
  ∀ position byte, bytes[position]? = some byte → byte.toNat = position % 251

/-- The least position whose byte is not that of the pattern. -/
structure FirstDiffers (bytes : Bytes) (position : Nat) : Prop where
  differs : ∃ byte, bytes[position]? = some byte ∧ byte.toNat ≠ position % 251
  before : ∀ earlier < position, ∀ byte, bytes[earlier]? = some byte →
    byte.toNat = earlier % 251

theorem FirstDiffers.not_isPattern {bytes : Bytes} {position : Nat}
    (first : FirstDiffers bytes position) : ¬IsPattern bytes := by
  rcases first.differs with ⟨byte, here, differs⟩
  exact fun same => differs (same position byte here)

theorem FirstDiffers.unique {bytes : Bytes} {position other : Nat}
    (first : FirstDiffers bytes position) (again : FirstDiffers bytes other) :
    position = other := by
  rcases first.differs with ⟨byte, here, differs⟩
  rcases again.differs with ⟨byte', here', differs'⟩
  rcases Nat.lt_trichotomy position other with less | same | greater
  · exact absurd (again.before position less byte here) differs
  · exact same
  · exact absurd (first.before other greater byte' here') differs'

theorem eq_patternByte_iff {byte : UInt8} {position : Nat} :
    byte = patternByte position ↔ byte.toNat = position % 251 := by
  have small : position % 251 < 256 := by omega
  rw [← UInt8.toNat_inj, patternByte, patternPeriod, UInt8.toNat_ofNat', Nat.mod_eq_of_lt small]

private theorem eq_pattern_iff {position : Nat} {bytes : Bytes} :
    bytes = pattern position bytes.length ↔
      ∀ index byte, bytes[index]? = some byte → byte.toNat = (position + index) % 251 := by
  induction bytes generalizing position with
  | nil => exact ⟨fun _ => nofun, fun _ => rfl⟩
  | cons first bytes induction =>
      rw [List.length_cons, pattern_succ, List.cons.injEq, induction, eq_patternByte_iff]
      constructor
      · rintro ⟨now, later⟩ index byte here
        cases index with
        | zero =>
            cases here
            exact now
        | succ index =>
            have same := later index byte here
            rwa [Nat.add_assoc, Nat.add_comm 1] at same
      · intro all
        refine ⟨all 0 first rfl, ?_⟩
        intro index byte here
        have same := all (index + 1) byte here
        rwa [Nat.add_comm index, ← Nat.add_assoc] at same

theorem isPattern_iff {bytes : Bytes} : IsPattern bytes ↔ bytes = pattern 0 bytes.length := by
  rw [eq_pattern_iff]
  simp only [Nat.zero_add]
  rfl

theorem firstDiffers_append {front : Bytes} {byte : UInt8} (rest : Bytes)
    (same : IsPattern front) (differs : byte ≠ patternByte front.length) :
    FirstDiffers (front ++ byte :: rest) front.length := by
  refine ⟨⟨byte, by simp, fun same' => differs (eq_patternByte_iff.mpr same')⟩, ?_⟩
  intro earlier less byte' here
  rw [List.getElem?_append_left less] at here
  exact same earlier byte' here

theorem firstMismatch?_eq_some {position found : Nat} {bytes : Bytes}
    (mismatch : firstMismatch? position bytes = some found) :
    ∃ same byte rest, bytes = same ++ byte :: rest ∧ same = pattern position same.length ∧
      found = position + same.length ∧ byte ≠ patternByte found := by
  induction bytes generalizing position with
  | nil => cases mismatch
  | cons first bytes induction =>
      rw [firstMismatch?] at mismatch
      split at mismatch
      · rename_i matches'
        rcases induction mismatch with ⟨same, byte, rest, rfl, patterned, rfl, differs⟩
        refine ⟨first :: same, byte, rest, rfl, ?_, ?_, differs⟩
        · rw [List.length_cons, pattern_succ, ← patterned, ← matches']
        · rw [List.length_cons]
          omega
      · rename_i differs
        cases mismatch
        exact ⟨[], first, bytes, rfl, rfl, rfl, differs⟩

/-- What a checker should find in a stream, and how many bytes it has passed by then. -/
inductive Verdict (stream : Bytes) : Nat → CheckEnd → Prop
  | matched (same : IsPattern stream) : Verdict stream stream.length .matched
  | mismatch {count position : Nat} (first : FirstDiffers stream position) :
      Verdict stream count (.mismatch position)

theorem afterReceive_piece (chunk : Nat) {front piece : Bytes} (rest : Bytes)
    (same : front = pattern 0 front.length) (some' : piece ≠ []) :
    (PatternChecker.afterReceive ⟨chunk, front.length, none, false⟩ (.ok piece) =
        ⟨chunk, (front ++ piece).length, none, false⟩ ∧
      front ++ piece = pattern 0 (front ++ piece).length) ∨
      ∃ found, PatternChecker.afterReceive ⟨chunk, front.length, none, false⟩ (.ok piece) =
          ⟨chunk, front.length, some found, false⟩ ∧
        Verdict (front ++ piece ++ rest) front.length found := by
  cases piece with
  | nil => exact absurd rfl some'
  | cons byte bytes =>
      rw [PatternChecker.afterReceive]
      · cases mismatch : firstMismatch? front.length (byte :: bytes) with
        | none =>
            refine .inl ⟨by rw [List.length_append], ?_⟩
            have patterned := firstMismatch?_eq_none_iff.mp mismatch
            rw [List.length_append, pattern_add, ← same, Nat.zero_add, ← patterned]
        | some position =>
            rcases firstMismatch?_eq_some mismatch with
              ⟨front', byte', rest', split, patterned, rfl, differs⟩
            have whole : front ++ front' = pattern 0 (front ++ front').length := by
              rw [List.length_append, pattern_add, ← same, Nat.zero_add, ← patterned]
            have first := firstDiffers_append (rest' ++ rest) (isPattern_iff.mpr whole)
              (List.length_append ▸ differs)
            refine .inr ⟨_, rfl, .mismatch ?_⟩
            rw [split]
            rw [List.length_append] at first
            simpa using first
      · intro same
        cases same

theorem ReceiverState.HasChecked.position_eq {chunk count : Nat} {checker : PatternChecker}
    {receiver : ReceiverState PatternChecker} (hasChecked : receiver.HasChecked chunk count)
    (stands : receiver = .ready checker ∨ receiver = .finished checker) :
    checker.position = count := by
  rcases stands with rfl | rfl <;> cases hasChecked <;> rfl

/-! ## Threads -/

namespace Exchange

variable [SendTask σ] {good : σ → Prop} {chunk work : Nat}
  {stream queued delivered unsent : Bytes} {exchange : Exchange σ PatternChecker}
  {event : Event} {stepped : Stepped σ PatternChecker}

/-- The checker has passed all bytes that came. The others of the stream are in the pipe, or
the sender has them still to send. -/
structure Comparing (good : σ → Prop) (chunk : Nat) (stream queued delivered : Bytes)
    (work : Nat) (unsent : Bytes) (exchange : Exchange σ PatternChecker) : Prop where
  sound : exchange.Sound
  conserved : queued = delivered ++ exchange.pipe.content
  owes : exchange.sender.Owes good work unsent
  stream_eq : stream = queued ++ unsent
  closed : exchange.pipe.closed = true → unsent = []
  patterned : delivered = pattern 0 delivered.length
  hasChecked : exchange.receiver.HasChecked chunk delivered.length
  nothing : exchange.receiver.found? = none

def Judged (chunk : Nat) (stream : Bytes) (exchange : Exchange σ PatternChecker) : Prop :=
  ∃ count found, exchange.receiver.found? = some found ∧
    exchange.receiver.HasChecked chunk count ∧ Verdict stream count found

theorem Steps.judged_kept (steps : exchange.Steps event stepped)
    (judged : exchange.Judged chunk stream) : stepped.exchange.Judged chunk stream := by
  rcases judged with ⟨count, found, ended, hasChecked, verdict⟩
  refine ⟨count, found, steps.found_kept ended, ?_, verdict⟩
  rcases steps.checks_or_receives hasChecked with
    ⟨-, kept⟩ | ⟨expired, wanted, next, rfl, inReceive⟩
  · exact kept
  · rw [(hasChecked.asks inReceive).2.2] at ended
    cases ended

/-! ## Steps -/

/-- What there is to do until the checker finds something: a byte takes three parts of it
before it is queued and two until it is delivered, and a thread that was woken takes one. -/
def toDo (work : Nat) (unsent : Bytes) (exchange : Exchange σ PatternChecker) : Nat :=
  work + 3 * unsent.length + 2 * exchange.pipe.content.length +
    exchange.sender.isAwake.toNat + (!exchange.receiver.isParked).toNat

/-- After a step the checker goes on with less to do, but for a wake-up, or has found what it
should. -/
def GoesOn (good : σ → Prop) (chunk : Nat) (stream queued delivered : Bytes) (toDo : Nat)
    (event : Event) (stepped : Stepped σ PatternChecker) : Prop :=
  (∃ work unsent, stepped.exchange.Comparing good chunk stream (queued ++ stepped.queued)
      (delivered ++ stepped.delivered) work unsent ∧
    stepped.exchange.toDo work unsent + 1 ≤ toDo + 2 * if event.isWakeUp then 1 else 0) ∨
  stepped.exchange.Judged chunk stream

namespace Comparing

theorem conserved_step
    (comparing : exchange.Comparing good chunk stream queued delivered work unsent)
    (steps : exchange.Steps event stepped) :
    queued ++ stepped.queued =
      (delivered ++ stepped.delivered) ++ stepped.exchange.pipe.content := by
  rw [comparing.conserved, List.append_assoc, (steps.keeps comparing.sound).conserved,
    List.append_assoc]

theorem of_unmoved
    (comparing : exchange.Comparing good chunk stream queued delivered work unsent)
    (steps : exchange.Steps event stepped) (other : ∀ expired, event ≠ .receiver expired)
    {after : Nat} {rest : Bytes} (owes : stepped.exchange.sender.Owes good after rest)
    (split : unsent = stepped.queued ++ rest)
    (closed : stepped.exchange.pipe.closed = true → rest = []) :
    stepped.exchange.Comparing good chunk stream (queued ++ stepped.queued)
      (delivered ++ stepped.delivered) after rest := by
  rcases steps.receiver_unmoved other with ⟨noneDelivered, -, same⟩
  have conserved := comparing.conserved_step steps
  rw [noneDelivered, List.append_nil] at conserved ⊢
  refine ⟨(steps.keeps comparing.sound).sound, conserved, owes, ?_, closed,
    comparing.patterned, comparing.hasChecked.carry same, ?_⟩
  · rw [comparing.stream_eq, split, List.append_assoc]
  · rw [ReceiverState.found?_of_unmoved same, comparing.nothing]

theorem send
    (comparing : exchange.Comparing good chunk stream queued delivered work unsent)
    {left : Bytes} {sent : Nat} {next : Except Fault Nat → σ}
    (inSend : exchange.sender.InSend left sent next) :
    GoesOn good chunk stream queued delivered (exchange.toDo work unsent) (.sender false)
      (exchange.runSend left sent next false) := by
  have steps : exchange.Steps (.sender false) _ := .send nofun inSend
  rcases comparing.sound.owes_runSend comparing.owes comparing.closed inSend with
    ⟨after, rest, owes, split, closed, asleep, less, -⟩
  refine .inl ⟨after, rest, comparing.of_unmoved steps nofun owes split closed, ?_⟩
  rcases comparing.sound.runSend_puts left sent next false with ⟨-, -, gained, -⟩
  have receiver : (exchange.runSend left sent next false).exchange.receiver =
    if (exchange.runSend left sent next false).queued.isEmpty then exchange.receiver
    else exchange.receiver.wake := rfl
  generalize exchange.runSend left sent next false = later at split asleep gained receiver ⊢
  have lengths := congrArg List.length split
  have contents := congrArg List.length gained
  rw [List.length_append] at lengths contents
  unfold toDo
  rw [asleep, receiver]
  by_cases none' : later.queued = []
  · rw [none', List.isEmpty_nil, if_pos rfl]
    rw [none', List.length_nil] at lengths contents
    simp only [Bool.toNat_false]
    omega
  · have positive := List.length_pos_iff.mpr none'
    have few := Bool.toNat_le (!exchange.receiver.wake.isParked)
    rw [if_neg (by simpa using none')]
    simp only [Bool.toNat_false]
    omega

private theorem close
    (comparing : exchange.Comparing good chunk stream queued delivered work unsent)
    {expired : Bool} {sender : SenderState σ} {after : Nat}
    (steps : exchange.Steps (.sender expired) (.still { exchange.close with sender := sender }))
    (nothing : unsent = []) (owes : sender.Owes good after []) (less : after + 2 ≤ work)
    (asleep : sender.isAwake = false) :
    GoesOn good chunk stream queued delivered (exchange.toDo work unsent) (.sender expired)
      (.still { exchange.close with sender := sender }) := by
  refine .inl ⟨after, [], comparing.of_unmoved steps nofun owes nothing fun _ => rfl, ?_⟩
  have few := Bool.toNat_le (!exchange.close.receiver.isParked)
  simp only [toDo, Stepped.still, content_close, asleep, Bool.toNat_false, List.length_nil]
  omega

theorem senderOver
    (comparing : exchange.Comparing good chunk stream queued delivered work unsent)
    {expired : Bool} {task : σ}
    (inTime : expired = true → mayExpire exchange.sendLimit = true)
    (ready : exchange.sender = .ready task) (call : SendTask.call task = .done) :
    GoesOn good chunk stream queued delivered (exchange.toDo work unsent) (.sender expired)
      (.still { exchange.close with sender := .finished task }) := by
  have owes := comparing.owes
  rw [ready] at owes
  rcases owes with ⟨calls, rfl, sends⟩
  cases sends with
  | send other => simp [other] at call
  | close other => simp [other] at call
  | done other holds =>
      exact comparing.close (.senderOver inTime ready call) rfl ⟨rfl, rfl, holds⟩ (Nat.le_refl 2)
        rfl

theorem senderCloses
    (comparing : exchange.Comparing good chunk stream queued delivered work unsent)
    {expired : Bool} {task next : σ}
    (inTime : expired = true → mayExpire exchange.sendLimit = true)
    (ready : exchange.sender = .ready task) (call : SendTask.call task = .close next) :
    GoesOn good chunk stream queued delivered (exchange.toDo work unsent) (.sender expired)
      (.still { exchange.close with sender := .ready next }) := by
  have owes := comparing.owes
  rw [ready] at owes
  rcases owes with ⟨calls, rfl, sends⟩
  cases sends with
  | done other => simp [other] at call
  | send other => simp [other] at call
  | @close _ next calls other later =>
      rw [other] at call
      cases call
      exact comparing.close (.senderCloses inTime ready other) rfl ⟨calls, rfl, later⟩
        (Nat.le_refl _) rfl

/-- A stretch of a receive has nothing to answer with, passes the bytes it answers with, finds
a difference among them, or learns that the stream has ended. -/
theorem receive (some' : chunk ≠ 0)
    (comparing : exchange.Comparing good chunk stream queued delivered work unsent)
    {wanted : Nat} {next : Except Fault Bytes → PatternChecker}
    (inReceive : exchange.receiver.InReceive wanted next) :
    GoesOn good chunk stream queued delivered (exchange.toDo work unsent) (.receiver false)
      (exchange.runReceive wanted next false) := by
  rcases comparing.hasChecked.asks inReceive with ⟨rfl, rfl, -⟩
  have keeps := comparing.sound.runReceive wanted
    (PatternChecker.afterReceive ⟨wanted, delivered.length, none, false⟩) false
  have runs : exchange.receiver.isParked = false := by
    generalize exchange.receiver = receiver at inReceive
    cases inReceive <;> rfl
  have outcome :=
    receiveStretch_outcome comparing.sound.pipe wanted exchange.receiveLimit false
  have stream_eq := comparing.stream_eq
  rw [comparing.conserved] at stream_eq
  unfold GoesOn toDo
  rw [runs]
  unfold Exchange.runReceive at keeps ⊢
  generalize exchange.pipe.receiveStretch wanted exchange.receiveLimit false = stretch
    at outcome keeps ⊢
  cases outcome with
  | @gives piece after loses count nothing =>
      by_cases none' : piece = []
      · subst none'
        rcases nothing rfl with none'' | ⟨empty, isClosed⟩
        · exact absurd none'' some'
        · rw [empty, comparing.closed isClosed, List.append_nil, List.append_nil] at stream_eq
          subst stream_eq
          exact .inr ⟨_, .matched, rfl, .ended .matched false,
            .matched (isPattern_iff.mpr comparing.patterned)⟩
      · rw [loses.content_eq, ← List.append_assoc, List.append_assoc] at stream_eq
        rcases afterReceive_piece wanted (after.content ++ unsent) comparing.patterned none' with
          ⟨passes, patterned⟩ | ⟨found, finds, verdict⟩
        · have shorter := congrArg List.length loses.content_eq
          have positive := List.length_pos_iff.mpr none'
          have few := Bool.toNat_le (if piece.isEmpty = true then exchange.sender
            else exchange.sender.wake).isAwake
          rw [List.length_append] at shorter
          refine .inl ⟨work, unsent, ⟨keeps.sound, ?_, comparing.owes.wakeUnless _, ?_, ?_,
            patterned, ?_, ?_⟩, ?_⟩
          · simpa [loses.content_eq] using comparing.conserved
          · simpa using comparing.stream_eq
          · intro isClosed
            exact comparing.closed (loses.closed_eq ▸ isClosed)
          · simp only [passes]
            exact .asking
          · simp only [passes]
            rfl
          · simp only [ReceiverState.isParked]
            omega
        · refine .inr ⟨delivered.length, found, ?_, ?_, stream_eq ▸ verdict⟩
          · simp only [finds]
            rfl
          · simp only [finds]
            exact .ended found false
  | expires asked empty opened expiry => cases expiry
  | waits asked empty opened inTime =>
      refine .inl ⟨work, unsent, ⟨keeps.sound, ?_, comparing.owes, ?_, comparing.closed, ?_, ?_,
        rfl⟩, ?_⟩
      · simpa using comparing.conserved
      · simpa using comparing.stream_eq
      · simpa using comparing.patterned
      · simpa using ReceiverState.HasChecked.parked
      · simp only [List.isEmpty_nil, if_pos, ReceiverState.isParked, Event.isWakeUp,
          Bool.not_true, Bool.not_false, Bool.toNat_true, Bool.toNat_false]
        omega

theorem step (some' : chunk ≠ 0)
    (comparing : exchange.Comparing good chunk stream queued delivered work unsent)
    (steps : exchange.Steps event stepped) (sendInTime : event ≠ .sender true)
    (receiveInTime : event ≠ .receiver true) :
    GoesOn good chunk stream queued delivered (exchange.toDo work unsent) event stepped := by
  have hasChecked := comparing.hasChecked
  have nothing := comparing.nothing
  cases steps with
  | @send expired left sent next inTime inSend =>
      cases expired with
      | true => exact absurd rfl sendInTime
      | false => exact comparing.send inSend
  | senderOver inTime ready call => exact comparing.senderOver inTime ready call
  | senderCloses inTime ready call => exact comparing.senderCloses inTime ready call
  | @receive expired wanted next inTime inReceive =>
      cases expired with
      | true => exact absurd rfl receiveInTime
      | false => exact comparing.receive some' inReceive
  | receiverOver inTime ready call =>
      rw [ready] at hasChecked nothing
      cases hasChecked with
      | asking => cases call
      | ended found closed => cases nothing
  | receiverCloses inTime ready call =>
      rw [ready] at hasChecked nothing
      cases hasChecked with
      | asking => cases call
      | ended found closed => cases nothing
  | wakeSender parked =>
      have steps : exchange.Steps .wakeSender _ := .wakeSender parked
      refine .inl ⟨work, unsent, comparing.of_unmoved steps (by simp) comparing.owes.wake rfl
        comparing.closed, ?_⟩
      have few := Bool.toNat_le exchange.sender.wake.isAwake
      simp only [toDo, Stepped.still, Event.isWakeUp, if_true]
      omega
  | wakeReceiver parked =>
      have steps : exchange.Steps .wakeReceiver _ := .wakeReceiver parked
      refine .inl ⟨work, unsent, comparing.of_unmoved steps (by simp) comparing.owes rfl
        comparing.closed, ?_⟩
      have few := Bool.toNat_le (!exchange.receiver.wake.isParked)
      simp only [toDo, Stepped.still, Event.isWakeUp, if_true]
      omega

theorem follow (some' : chunk ≠ 0)
    (comparing : exchange.Comparing good chunk stream queued delivered work unsent)
    (events : List Event) (sendInTime : .sender true ∉ events)
    (receiveInTime : .receiver true ∉ events) {last : Stepped σ PatternChecker}
    (followed : exchange.follow? events = some last) :
    (∃ after rest, last.exchange.Comparing good chunk stream (queued ++ last.queued)
        (delivered ++ last.delivered) after rest ∧
      last.exchange.toDo after rest + events.length ≤
        exchange.toDo work unsent + 2 * events.countP Event.isWakeUp) ∨
      last.exchange.Judged chunk stream := by
  induction events generalizing exchange queued delivered work unsent last with
  | nil =>
      cases followed
      refine .inl ⟨work, unsent, ?_, Nat.le_refl _⟩
      simpa [Stepped.still] using comparing
  | cons event events induction =>
      rcases follow?_cons_eq_some_iff.mp followed with ⟨first, rest, steps, later, rfl⟩
      rw [List.mem_cons, not_or] at sendInTime receiveInTime
      rcases comparing.step some' steps (Ne.symm sendInTime.1) (Ne.symm receiveInTime.1) with
        ⟨work, unsent, comparing, less⟩ | judged
      · rcases induction comparing sendInTime.2 receiveInTime.2 later with
          ⟨after, left, comparing, bound⟩ | judged
        · refine .inl ⟨after, left, ?_, ?_⟩
          · simpa only [List.append_assoc] using comparing
          · rw [List.length_cons, List.countP_cons]
            dsimp only
            omega
        · exact .inr judged
      · have kept := follow?_preserves (Judged chunk stream)
          (fun _ _ _ steps judged => steps.judged_kept judged) judged events later
        exact .inr kept

end Comparing

/-! ## Every stream -/

theorem sends_blocks (blocks : List Bytes) (sent : Nat) :
    Sends (· = .complete (sent + blocks.flatten.length)) (blocks.length + 2)
      (BlockSender.sending blocks sent) blocks.flatten := by
  induction blocks generalizing sent with
  | nil => exact .close rfl (.done rfl rfl)
  | cons block blocks induction =>
      have later := induction (sent + block.length)
      rw [Nat.add_assoc, ← List.length_append] at later
      exact .send rfl later

/-- What a schedule leads to if the checker's verdict on the stream is exact: it has found that
the bytes match just if they are the pattern, and then has counted all of them, or else the
least position whose byte differs. Until then a thread can go on, for so many steps at most. -/
structure Stepped.JudgesExactly (stream : Bytes) (most : Nat) (events : List Event)
    (last : Stepped σ PatternChecker) : Prop where
  matched_iff : ∀ found, last.exchange.receiver.found? = some found →
    (found = .matched ↔ IsPattern stream)
  mismatch_iff : ∀ found, last.exchange.receiver.found? = some found →
    ∀ position, found = .mismatch position ↔ FirstDiffers stream position
  neverFails : ∀ fault, last.exchange.receiver.found? ≠ some (.failed fault)
  counted : ∀ checker, last.exchange.receiver = .ready checker ∨
    last.exchange.receiver = .finished checker →
      checker.finish = some .matched → checker.position = stream.length
  goesOn : last.exchange.receiver.found? = none →
    events.length ≤ most + 2 * events.countP Event.isWakeUp ∧
      ((last.exchange.step? (.sender false)).isSome ∨
        (last.exchange.step? (.receiver false)).isSome)

theorem Judged.exactly {last : Stepped σ PatternChecker}
    (judged : last.exchange.Judged chunk stream) (most : Nat) (events : List Event) :
    last.JudgesExactly stream most events := by
  rcases judged with ⟨count, found, ended, hasChecked, verdict⟩
  refine ⟨?_, ?_, ?_, ?_, ?_⟩
  · intro found' ended'
    cases ended.symm.trans ended'
    cases verdict with
    | matched same => exact iff_of_true rfl same
    | mismatch first => exact iff_of_false nofun first.not_isPattern
  · intro found' ended' position
    cases ended.symm.trans ended'
    cases verdict with
    | matched same => exact iff_of_false nofun fun first => first.not_isPattern same
    | @mismatch count least first =>
        constructor
        · rintro ⟨⟩
          exact first
        · intro again
          rw [first.unique again]
  · intro fault failed
    rw [ended] at failed
    cases failed
    cases verdict
  · intro checker stands finish
    have finds : last.exchange.receiver.found? = checker.finish := by
      rcases stands with ready | finished
      · rw [ready, ReceiverState.found?]
      · rw [finished, ReceiverState.found?]
    rw [ended, finish] at finds
    cases finds
    rw [hasChecked.position_eq stands]
    cases verdict
    rfl
  · intro nothing
    rw [ended] at nothing
    cases nothing

theorem Comparing.exactly {last : Stepped σ PatternChecker}
    (comparing : last.exchange.Comparing good chunk stream queued delivered work unsent)
    {most : Nat} {events : List Event}
    (bound : events.length ≤ most + 2 * events.countP Event.isWakeUp) :
    last.JudgesExactly stream most events := by
  have nothing := comparing.nothing
  refine ⟨?_, ?_, ?_, ?_, ?_⟩
  · intro found ended
    rw [nothing] at ended
    cases ended
  · intro found ended
    rw [nothing] at ended
    cases ended
  · intro fault failed
    rw [nothing] at failed
    cases failed
  · intro checker stands finish
    rcases stands with ready | finished
    · rw [ready, ReceiverState.found?, finish] at nothing
      cases nothing
    · rw [finished, ReceiverState.found?, finish] at nothing
      cases nothing
  · intro _
    refine ⟨bound, ?_⟩
    rcases comparing.sound.goesOn with ⟨-, isOver⟩ | goesOn
    · rcases Option.isSome_iff_exists.mp isOver with ⟨checker, isOver⟩
      rcases comparing.hasChecked.of_finished isOver with ⟨found, ended, -⟩
      rw [nothing] at ended
      cases ended
    · exact goesOn

theorem judgesExactly_of_sends {capacity : Option Nat} (usable : capacity ≠ some 0)
    (some' : chunk ≠ 0) {sendLimit receiveLimit : Option Span} {sender : σ} {calls : Nat}
    (sends : Sends good calls sender stream) {events : List Event}
    (sendInTime : .sender true ∉ events) (receiveInTime : .receiver true ∉ events)
    {last : Stepped σ PatternChecker}
    (followed : (start (empty capacity) sendLimit receiveLimit sender
      (PatternChecker.new chunk)).follow? events = some last) :
    last.JudgesExactly stream (2 * calls + 3 * stream.length + 1) events := by
  have begun : Comparing good chunk stream [] [] (2 * calls) stream
      (start (empty capacity) sendLimit receiveLimit sender (PatternChecker.new chunk)) :=
    ⟨sound_start (sound_empty usable) .., rfl, ⟨calls, rfl, sends⟩, rfl, nofun, rfl, .asking, rfl⟩
  rcases begun.follow some' events sendInTime receiveInTime followed with
    ⟨after, rest, comparing, bound⟩ | judged
  · refine comparing.exactly ?_
    have atFirst : (start (empty capacity) sendLimit receiveLimit sender
        (PatternChecker.new chunk)).toDo (2 * calls) stream =
          2 * calls + 3 * stream.length + 1 := rfl
    omega
  · exact judged.exactly ..

/-- The check of the order is exact. Whatever bytes are put into a pipe before it is closed and
however they are cut by sends, receives and the schedule, a checker without a timeout comes to
an end. It finds no difference just if the stream is the pattern, and then has counted all of
it; else it finds the least position whose byte differs. A sender emits the first `size` bytes
of the pattern, whatever part of its data each send queues, and then closes the pipe. -/
theorem order_check_is_exact {capacity : Option Nat} (usable : capacity ≠ some 0) {chunk : Nat}
    (some' : chunk ≠ 0) (sendLimit receiveLimit : Option Span) :
    ∃ pipe, create capacity = .ok pipe ∧
      (∀ blocks events last, .sender true ∉ events → .receiver true ∉ events →
        (start pipe sendLimit receiveLimit (BlockSender.sending blocks 0)
          (PatternChecker.new chunk)).follow? events = some last →
        last.JudgesExactly blocks.flatten
          (2 * blocks.length + 3 * blocks.flatten.length + 5) events) ∧
      ∀ size, (pattern 0 size).length = size ∧ IsPattern (pattern 0 size) ∧
        Emits (PatternSender.IsComplete size) PatternSender.HasFailed
          (PatternSender.new size chunk) (pattern 0 size) ∧
        ∀ (ρ : Type) [ReceiveTask ρ] (receiver : ρ) (events : List Event)
          (last : Stepped PatternSender ρ),
          (start pipe sendLimit receiveLimit (PatternSender.new size chunk) receiver).follow?
            events = some last →
          last.EmitsPattern size ((start pipe sendLimit receiveLimit
            (PatternSender.new size chunk) receiver).sendAnswers events) := by
  refine ⟨empty capacity, create_of_usable usable, ?_, ?_⟩
  · intro blocks events last sendInTime receiveInTime followed
    have judges := judgesExactly_of_sends usable some' (sends_blocks blocks 0) sendInTime
      receiveInTime followed
    have most : 2 * (blocks.length + 2) + 3 * blocks.flatten.length + 1 =
        2 * blocks.length + 3 * blocks.flatten.length + 5 := by omega
    rwa [most] at judges
  · intro size
    refine ⟨length_pattern .., ?_, PatternSender.emits some' size, ?_⟩
    · rw [isPattern_iff, length_pattern]
    · intro ρ _ receiver events last followed
      exact emitsPattern_of_follow usable some' followed

/-- A byte is left out, and the checker has passed a piece before the one where it shows. -/
theorem order_check_is_exact_for_a_gap :
    let sender : BlockSender := .sending [[0, 1], [3]] 0
    let events : List Event :=
      [.sender false, .receiver false, .sender false, .receiver false]
    ∃ pipe last, create (some 2) = .ok pipe ∧
      (start pipe none none sender (PatternChecker.new 8)).follow? events = some last ∧
      last.exchange.receiver.found? = some (.mismatch 2) ∧ FirstDiffers [0, 1, 3] 2 ∧
      last.JudgesExactly [0, 1, 3] 18 events := by
  intro sender events
  have usable : (some 2 : Option Nat) ≠ some 0 := by decide
  rcases order_check_is_exact usable (by decide : 8 ≠ 0) none none with
    ⟨pipe, created, always, -⟩
  cases created
  have moves : ((start (empty (some 2)) none none sender (PatternChecker.new 8)).follow?
      events).map (fun last => last.exchange.receiver.found?) =
        some (some (.mismatch 2)) := by decide +kernel
  rcases Option.map_eq_some_iff.mp moves with ⟨last, followed, found⟩
  have judges := always [[0, 1], [3]] events last (by decide) (by decide) followed
  exact ⟨_, last, rfl, followed, found, (judges.mismatch_iff _ found 2).mp rfl, judges⟩

end Exchange

end Pipe

end ByteStreams
