import ByteStreams.Proofs.Channel.Pulls
import ByteStreams.Proofs.Channel.Yielding
import ByteStreams.Proofs.Pipe.Closing

/-! # What two programs have done along a schedule

Along a schedule each of two programs goes down a branch of its tree, whatever the time
limits are and whatever the other one does. What the schedule queued is what the sends of
the one branch put, and what it delivered is what the receives of the other one brought.
-/

namespace ByteStreams

namespace Pipe

open Channel (Pull Reading Writing brought pulled)

variable {α β : Type}

/-! ## Branches -/

/-- A send with these bytes left, of which so many were queued before, queues `part` and is
answered so. -/
inductive Told (left : Bytes) (count : Nat) (part : Bytes) : Except Fault Nat → Prop
  | took {rest : Bytes} (split : left = part ++ rest) :
      Told left count part (.ok (count + part.length))
  | refused {rest : Bytes} (split : left = part ++ rest) (fault : Fault) :
      Told left count part (.error fault)

/-- The program may queue these bytes, close its end or not, and have this result. -/
inductive Sending.Goes : Sending α → Bytes → Bool → α → Prop
  | done (result : α) : Goes (.done result) [] false result
  | send {data part more : Bytes} {next : Except Fault Nat → Sending α}
      {answer : Except Fault Nat} {closes : Bool} {result : α} (told : Told data 0 part answer)
      (others : Goes (next answer) more closes result) :
      Goes (.send data next) (part ++ more) closes result
  | close {more : Bytes} {next : Sending α} {closes : Bool} {result : α}
      (others : Goes next more closes result) : Goes (.close next) more true result

inductive Receiving.Goes : Receiving α → List Pull → Bool → α → Prop
  | done (result : α) : Goes (.done result) [] false result
  | receive {wanted : Nat} {next : Except Fault Bytes → Receiving α} {pulls : List Pull}
      {closes : Bool} {result : α} (answer : Except Fault Bytes)
      (others : Goes (next answer) pulls closes result) :
      Goes (.receive wanted next) (⟨wanted, answer.mapError .pipe⟩ :: pulls) closes result
  | close {next : Receiving α} {pulls : List Pull} {closes : Bool} {result : α}
      (others : Goes next pulls closes result) : Goes (.close next) pulls true result

def SenderState.Goes : SenderState (Sending α) → Bytes → Bool → α → Prop
  | .ready task, queued, closes, result => task.Goes queued closes result
  | .awake left count next, queued, closes, result
  | .parked left count next, queued, closes, result =>
      ∃ part more answer, queued = part ++ more ∧ Told left count part answer ∧
        (next answer).Goes more closes result
  | .finished _, _, _, _ => False

def ReceiverState.Goes : ReceiverState (Receiving α) → List Pull → Bool → α → Prop
  | .ready task, pulls, closes, result => task.Goes pulls closes result
  | .awake wanted next, pulls, closes, result | .parked wanted next, pulls, closes, result =>
      ∃ answer others, pulls = ⟨wanted, answer.mapError .pipe⟩ :: others ∧
        (next answer).Goes others closes result
  | .finished _, _, _, _ => False

theorem SenderState.Goes.of_wake {sender : SenderState (Sending α)} {queued : Bytes}
    {closes : Bool} {result : α} (goes : sender.wake.Goes queued closes result) :
    sender.Goes queued closes result := by
  cases sender <;> exact goes

theorem ReceiverState.Goes.of_wake {receiver : ReceiverState (Receiving α)} {pulls : List Pull}
    {closes : Bool} {result : α} (goes : receiver.wake.Goes pulls closes result) :
    receiver.Goes pulls closes result := by
  cases receiver <;> exact goes

theorem Told.after {left part rest more : Bytes} {count : Nat} {answer : Except Fault Nat}
    (split : left = part ++ rest) (told : Told rest (count + part.length) more answer) :
    Told left count (part ++ more) answer := by
  cases told with
  | @took last joined =>
      have total : count + part.length + more.length = count + (part ++ more).length := by
        rw [List.length_append, Nat.add_assoc]
      rw [total]
      exact .took (by rw [split, joined, List.append_assoc])
  | refused joined fault => exact .refused (by rw [split, joined, List.append_assoc]) fault

theorem SenderState.InSend.goes {sender : SenderState (Sending α)} {left part more : Bytes}
    {count : Nat} {next : Except Fault Nat → Sending α} {answer : Except Fault Nat}
    {closes : Bool} {result : α} (inSend : sender.InSend left count next)
    (told : Told left count part answer) (others : (next answer).Goes more closes result) :
    sender.Goes (part ++ more) closes result := by
  cases inSend with
  | @begins task data next call =>
      cases task with
      | send data next =>
          cases call
          exact .send told others
      | _ => cases call
  | resumes left count next => exact ⟨part, more, answer, rfl, told, others⟩

theorem ReceiverState.InReceive.goes {receiver : ReceiverState (Receiving α)} {wanted : Nat}
    {next : Except Fault Bytes → Receiving α} {answer : Except Fault Bytes} {pulls : List Pull}
    {closes : Bool} {result : α} (inReceive : receiver.InReceive wanted next)
    (others : (next answer).Goes pulls closes result) :
    receiver.Goes (⟨wanted, answer.mapError .pipe⟩ :: pulls) closes result := by
  cases inReceive with
  | @begins task wanted next call =>
      cases task with
      | receive wanted next =>
          cases call
          exact .receive answer others
      | _ => cases call
  | resumes wanted next => exact ⟨answer, pulls, rfl, others⟩

/-! ## Steps back -/

namespace Exchange

variable {exchange : Exchange (Sending α) (Receiving β)} {sent : α} {got : β}

theorem Sound.runSend_goes (sound : exchange.Sound) {left queued : Bytes} {count : Nat}
    {next : Except Fault Nat → Sending α} {expired closes : Bool}
    (inSend : exchange.sender.InSend left count next)
    (goes : (exchange.runSend left count next expired).exchange.sender.Goes queued closes sent) :
    exchange.sender.Goes ((exchange.runSend left count next expired).queued ++ queued) closes
      sent := by
  rcases sound.runSend_puts left count next expired with ⟨rest, split, -, parked | took | refused⟩
  · rw [parked] at goes
    rcases goes with ⟨part, more, answer, rfl, told, others⟩
    rw [← List.append_assoc]
    exact inSend.goes (told.after split) others
  · rw [took] at goes
    exact inSend.goes (.took split) goes
  · rcases refused with ⟨nothing, fault, refused⟩
    rw [refused] at goes
    rw [nothing] at split ⊢
    exact inSend.goes (.refused split fault) goes

theorem Sound.runReceive_goes (sound : exchange.Sound) {wanted : Nat}
    {next : Except Fault Bytes → Receiving β} {expired closes : Bool} {pulls : List Pull}
    (inReceive : exchange.receiver.InReceive wanted next)
    (goes : (exchange.runReceive wanted next expired).exchange.receiver.Goes pulls closes got) :
    ∃ earlier, exchange.receiver.Goes earlier closes got ∧
      pulled earlier = (exchange.runReceive wanted next expired).delivered ++ pulled pulls := by
  have outcome := receiveStretch_outcome sound.pipe wanted exchange.receiveLimit expired
  unfold Exchange.runReceive at goes ⊢
  generalize exchange.pipe.receiveStretch wanted exchange.receiveLimit expired = stretch
    at outcome goes ⊢
  cases outcome with
  | gives => exact ⟨_, inReceive.goes goes, rfl⟩
  | expires => exact ⟨_, inReceive.goes goes, rfl⟩
  | waits =>
      rcases goes with ⟨answer, others, rfl, goes⟩
      exact ⟨_, inReceive.goes goes, rfl⟩

/-- How two threads that have not finished may go on from here: what they queue and pull, and
whether they close their ends. -/
structure Leads (exchange : Exchange (Sending α) (Receiving β)) (queued : Bytes)
    (senderCloses : Bool) (sent : α) (pulls : List Pull) (receiverCloses : Bool) (got : β) :
    Prop where
  sends : exchange.sender.Goes queued senderCloses sent
  receives : exchange.receiver.Goes pulls receiverCloses got

theorem Steps.leads {event : Event} {stepped : Stepped (Sending α) (Receiving β)}
    (steps : exchange.Steps event stepped) (sound : exchange.Sound) {queued : Bytes}
    {pulls : List Pull} {senderCloses receiverCloses : Bool}
    (leads : stepped.exchange.Leads queued senderCloses sent pulls receiverCloses got) :
    ∃ senderClosed earlier receiverClosed,
      exchange.Leads (stepped.queued ++ queued) senderClosed sent earlier receiverClosed got ∧
      pulled earlier = stepped.delivered ++ pulled pulls ∧
      (senderClosed = false → receiverClosed = false → senderCloses = false ∧
        receiverCloses = false ∧ stepped.exchange.pipe.closed = exchange.pipe.closed) := by
  rcases leads with ⟨sends, receives⟩
  cases steps with
  | @send expired left count next inTime inSend =>
      have receiver : exchange.receiver.Goes pulls receiverCloses got := by
        rcases exchange.receiver_runSend left count next expired with same | woken
        · rwa [same] at receives
        · rw [woken] at receives
          exact receives.of_wake
      exact ⟨_, pulls, _, ⟨sound.runSend_goes inSend sends, receiver⟩, rfl,
        fun sender receiver => ⟨sender, receiver, sound.closed_runSend ..⟩⟩
  | @receive expired wanted next inTime inReceive =>
      have sender : exchange.sender.Goes queued senderCloses sent := by
        rcases exchange.sender_runReceive wanted next expired with same | woken
        · rwa [same] at sends
        · rw [woken] at sends
          exact sends.of_wake
      rcases sound.runReceive_goes inReceive receives with ⟨earlier, receiver, moved⟩
      exact ⟨_, earlier, _, ⟨sender, receiver⟩, moved,
        fun sender receiver => ⟨sender, receiver, sound.closed_runReceive ..⟩⟩
  | senderOver inTime ready call => exact sends.elim
  | receiverOver inTime ready call => exact receives.elim
  | @senderCloses expired task next inTime ready call =>
      have receiver : exchange.receiver.Goes pulls receiverCloses got := by
        rcases exchange.receiver_close with same | woken
        · rwa [← same]
        · exact .of_wake (woken ▸ receives)
      have sender : exchange.sender.Goes queued true sent := by
        cases task with
        | close next =>
            cases call
            rw [ready]
            exact .close sends
        | _ => cases call
      exact ⟨true, pulls, _, ⟨sender, receiver⟩, rfl, fun never => nomatch never⟩
  | @receiverCloses expired task next inTime ready call =>
      have sender : exchange.sender.Goes queued senderCloses sent := by
        rcases exchange.sender_close with same | woken
        · rwa [← same]
        · exact .of_wake (woken ▸ sends)
      have receiver : exchange.receiver.Goes pulls true got := by
        cases task with
        | close next =>
            cases call
            rw [ready]
            exact .close receives
        | _ => cases call
      exact ⟨_, pulls, true, ⟨sender, receiver⟩, rfl, fun _ never => nomatch never⟩
  | wakeSender parked =>
      exact ⟨_, pulls, _, ⟨.of_wake sends, receives⟩, rfl,
        fun sender receiver => ⟨sender, receiver, rfl⟩⟩
  | wakeReceiver parked =>
      exact ⟨_, pulls, _, ⟨sends, .of_wake receives⟩, rfl,
        fun sender receiver => ⟨sender, receiver, rfl⟩⟩

theorem Sound.leads_of_follow (sound : exchange.Sound) (events : List Event)
    {last : Stepped (Sending α) (Receiving β)} (followed : exchange.follow? events = some last)
    (sender : last.exchange.sender = .ready (.done sent))
    (receiver : last.exchange.receiver = .ready (.done got)) :
    ∃ senderCloses pulls receiverCloses,
      exchange.Leads last.queued senderCloses sent pulls receiverCloses got ∧
      pulled pulls = last.delivered ∧
      (senderCloses = false → receiverCloses = false →
        last.exchange.pipe.closed = exchange.pipe.closed) := by
  induction events generalizing exchange last with
  | nil =>
      cases followed
      change exchange.sender = _ at sender
      change exchange.receiver = _ at receiver
      refine ⟨false, [], false, ⟨?_, ?_⟩, rfl, fun _ _ => rfl⟩
      · rw [sender]
        exact .done sent
      · rw [receiver]
        exact .done got
  | cons event events induction =>
      rcases follow?_cons_eq_some_iff.mp followed with ⟨first, rest, steps, later, rfl⟩
      rcases induction (steps.keeps sound).sound later sender receiver with
        ⟨senderCloses, pulls, receiverCloses, leads, moved, laterOpen⟩
      rcases steps.leads sound leads with
        ⟨senderClosed, earlier, receiverClosed, firstLeads, firstMoved, opened⟩
      refine ⟨senderClosed, earlier, receiverClosed, firstLeads, ?_, ?_⟩
      · rw [firstMoved, moved]
      · intro senderKeeps receiverKeeps
        rcases opened senderKeeps receiverKeeps with ⟨senderStill, receiverStill, same⟩
        exact (laterOpen senderStill receiverStill).trans same

end Exchange

/-! ## Programs on channels -/

theorem toReceiving_goes {program : Reading α} {pulls : List Pull} {closes : Bool} {result : α}
    (goes : program.toReceiving.Goes pulls closes result) :
    program.Goes pulls result ∧ closes = false := by
  induction program generalizing pulls with
  | done result =>
      cases goes
      exact ⟨.done result, rfl⟩
  | read limit next induction =>
      cases goes with
      | receive answer others =>
          rcases induction _ others with ⟨goes, never⟩
          exact ⟨.read _ goes, never⟩
  | pull limit next induction =>
      cases goes with
      | receive answer others =>
          rcases induction _ others with ⟨goes, never⟩
          exact ⟨.pull _ goes, never⟩

theorem sendAll_goes {data queued : Bytes} {next : Except Channel.Failure Unit → Sending α}
    {closes : Bool} {result : α} (goes : (sendAll data next).Goes queued closes result) :
    (∃ more, queued = data ++ more ∧ (next (.ok ())).Goes more closes result) ∨
      ∃ failure more, (next (.error failure)).Goes more closes result := by
  induction count : data.length using Nat.strongRecOn generalizing data queued with
  | ind total induction =>
      rw [sendAll] at goes
      split at goes
      · rename_i nothing
        rw [List.isEmpty_iff.mp nothing]
        exact .inl ⟨queued, rfl, goes⟩
      · rename_i some'
        cases goes with
        | @send _ part more _ answer _ _ told others =>
            cases told with
            | refused split fault => exact .inr ⟨_, more, others⟩
            | @took rest split =>
                rw [Nat.zero_add] at others
                cases part with
                | nil => exact .inr ⟨_, more, others⟩
                | cons byte part =>
                    -- What was queued leaves less to be queued.
                    have left : data.drop (part.length + 1) = rest := by
                      rw [split]
                      exact List.drop_left' rfl
                    simp only [List.length_cons] at others
                    rw [left] at others
                    have shorter : rest.length < total := by
                      rw [← count, split, List.length_append, List.length_cons]
                      omega
                    rcases induction rest.length shorter others rfl with
                      ⟨later, rfl, goes⟩ | failed
                    · exact .inl ⟨later, by rw [split, List.append_assoc], goes⟩
                    · exact .inr failed

open Channel.Writing (Dooms Puts Yields)

theorem Dooms.sends {bad : α → Prop} {program : Writing α} {queued : Bytes} {closes : Bool}
    {result : α} (dooms : program.Dooms bad)
    (goes : program.toSending.Goes queued closes result) : bad result := by
  induction program generalizing queued closes with
  | done result =>
      cases goes
      exact dooms
  | write data next induction =>
      cases goes with
      | send told others => exact induction _ (dooms _) others
  | writeAll data next induction =>
      rcases sendAll_goes goes with ⟨more, -, others⟩ | ⟨failure, more, others⟩
      · exact induction _ (dooms _) others
      · exact induction _ (dooms _) others
  | flush next induction => exact induction _ (dooms _) goes
  | settle next induction => exact induction _ (dooms _) goes
  | release next induction =>
      cases goes with
      | close others => exact induction dooms others

/-- Over a pipe, a program that a failure dooms either has a bad result or has queued all its
bytes and left its end open. -/
theorem Yields.sends {bad : α → Prop} {program : Writing α} {bytes queued : Bytes}
    {closes : Bool} {due result : α} (yields : program.Yields (Dooms bad))
    (puts : program.Puts bytes due) (goes : program.toSending.Goes queued closes result) :
    bad result ∨ result = due ∧ queued = bytes ∧ closes = false := by
  induction puts generalizing queued with
  | done due =>
      cases goes
      exact .inr ⟨rfl, rfl, rfl⟩
  | writeAll _ induction =>
      cases yields with
      | writeAll others fails =>
          rcases sendAll_goes goes with ⟨more, rfl, later⟩ | ⟨failure, more, later⟩
          · rcases induction others later with doomed | ⟨same, rfl, never⟩
            · exact .inl doomed
            · exact .inr ⟨same, rfl, never⟩
          · exact .inl (Dooms.sends (fails failure) later)
  | settle _ induction =>
      cases yields with
      | settle others fails => exact induction others goes

end Pipe

end ByteStreams
