import ByteStreams.Pipe.Transfer
import ByteStreams.Proofs.Pipe.Closing

/-! # Transfers

A block sender and a collector at the two ends of a pipe come to the same end whatever
their schedule is. The collector has the blocks, or as many of their bytes as it wants, and
every send queued its whole block, unless the collector was satisfied before.
-/

namespace ByteStreams

namespace Pipe

/-! ## The sender -/

def wholeAnswer (block : Bytes) : Except Fault Nat := .ok block.length

namespace BlockSender

/-- A block sender that is in the send of a block: it sent the blocks before whole, and some
bytes of this one. -/
inductive Amid (blocks : List Bytes) :
    Bytes → List (Except Fault Nat) → Bytes → Nat → (Except Fault Nat → BlockSender) → Prop
  | sent (done rest : List Bytes) (pushed left : Bytes)
      (blocks_eq : blocks = done ++ (pushed ++ left) :: rest) :
      Amid blocks (done.flatten ++ pushed) (done.map wholeAnswer) left pushed.length
        (afterSend rest done.flatten.length)

theorem Amid.queued_prefix {blocks : List Bytes} {queued left : Bytes}
    {answers : List (Except Fault Nat)} {count : Nat} {next : Except Fault Nat → BlockSender}
    (amid : Amid blocks queued answers left count next) : queued <+: blocks.flatten := by
  cases amid with
  | sent done rest pushed left blocks_eq => exact ⟨left ++ rest.flatten, by simp [blocks_eq]⟩

inductive Ends (blocks : List Bytes) (queued : Bytes) :
    List (Except Fault Nat) → BlockSender → Prop
  | whole (queued_eq : queued = blocks.flatten) :
      Ends blocks queued (blocks.map wholeAnswer) (.complete queued.length)
  | cut (done rest : List Bytes) (block unsent : Bytes)
      (blocks_eq : blocks = done ++ block :: rest)
      (flatten_eq : blocks.flatten = queued ++ unsent) (some' : unsent ≠ []) :
      Ends blocks queued (done.map wholeAnswer ++ [.error .closed]) (.stopped .closed)

theorem Ends.queued_prefix {blocks : List Bytes} {queued : Bytes}
    {answers : List (Except Fault Nat)} {sender : BlockSender}
    (ends : sender.Ends blocks queued answers) : queued <+: blocks.flatten := by
  cases ends with
  | whole queued_eq => exact ⟨[], by rw [List.append_nil, queued_eq]⟩
  | cut done rest block unsent blocks_eq flatten_eq some' => exact ⟨unsent, flatten_eq.symm⟩

theorem Ends.whole_of_all {blocks : List Bytes} {queued : Bytes}
    {answers : List (Except Fault Nat)} {sender : BlockSender}
    (ends : sender.Ends blocks queued answers) (all : queued = blocks.flatten) :
    sender = .complete blocks.flatten.length ∧ answers = blocks.map wholeAnswer := by
  cases ends with
  | whole queued_eq => exact ⟨by rw [queued_eq], rfl⟩
  | cut done rest block unsent blocks_eq flatten_eq some' =>
      rw [all, List.self_eq_append_right] at flatten_eq
      exact absurd flatten_eq some'

end BlockSender

open BlockSender (Amid)

/-- What a sender has sent of its blocks, and what its sends answered. -/
inductive SenderState.HasSent (blocks : List Bytes) (closed : Bool) (queued : Bytes) :
    List (Except Fault Nat) → SenderState BlockSender → Prop
  | between (done rest : List Bytes) (blocks_eq : blocks = done ++ rest)
      (queued_eq : queued = done.flatten) :
      HasSent blocks closed queued (done.map wholeAnswer) (.ready (.sending rest queued.length))
  | awake {answers : List (Except Fault Nat)} {left : Bytes} {count : Nat}
      {next : Except Fault Nat → BlockSender}
      (amid : Amid blocks queued answers left count next) :
      HasSent blocks closed queued answers (.awake left count next)
  | parked {answers : List (Except Fault Nat)} {left : Bytes} {count : Nat}
      {next : Except Fault Nat → BlockSender}
      (amid : Amid blocks queued answers left count next) :
      HasSent blocks closed queued answers (.parked left count next)
  | stopped {answers : List (Except Fault Nat)} {sender : BlockSender}
      (ends : sender.Ends blocks queued answers) (wasClosed : closed = true) :
      HasSent blocks closed queued answers (.ready sender)
  | finished {answers : List (Except Fault Nat)} {sender : BlockSender}
      (ends : sender.Ends blocks queued answers) (wasClosed : closed = true) :
      HasSent blocks closed queued answers (.finished sender)

namespace SenderState.HasSent

variable {blocks : List Bytes} {closed : Bool} {queued : Bytes}
  {answers : List (Except Fault Nat)} {sender : SenderState BlockSender}

theorem carry (sent : sender.HasSent blocks closed queued answers)
    {after : SenderState BlockSender} (same : after = sender ∨ after = sender.wake)
    {closedAfter : Bool} (closes : closed = true → closedAfter = true) :
    after.HasSent blocks closedAfter queued answers := by
  rcases same with rfl | rfl
  · cases sent with
    | between done rest blocks_eq queued_eq => exact .between done rest blocks_eq queued_eq
    | awake amid => exact .awake amid
    | parked amid => exact .parked amid
    | stopped ends wasClosed => exact .stopped ends (closes wasClosed)
    | finished ends wasClosed => exact .finished ends (closes wasClosed)
  · cases sent with
    | between done rest blocks_eq queued_eq => exact .between done rest blocks_eq queued_eq
    | awake amid => exact .awake amid
    | parked amid => exact .awake amid
    | stopped ends wasClosed => exact .stopped ends (closes wasClosed)
    | finished ends wasClosed => exact .finished ends (closes wasClosed)

theorem nextBlock {done rest : List Bytes} {block : Bytes}
    (blocks_eq : blocks = done ++ block :: rest) (queued_eq : queued = done.flatten ++ block) :
    HasSent blocks closed queued (done.map wholeAnswer ++ [wholeAnswer block])
      (.ready (BlockSender.afterSend rest done.flatten.length (wholeAnswer block))) := by
  have sent : HasSent blocks closed queued ((done ++ [block]).map wholeAnswer)
      (.ready (.sending rest queued.length)) := by
    refine .between (done ++ [block]) rest ?_ ?_
    · simp [blocks_eq]
    · simp [queued_eq]
  rw [List.map_append] at sent
  rw [queued_eq, List.length_append] at sent
  rw [queued_eq]
  exact sent

theorem amid (sent : sender.HasSent blocks closed queued answers) {left : Bytes} {count : Nat}
    {next : Except Fault Nat → BlockSender} (inSend : sender.InSend left count next) :
    Amid blocks queued answers left count next := by
  cases inSend with
  | resumes =>
      cases sent with
      | awake amid => exact amid
  | begins call =>
      cases sent with
      | between done rest blocks_eq queued_eq =>
          cases rest with
          | nil => cases call
          | cons block rest =>
              cases call
              have amid := Amid.sent done rest [] left blocks_eq
              rw [List.append_nil, ← queued_eq] at amid
              exact amid
      | stopped ends wasClosed => cases ends <;> cases call

theorem queued_prefix (sent : sender.HasSent blocks closed queued answers) :
    queued <+: blocks.flatten := by
  cases sent with
  | between done rest blocks_eq queued_eq => exact ⟨rest.flatten, by simp [blocks_eq, queued_eq]⟩
  | awake amid => exact amid.queued_prefix
  | parked amid => exact amid.queued_prefix
  | stopped ends wasClosed => exact ends.queued_prefix
  | finished ends wasClosed => exact ends.queued_prefix

end SenderState.HasSent

theorem SendOutcome.hasSent {pipe : Pipe} {left : Bytes} {count : Nat} {limit : Option Span}
    {stretch : SendStretch} (outcome : SendOutcome pipe left count limit false stretch)
    {blocks : List Bytes} {queued : Bytes} {answers : List (Except Fault Nat)}
    {next : Except Fault Nat → BlockSender}
    (amid : Amid blocks queued answers left count next) :
    match stretch.finish with
    | .answers answer =>
        (SenderState.ready (next answer)).HasSent blocks stretch.pipe.closed
          (queued ++ stretch.pushed) (answers ++ [answer])
    | .waits left count =>
        (SenderState.parked left count next).HasSent blocks stretch.pipe.closed
          (queued ++ stretch.pushed) answers := by
  cases amid with
  | sent done rest pushed left blocks_eq =>
      cases outcome with
      | whole gains =>
          have whole : .ok (pushed.length + left.length) = wholeAnswer (pushed ++ left) := by
            rw [wholeAnswer, List.length_append]
          dsimp only
          rw [whole]
          exact .nextBlock blocks_eq (List.append_assoc ..)
      | refused some' closed =>
          refine .stopped (.cut done rest (pushed ++ left) (left ++ rest.flatten) blocks_eq ?_ ?_)
            closed
          · simp [blocks_eq]
          · simp [some']
      | @stuck part unsent after split more opened gains full =>
          subst split
          rw [← List.append_assoc] at blocks_eq
          have amid := Amid.sent done rest (pushed ++ part) unsent blocks_eq
          rw [← List.append_assoc, List.length_append] at amid
          exact .parked amid

/-! ## The collector -/

namespace Collector

structure Asks (collector : Collector) : Prop where
  opened : collector.closed = false
  unfinished : collector.finish = none
  unsatisfied : collector.isSatisfied = false

/-- A collector has these bytes of the blocks, and takes no more once it has them all or as
many as it wants. -/
structure Holds (blocks : List Bytes) (piece : Nat) (goal : Option Nat) (delivered : Bytes)
    (collector : Collector) : Prop where
  piece_eq : collector.piece = piece
  goal_eq : collector.goal = goal
  received_eq : collector.received = delivered
  count_eq : collector.count = delivered.length
  within : ∀ most, goal = some most → delivered.length ≤ most
  ended : collector.finish = some .ended → delivered = blocks.flatten
  satisfied : collector.finish = some .satisfied → goal = some delivered.length
  faultless : ∀ fault, collector.finish ≠ some (.failed fault)
  concluded : collector.closed = true → collector.finish.isSome = true

theorem closed_of_done {collector : Collector} (call : ReceiveTask.call collector = .done) :
    collector.closed = true := by
  simp only [ReceiveTask.call] at call
  split at call
  · assumption
  · split at call
    · cases call
    · split at call <;> cases call

theorem asks_of_receive {collector : Collector} {wanted : Nat}
    {next : Except Fault Bytes → Collector}
    (call : ReceiveTask.call collector = .receive wanted next) :
    collector.Asks ∧ wanted = collector.wanted ∧ next = collector.afterReceive := by
  simp only [ReceiveTask.call] at call
  split at call
  · cases call
  · rename_i opened
    split at call
    · cases call
    · rename_i unfinished
      split at call
      · cases call
      · rename_i unsatisfied
        cases call
        exact ⟨⟨by simpa using opened, by simpa using unfinished, by simpa using unsatisfied⟩,
          rfl, rfl⟩

theorem of_close {collector next : Collector}
    (call : ReceiveTask.call collector = .close next) :
    collector.finish.isSome = true ∧ next = { collector with closed := true } ∨
      collector.isSatisfied = true ∧
        next = { collector with finish := some .satisfied, closed := true } := by
  simp only [ReceiveTask.call] at call
  split at call
  · cases call
  · split at call
    · rename_i finished
      cases call
      exact .inl ⟨finished, rfl⟩
    · split at call
      · rename_i satisfied
        cases call
        exact .inr ⟨satisfied, rfl⟩
      · cases call

namespace Holds

variable {blocks : List Bytes} {piece : Nat} {goal : Option Nat} {delivered : Bytes}
  {collector : Collector}

theorem new (blocks : List Bytes) (piece : Nat) (goal : Option Nat) :
    (Collector.new piece goal).Holds blocks piece goal [] where
  piece_eq := rfl
  goal_eq := rfl
  received_eq := rfl
  count_eq := rfl
  within _ _ := Nat.zero_le _
  ended := nofun
  satisfied := nofun
  faultless := nofun
  concluded := nofun

theorem allOrEnough (holds : collector.Holds blocks piece goal delivered)
    (finished : collector.finish.isSome = true) :
    delivered = blocks.flatten ∨ goal = some delivered.length := by
  cases finish : collector.finish with
  | none => simp [finish] at finished
  | some reason =>
      cases reason with
      | ended => exact .inl (holds.ended finish)
      | satisfied => exact .inr (holds.satisfied finish)
      | failed fault => exact absurd finish (holds.faultless fault)

theorem enough (holds : collector.Holds blocks piece goal delivered)
    (satisfied : collector.isSatisfied = true) : goal = some delivered.length := by
  rw [isSatisfied, holds.goal_eq, holds.count_eq] at satisfied
  cases goal with
  | none => cases satisfied
  | some most =>
      have within := holds.within most rfl
      simp only [decide_eq_true_eq] at satisfied
      rw [Nat.le_antisymm within satisfied]

theorem close (holds : collector.Holds blocks piece goal delivered)
    (finished : collector.finish.isSome = true) :
    { collector with closed := true }.Holds blocks piece goal delivered :=
  { holds with concluded := fun _ => finished }

theorem satisfy (holds : collector.Holds blocks piece goal delivered)
    (satisfied : collector.isSatisfied = true) :
    { collector with finish := some .satisfied, closed := true }.Holds blocks piece goal
      delivered :=
  { holds with
    ended := nofun
    satisfied := fun _ => holds.enough satisfied
    faultless := nofun
    concluded := fun _ => rfl }

theorem wanted_ne_zero (holds : collector.Holds blocks piece goal delivered)
    (asks : collector.Asks) (positive : piece ≠ 0) : collector.wanted ≠ 0 := by
  have unsatisfied := asks.unsatisfied
  rw [isSatisfied] at unsatisfied
  rw [wanted, holds.piece_eq]
  cases goal_eq : collector.goal with
  | none => exact positive
  | some most =>
      simp only [goal_eq, decide_eq_false_iff_not] at unsatisfied
      simp only
      omega

theorem afterReceive (holds : collector.Holds blocks piece goal delivered)
    (asks : collector.Asks) {bytes : Bytes} (fits : bytes.length ≤ collector.wanted)
    (ended : bytes = [] → delivered = blocks.flatten) :
    (collector.afterReceive (.ok bytes)).Holds blocks piece goal (delivered ++ bytes) := by
  cases bytes with
  | nil =>
      rw [List.append_nil]
      exact
        { holds with
          ended := fun _ => ended rfl
          satisfied := nofun
          faultless := nofun
          concluded := fun _ => rfl }
  | cons byte bytes =>
      have unfinished : (collector.afterReceive (.ok (byte :: bytes))).finish = none :=
        asks.unfinished
      refine ⟨holds.piece_eq, holds.goal_eq, ?_, ?_, ?_, ?_, ?_, ?_, ?_⟩
      · rw [← holds.received_eq]
        simp [received, Bytes.join_eq, Collector.afterReceive]
      · simp [Collector.afterReceive, holds.count_eq]
      · intro most same
        have before := holds.within most same
        rw [wanted, holds.goal_eq, same, holds.count_eq] at fits
        simp only at fits
        rw [List.length_append]
        omega
      · rw [unfinished]
        nofun
      · rw [unfinished]
        nofun
      · rw [unfinished]
        nofun
      · exact holds.concluded

end Holds

end Collector

inductive ReceiverState.Collects (blocks : List Bytes) (piece : Nat) (goal : Option Nat)
    (delivered : Bytes) : ReceiverState Collector → Prop
  | ready {collector : Collector} (holds : collector.Holds blocks piece goal delivered) :
      Collects blocks piece goal delivered (.ready collector)
  | awake {collector : Collector} (holds : collector.Holds blocks piece goal delivered)
      (asks : collector.Asks) :
      Collects blocks piece goal delivered (.awake collector.wanted collector.afterReceive)
  | parked {collector : Collector} (holds : collector.Holds blocks piece goal delivered)
      (asks : collector.Asks) :
      Collects blocks piece goal delivered (.parked collector.wanted collector.afterReceive)
  | finished {collector : Collector} (holds : collector.Holds blocks piece goal delivered)
      (concluded : collector.finish.isSome = true) :
      Collects blocks piece goal delivered (.finished collector)

namespace ReceiverState.Collects

variable {blocks : List Bytes} {piece : Nat} {goal : Option Nat} {delivered : Bytes}
  {receiver : ReceiverState Collector}

theorem carry (collects : receiver.Collects blocks piece goal delivered)
    {after : ReceiverState Collector} (same : after = receiver ∨ after = receiver.wake) :
    after.Collects blocks piece goal delivered := by
  rcases same with rfl | rfl
  · exact collects
  · cases collects with
    | ready holds => exact .ready holds
    | awake holds asks => exact .awake holds asks
    | parked holds asks => exact .awake holds asks
    | finished holds concluded => exact .finished holds concluded

theorem within (collects : receiver.Collects blocks piece goal delivered) {most : Nat}
    (wants : goal = some most) : delivered.length ≤ most := by
  cases collects with
  | ready holds => exact holds.within most wants
  | awake holds asks => exact holds.within most wants
  | parked holds asks => exact holds.within most wants
  | finished holds concluded => exact holds.within most wants

theorem asks (collects : receiver.Collects blocks piece goal delivered) {wanted : Nat}
    {next : Except Fault Bytes → Collector} (inReceive : receiver.InReceive wanted next) :
    ∃ collector : Collector, collector.Holds blocks piece goal delivered ∧ collector.Asks ∧
      wanted = collector.wanted ∧ next = collector.afterReceive := by
  cases inReceive with
  | resumes =>
      cases collects with
      | awake holds asks => exact ⟨_, holds, asks, rfl, rfl⟩
  | begins call =>
      cases collects with
      | ready holds => exact ⟨_, holds, Collector.asks_of_receive call⟩

end ReceiverState.Collects

theorem ReceiveOutcome.collects {pipe : Pipe} {collector : Collector} {limit : Option Span}
    {stretch : ReceiveStretch}
    (outcome : ReceiveOutcome pipe collector.wanted limit false stretch) {blocks : List Bytes}
    {piece : Nat} {goal : Option Nat} {delivered : Bytes} (positive : piece ≠ 0)
    (holds : collector.Holds blocks piece goal delivered) (asks : collector.Asks)
    (whyEmpty : pipe.closed = true → pipe.content = [] → delivered = blocks.flatten) :
    match stretch.finish with
    | .answers answer =>
        (ReceiverState.ready (collector.afterReceive answer)).Collects blocks piece goal
          (delivered ++ stretch.taken)
    | .waits =>
        (ReceiverState.parked collector.wanted collector.afterReceive).Collects blocks piece goal
          (delivered ++ stretch.taken) := by
  cases outcome with
  | @gives bytes after loses count nothing =>
      refine .ready (holds.afterReceive asks ?_ ?_)
      · rw [count]
        exact Nat.min_le_left ..
      · intro none'
        rcases nothing none' with none'' | ⟨empty, closed⟩
        · exact absurd none'' (holds.wanted_ne_zero asks positive)
        · exact whyEmpty closed empty
  | expires asked empty opened expiry => cases expiry
  | waits asked empty opened inTime =>
      dsimp only
      rw [List.append_nil]
      exact .parked holds asks

/-! ## Both -/

namespace Exchange

theorem Sound.hasSent_runSend {exchange : Exchange BlockSender Collector}
    (sound : exchange.Sound) {blocks : List Bytes} {queued : Bytes}
    {answers : List (Except Fault Nat)} {left : Bytes} {count : Nat}
    {next : Except Fault Nat → BlockSender} (amid : Amid blocks queued answers left count next)
    (inSend : exchange.sender.InSend left count next) :
    (exchange.runSend left count next false).exchange.sender.HasSent blocks
      (exchange.runSend left count next false).exchange.pipe.closed
      (queued ++ (exchange.runSend left count next false).queued)
      (answers ++ (exchange.sendAnswer? (.sender false)).toList) := by
  have outcome := sendStretch_outcome sound.pipe left count exchange.sendLimit false
  have sent := outcome.hasSent amid
  rw [sendAnswer?_eq inSend, Exchange.runSend]
  cases finish : (exchange.pipe.sendStretch left count exchange.sendLimit false).finish with
  | answers answer =>
      rw [finish] at sent
      exact sent
  | waits left count =>
      rw [finish] at sent
      simp only [SendEnd.answer?, Option.toList_none, List.append_nil]
      exact sent

theorem Sound.collects_runReceive {exchange : Exchange BlockSender Collector}
    (sound : exchange.Sound) {blocks : List Bytes} {piece : Nat} {goal : Option Nat}
    {delivered : Bytes} (positive : piece ≠ 0) {collector : Collector}
    (holds : collector.Holds blocks piece goal delivered) (asks : collector.Asks)
    (whyEmpty : exchange.pipe.closed = true → exchange.pipe.content = [] →
      delivered = blocks.flatten) :
    let stepped := exchange.runReceive collector.wanted collector.afterReceive false
    stepped.exchange.receiver.Collects blocks piece goal (delivered ++ stepped.delivered) := by
  have outcome := receiveStretch_outcome sound.pipe collector.wanted exchange.receiveLimit false
  have collects := outcome.collects positive holds asks whyEmpty
  rw [Exchange.runReceive]
  cases finish :
      (exchange.pipe.receiveStretch collector.wanted exchange.receiveLimit false).finish with
  | answers answer =>
      rw [finish] at collects
      exact collects
  | waits =>
      rw [finish] at collects
      exact collects

/-- A transfer in progress: what was sent, what was collected and why the pipe is closed, if it
is. -/
structure Transfers (blocks : List Bytes) (piece : Nat) (goal : Option Nat)
    (exchange : Exchange BlockSender Collector) (queued delivered : Bytes)
    (answers : List (Except Fault Nat)) : Prop where
  sound : exchange.Sound
  sendUnlimited : exchange.sendLimit = none
  receiveUnlimited : exchange.receiveLimit = none
  conserved : queued = delivered ++ exchange.pipe.content
  sent : exchange.sender.HasSent blocks exchange.pipe.closed queued answers
  collects : exchange.receiver.Collects blocks piece goal delivered
  whyClosed : exchange.pipe.closed = true →
    queued = blocks.flatten ∨ goal = some delivered.length

namespace Transfers

variable {blocks : List Bytes} {piece : Nat} {goal : Option Nat}
  {exchange : Exchange BlockSender Collector} {queued delivered : Bytes}
  {answers : List (Except Fault Nat)} {event : Event} {stepped : Stepped BlockSender Collector}

theorem inTime {expired : Bool} {limit : Option Span} (unlimited : limit = none)
    (allowed : expired = true → mayExpire limit = true) : expired = false := by
  subst unlimited
  cases expired with
  | false => rfl
  | true => cases allowed rfl

/-- A collector that is not satisfied finds a closed pipe empty only after all blocks. -/
theorem allWhenEmpty (transfers : Transfers blocks piece goal exchange queued delivered answers)
    {collector : Collector} (holds : collector.Holds blocks piece goal delivered)
    (asks : collector.Asks) (closed : exchange.pipe.closed = true)
    (empty : exchange.pipe.content = []) : delivered = blocks.flatten := by
  have conserved := transfers.conserved
  rw [empty, List.append_nil] at conserved
  rcases transfers.whyClosed closed with all | enough
  · exact conserved.symm.trans all
  · have unsatisfied := asks.unsatisfied
    simp [Collector.isSatisfied, holds.goal_eq, enough, holds.count_eq] at unsatisfied

theorem sent_step (transfers : Transfers blocks piece goal exchange queued delivered answers)
    (steps : exchange.Steps event stepped) :
    stepped.exchange.sender.HasSent blocks stepped.exchange.pipe.closed
      (queued ++ stepped.queued) (answers ++ (exchange.sendAnswer? event).toList) := by
  have sent := transfers.sent
  have staysClosed := (steps.keeps transfers.sound).staysClosed
  cases event with
  | sender expired =>
      cases steps with
      | send allowed inSend =>
          cases inTime transfers.sendUnlimited allowed
          exact transfers.sound.hasSent_runSend (sent.amid inSend) inSend
      | senderOver allowed ready call =>
          rw [sendAnswer?_of_done ready call, Stepped.still, Option.toList_none, List.append_nil,
            List.append_nil]
          rw [ready] at sent
          cases sent with
          | between done rest => cases rest <;> cases call
          | stopped ends wasClosed => exact .finished ends (closed_close exchange)
      | senderCloses allowed ready call =>
          rw [sendAnswer?_of_close ready call, Stepped.still, Option.toList_none,
            List.append_nil, List.append_nil]
          rw [ready] at sent
          cases sent with
          | between done rest blocks_eq queued_eq =>
              cases rest with
              | nil =>
                  cases call
                  rw [List.append_nil] at blocks_eq
                  subst blocks_eq
                  exact .stopped (.whole queued_eq) (closed_close exchange)
              | cons block rest => cases call
          | stopped ends wasClosed => cases ends <;> cases call
  | _ =>
      rcases steps.sender_unmoved (by simp) with ⟨noneQueued, noAnswer, same⟩
      rw [noneQueued, noAnswer, Option.toList_none, List.append_nil, List.append_nil]
      exact sent.carry same staysClosed

theorem collects_step (positive : piece ≠ 0)
    (transfers : Transfers blocks piece goal exchange queued delivered answers)
    (steps : exchange.Steps event stepped) :
    stepped.exchange.receiver.Collects blocks piece goal (delivered ++ stepped.delivered) := by
  have collects := transfers.collects
  cases event with
  | receiver expired =>
      cases steps with
      | receive allowed inReceive =>
          cases inTime transfers.receiveUnlimited allowed
          rcases collects.asks inReceive with ⟨collector, holds, asks, rfl, rfl⟩
          exact transfers.sound.collects_runReceive positive holds asks
            (transfers.allWhenEmpty holds asks)
      | receiverOver allowed ready call =>
          rw [Stepped.still, List.append_nil]
          rw [ready] at collects
          cases collects with
          | ready holds => exact .finished holds (holds.concluded (Collector.closed_of_done call))
      | receiverCloses allowed ready call =>
          rw [Stepped.still, List.append_nil]
          rw [ready] at collects
          cases collects with
          | ready holds =>
              rcases Collector.of_close call with ⟨finished, rfl⟩ | ⟨satisfied, rfl⟩
              · exact .ready (holds.close finished)
              · exact .ready (holds.satisfy satisfied)
  | _ =>
      rcases steps.receiver_unmoved (by simp) with ⟨noneDelivered, -, same⟩
      rw [noneDelivered, List.append_nil]
      exact collects.carry same

theorem whyClosed_of_closes
    (transfers : Transfers blocks piece goal exchange queued delivered answers)
    (opened : exchange.pipe.closed = false) (closes : exchange.Closes event) :
    queued = blocks.flatten ∨ goal = some delivered.length := by
  have sent := transfers.sent
  have collects := transfers.collects
  cases closes with
  | sender ready call =>
      rw [ready] at sent
      cases sent with
      | between done rest blocks_eq queued_eq =>
          cases rest with
          | nil =>
              rw [List.append_nil] at blocks_eq
              exact .inl (by rw [queued_eq, blocks_eq])
          | cons block rest =>
              rcases call with call | ⟨next, call⟩ <;> cases call
      | stopped ends wasClosed => exact absurd (opened.symm.trans wasClosed) Bool.false_ne_true
  | receiver ready call =>
      rw [ready] at collects
      cases collects with
      | @ready collector holds =>
          have why : delivered = blocks.flatten ∨ goal = some delivered.length := by
            rcases call with call | ⟨next, call⟩
            · exact holds.allOrEnough (holds.concluded (Collector.closed_of_done call))
            · rcases Collector.of_close call with ⟨finished, rfl⟩ | ⟨satisfied, rfl⟩
              · exact holds.allOrEnough finished
              · exact .inr (holds.enough satisfied)
          refine why.imp_left fun all => ?_
          refine sent.queued_prefix.eq_of_length_le ?_
          rw [← all, transfers.conserved, List.length_append]
          exact Nat.le_add_right ..

theorem whyClosed_step (positive : piece ≠ 0)
    (transfers : Transfers blocks piece goal exchange queued delivered answers)
    (steps : exchange.Steps event stepped) (closed : stepped.exchange.pipe.closed = true) :
    queued ++ stepped.queued = blocks.flatten ∨
      goal = some (delivered ++ stepped.delivered).length := by
  cases wasClosed : exchange.pipe.closed with
  | true =>
      rcases transfers.whyClosed wasClosed with all | enough
      · left
        rw [steps.queued_of_closed wasClosed, List.append_nil, all]
      · right
        have within := (transfers.collects_step positive steps).within enough
        rw [List.length_append] at within ⊢
        rw [enough]
        congr 1
        omega
  | false =>
      rcases steps.closed_eq_or_closes transfers.sound with same | closes
      · rw [same, wasClosed] at closed
        cases closed
      · rcases steps.still_of_closes closes with ⟨noneQueued, noneDelivered⟩
        rw [noneQueued, noneDelivered, List.append_nil, List.append_nil]
        exact transfers.whyClosed_of_closes wasClosed closes

theorem step (positive : piece ≠ 0)
    (transfers : Transfers blocks piece goal exchange queued delivered answers)
    (steps : exchange.Steps event stepped) :
    Transfers blocks piece goal stepped.exchange (queued ++ stepped.queued)
      (delivered ++ stepped.delivered)
      (answers ++ (exchange.sendAnswer? event).toList) where
  sound := (steps.keeps transfers.sound).sound
  sendUnlimited := steps.limits_eq.1.trans transfers.sendUnlimited
  receiveUnlimited := steps.limits_eq.2.trans transfers.receiveUnlimited
  conserved := by
    rw [transfers.conserved, List.append_assoc, (steps.keeps transfers.sound).conserved,
      List.append_assoc]
  sent := transfers.sent_step steps
  collects := transfers.collects_step positive steps
  whyClosed := transfers.whyClosed_step positive steps

theorem follow (positive : piece ≠ 0)
    (transfers : Transfers blocks piece goal exchange queued delivered answers)
    (events : List Event) {last : Stepped BlockSender Collector}
    (followed : exchange.follow? events = some last) :
    Transfers blocks piece goal last.exchange (queued ++ last.queued)
      (delivered ++ last.delivered) (answers ++ exchange.sendAnswers events) := by
  induction events generalizing exchange queued delivered answers last with
  | nil =>
      cases followed
      simpa [Stepped.still, sendAnswers] using transfers
  | cons event events induction =>
      rcases follow?_cons_eq_some_iff.mp followed with ⟨first, rest, steps, later, rfl⟩
      have followed := induction (transfers.step positive steps) later
      rw [sendAnswers_cons steps]
      simpa only [List.append_assoc] using followed

theorem start {capacity : Option Nat} (usable : capacity ≠ some 0) (blocks : List Bytes)
    (piece : Nat) (goal : Option Nat) :
    Transfers blocks piece goal
      (start (empty capacity) none none (.sending blocks 0) (.new piece goal)) [] [] [] where
  sound := sound_start (sound_empty usable) ..
  sendUnlimited := rfl
  receiveUnlimited := rfl
  conserved := rfl
  sent := .between [] blocks rfl rfl
  collects := .ready (.new blocks piece goal)
  whyClosed := nofun

end Transfers

/-- What a schedule of a transfer leads to if all schedules come to the same end. -/
structure Stepped.Transferred (blocks : List Bytes) (goal : Option Nat)
    (answers : List (Except Fault Nat)) (last : Stepped BlockSender Collector) : Prop where
  ends : last.exchange.step? (.sender false) = none →
    last.exchange.step? (.receiver false) = none →
    last.exchange.sender.finished?.isSome ∧ last.exchange.receiver.finished?.isSome
  all : (∀ most, goal = some most → blocks.flatten.length ≤ most) →
    (∀ collector, last.exchange.receiver = .finished collector →
      collector.received = blocks.flatten) ∧
    (∀ sender, last.exchange.sender = .finished sender →
      sender = .complete blocks.flatten.length ∧ answers = blocks.map wholeAnswer)
  enough : ∀ most, goal = some most → most < blocks.flatten.length →
    (∀ collector, last.exchange.receiver = .finished collector →
      collector.received = blocks.flatten.take most) ∧
    (∀ sender, last.exchange.sender = .finished sender →
      sender.Ends blocks last.queued answers)

theorem Transfers.ends_of_finished {blocks : List Bytes} {piece : Nat} {goal : Option Nat}
    {exchange : Exchange BlockSender Collector} {queued delivered : Bytes}
    {answers : List (Except Fault Nat)}
    (transfers : Transfers blocks piece goal exchange queued delivered answers)
    {sender : BlockSender} (finished : exchange.sender = .finished sender) :
    sender.Ends blocks queued answers ∧ exchange.pipe.closed = true := by
  have sent := transfers.sent
  rw [finished] at sent
  cases sent with
  | finished ends wasClosed => exact ⟨ends, wasClosed⟩

theorem Transfers.received_of_finished {blocks : List Bytes} {piece : Nat} {goal : Option Nat}
    {exchange : Exchange BlockSender Collector} {queued delivered : Bytes}
    {answers : List (Except Fault Nat)}
    (transfers : Transfers blocks piece goal exchange queued delivered answers)
    {collector : Collector} (finished : exchange.receiver = .finished collector) :
    collector.received = delivered ∧
      (delivered = blocks.flatten ∨ goal = some delivered.length) := by
  have collects := transfers.collects
  rw [finished] at collects
  cases collects with
  | finished holds concluded => exact ⟨holds.received_eq, holds.allOrEnough concluded⟩

theorem Transfers.delivered_prefix {blocks : List Bytes} {piece : Nat} {goal : Option Nat}
    {exchange : Exchange BlockSender Collector} {queued delivered : Bytes}
    {answers : List (Except Fault Nat)}
    (transfers : Transfers blocks piece goal exchange queued delivered answers) :
    delivered <+: blocks.flatten := by
  have before : delivered <+: queued := ⟨_, transfers.conserved.symm⟩
  exact before.trans transfers.sent.queued_prefix

/-- Blocks that a sender sends into a pipe come to the same end in every schedule: neither
thread is ever stuck, and a collector that wants all of their bytes gets all. One that wants
fewer gets the first ones, and then at most the send that it cut short fails. -/
theorem transfer_ends_alike {capacity : Option Nat} (usable : capacity ≠ some 0) {piece : Nat}
    (positive : piece ≠ 0) (blocks : List Bytes) (goal : Option Nat) :
    ∃ pipe, create capacity = .ok pipe ∧
      ∀ events last,
        (start pipe none none (BlockSender.sending blocks 0) (Collector.new piece goal)).follow?
          events = some last →
        last.Transferred blocks goal
          ((start pipe none none (BlockSender.sending blocks 0)
            (Collector.new piece goal)).sendAnswers events) := by
  refine ⟨empty capacity, create_of_usable usable, ?_⟩
  intro events last followed
  have transfers := (Transfers.start usable blocks piece goal).follow positive events followed
  simp only [List.nil_append] at transfers
  have before := transfers.delivered_prefix
  refine ⟨?_, ?_, ?_⟩
  · intro senderStuck receiverStuck
    rcases transfers.sound.goesOn with finished | senderGoesOn | receiverGoesOn
    · exact finished
    · simp [senderStuck] at senderGoesOn
    · simp [receiverStuck] at receiverGoesOn
  · intro wantsAll
    refine ⟨?_, ?_⟩
    · intro collector finished
      rcases transfers.received_of_finished finished with ⟨received, all | enough⟩
      · exact received.trans all
      · exact received.trans (before.eq_of_length_le (wantsAll _ enough))
    · intro sender finished
      rcases transfers.ends_of_finished finished with ⟨ends, closed⟩
      have all : last.queued = blocks.flatten := by
        rcases transfers.whyClosed closed with all | enough
        · exact all
        · refine transfers.sent.queued_prefix.eq_of_length_le ?_
          rw [transfers.conserved, List.length_append]
          exact Nat.le_add_right_of_le (wantsAll _ enough)
      exact ends.whole_of_all all
  · intro most wants fewer
    refine ⟨?_, fun sender finished => (transfers.ends_of_finished finished).1⟩
    intro collector finished
    rcases transfers.received_of_finished finished with ⟨received, all | enough⟩
    · have within := transfers.collects.within wants
      rw [all] at within
      omega
    · rw [wants, Option.some.injEq] at enough
      rw [received, enough, ← List.prefix_iff_eq_take.mp before]

/-- The collector is satisfied while the sender waits to queue the rest of its first block. -/
theorem transfer_ends_alike_cut_short :
    let blocks : List Bytes := [[1, 2, 3], [], [4]]
    let events : List Event :=
      [.sender false, .receiver false, .receiver false, .sender false, .sender false,
        .receiver false]
    ∃ pipe last, create (some 2) = .ok pipe ∧
      (start pipe none none (BlockSender.sending blocks 0) (Collector.new 2 (some 2))).follow?
        events = some last ∧
      last.exchange.sender.finished? = some (.stopped .closed) ∧
      last.exchange.receiver.finished?.map Collector.received = some [1, 2] ∧
      last.Transferred blocks (some 2) [.error .closed] := by
  intro blocks events
  have usable : (some 2 : Option Nat) ≠ some 0 := by decide
  have positive : 2 ≠ 0 := by decide
  rcases transfer_ends_alike usable positive blocks (some 2) with ⟨pipe, created, always⟩
  cases created
  have moves : ((start (empty (some 2)) none none (BlockSender.sending blocks 0)
      (Collector.new 2 (some 2))).follow? events).map (fun last =>
        (last.exchange.sender.finished?,
          last.exchange.receiver.finished?.map Collector.received)) =
      some (some (.stopped .closed), some [1, 2]) := by decide +kernel
  rcases Option.map_eq_some_iff.mp moves with ⟨last, followed, moved⟩
  simp only [Prod.mk.injEq] at moved
  exact ⟨_, last, rfl, followed, moved.1, moved.2, always _ last followed⟩

end Exchange

end Pipe

end ByteStreams
