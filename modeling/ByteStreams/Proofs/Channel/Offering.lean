import ByteStreams.Proofs.Channel.Faultless

/-! # Programs that offer bytes once

Whatever a sink answers, it notes every offer. So a program that writes once, and asks only
other things of its sink before and after, leaves the sink as that one write leaves it, but
for what the sink notes of the other calls.
-/

namespace ByteStreams

namespace Channel

def Event.offers : Event → Bool
  | .accepted .. | .refused .. => true
  | _ => false

theorem Event.taken_of_not_offers {event : Event} (quiet : event.offers = false) :
    event.taken = [] := by
  cases event with
  | accepted => cases quiet
  | refused | flushed | flushRefused | released => rfl

namespace Sink

def Unoffered (before after : Sink) : Prop :=
  ∃ events, after.journal = events ++ before.journal ∧ ∀ event ∈ events, event.offers = false

variable {before middle after : Sink}

theorem Unoffered.refl (sink : Sink) : sink.Unoffered sink :=
  ⟨[], rfl, fun _ none' => nomatch none'⟩

theorem Unoffered.trans (first : before.Unoffered middle) (second : middle.Unoffered after) :
    before.Unoffered after := by
  rcases first with ⟨events, grown, quiet⟩
  rcases second with ⟨later, laterGrown, laterQuiet⟩
  refine ⟨later ++ events, by rw [laterGrown, grown, List.append_assoc], ?_⟩
  exact List.forall_mem_append.mpr ⟨laterQuiet, quiet⟩

theorem Unoffered.note (event : Event) (quiet : event.offers = false)
    (grown : after.journal = event :: before.journal) : before.Unoffered after :=
  ⟨[event], grown, by simpa using quiet⟩

theorem Unoffered.accepted_eq (unoffered : before.Unoffered after) :
    after.accepted = before.accepted := by
  rcases unoffered with ⟨events, grown, quiet⟩
  have nothing : events.reverse.flatMap Event.taken = [] :=
    List.flatMap_eq_nil_iff.mpr fun event member =>
      Event.taken_of_not_offers (quiet event (List.mem_reverse.mp member))
  rw [accepted, grown, List.reverse_append, List.flatMap_append, nothing, List.append_nil]
  rfl

theorem unoffered_flush (sink : Sink) : sink.Unoffered sink.flush.2 := by
  rcases sink with ⟨replies, _ | ⟨_ | failure, flushReplies⟩, journal⟩
  · exact .note .flushed rfl rfl
  · exact .note .flushed rfl rfl
  · exact .note (.flushRefused failure) rfl rfl

private theorem unoffered_settleUnder (flushReplies : List (Option Failure)) (sink : Sink) :
    sink.Unoffered (sink.settleUnder flushReplies).2 := by
  induction flushReplies generalizing sink with
  | nil => exact .note .flushed rfl rfl
  | cons reply flushReplies induction =>
      cases reply with
      | none => exact .note .flushed rfl rfl
      | some failure =>
          let noted : Sink := { sink with
            flushReplies := flushReplies
            journal := .flushRefused failure :: sink.journal }
          have refused : sink.Unoffered noted := .note (.flushRefused failure) rfl rfl
          rw [settleUnder]
          split
          · exact refused.trans (induction noted)
          · exact refused

theorem unoffered_settle (sink : Sink) : sink.Unoffered sink.settle.2 :=
  unoffered_settleUnder sink.flushReplies sink

theorem unoffered_release (sink : Sink) : sink.Unoffered sink.release :=
  .note .released rfl rfl

theorem writeAll_nil (sink : Sink) : sink.writeAll [] = (.ok (), sink) := by
  rcases sink with ⟨_ | ⟨reply, replies⟩, flushReplies, journal⟩ <;> rfl

end Sink

namespace Writing

variable {α β : Type} {program : Writing α} {holds : α → Prop} {bytes : Bytes}

/-- Whatever it is answered, the program offers nothing, and this holds of its result. -/
def Withholds (holds : α → Prop) : Writing α → Prop
  | .done result => holds result
  | .write .. | .writeAll .. => False
  | .flush next | .settle next => ∀ answer, Withholds holds (next answer)
  | .release next => Withholds holds next

theorem Withholds.bind {passed : β → Prop} {andThen : α → Writing β}
    (withholds : program.Withholds holds)
    (second : ∀ result, holds result → (andThen result).Withholds passed) :
    (program.bind andThen).Withholds passed := by
  induction program with
  | done result => exact second result withholds
  | write | writeAll => exact withholds.elim
  | flush next induction | settle next induction =>
      exact fun answer => induction answer (withholds answer)
  | release next induction => exact induction withholds

theorem Withholds.map {passed : β → Prop} {change : α → β} (withholds : program.Withholds holds)
    (second : ∀ result, holds result → passed (change result)) :
    (program.map change).Withholds passed :=
  withholds.bind second

theorem Withholds.run (withholds : program.Withholds holds) (sink : Sink) :
    holds (program.run sink).1 ∧ sink.Unoffered (program.run sink).2 := by
  induction program generalizing sink with
  | done result => exact ⟨withholds, .refl sink⟩
  | write | writeAll => exact withholds.elim
  | flush next induction =>
      rcases induction _ (withholds sink.flush.1) sink.flush.2 with ⟨held, quiet⟩
      exact ⟨held, sink.unoffered_flush.trans quiet⟩
  | settle next induction =>
      rcases induction _ (withholds sink.settle.1) sink.settle.2 with ⟨held, quiet⟩
      exact ⟨held, sink.unoffered_settle.trans quiet⟩
  | release next induction =>
      rcases induction withholds sink.release with ⟨held, quiet⟩
      exact ⟨held, sink.unoffered_release.trans quiet⟩

/-- Whatever it is answered, the program begins with one write of these bytes, or without a
write if there are none, offers nothing after it, and this holds of its result. -/
inductive OffersOnce (bytes : Bytes) (holds : α → Prop) : Writing α → Prop
  | nothing {program : Writing α} (none' : bytes = []) (others : program.Withholds holds) :
      OffersOnce bytes holds program
  | write {next : Except Failure Unit → Writing α}
      (others : ∀ answer, (next answer).Withholds holds) :
      OffersOnce bytes holds (.writeAll bytes next)

theorem OffersOnce.bind {passed : β → Prop} {andThen : α → Writing β}
    (once : program.OffersOnce bytes holds)
    (second : ∀ result, holds result → (andThen result).Withholds passed) :
    (program.bind andThen).OffersOnce bytes passed := by
  cases once with
  | nothing none' others => exact .nothing none' (others.bind second)
  | write others => exact .write fun answer => (others answer).bind second

theorem OffersOnce.map {passed : β → Prop} {change : α → β}
    (once : program.OffersOnce bytes holds)
    (second : ∀ result, holds result → passed (change result)) :
    (program.map change).OffersOnce bytes passed :=
  once.bind second

/-- The sink is left as the one write leaves it, but for calls that offer nothing. -/
theorem OffersOnce.run (once : program.OffersOnce bytes holds) (sink : Sink) :
    holds (program.run sink).1 ∧ (sink.writeAll bytes).2.Unoffered (program.run sink).2 := by
  cases once with
  | nothing none' others =>
      rw [none', sink.writeAll_nil]
      exact others.run sink
  | write others => exact (others _).run _

end Writing

end Channel

end ByteStreams
