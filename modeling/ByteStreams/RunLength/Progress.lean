import ByteStreams.Channel.Source
import ByteStreams.RunLength.Decoder

/-!
Progress of the streaming decoder.

A call that hands out bytes uses up code, or bytes that are owed of a run. So a loop
that decodes until nothing is handed out comes to an end.
-/

namespace ByteStreams

namespace RunLength

namespace Decoder

open Channel (Reading Source)

theorem drainAfter_measure (decoder : Decoder) (found : Bytes) (want : Nat) :
    let out := decoder.drainAfter found want
    out.2.buffered.length ≤ decoder.buffered.length ∧
      (out.2.buffered.length = decoder.buffered.length →
        out.2.owed + out.1.length = decoder.owed + found.length) := by
  fun_induction drainAfter decoder found want with
  | case1 => simp
  | case2 decoder found want some' owes count induction =>
      simp only [List.length_append, List.length_replicate] at induction ⊢
      refine ⟨induction.1, fun same => ?_⟩
      have := induction.2 same
      omega
  | case3 decoder found want _ _ byte size rest whole induction =>
      have := Frame.length_lt_of_parse whole
      simp only at induction ⊢
      omega
  | case4 decoder found want _ _ value count size rest whole induction =>
      have := Frame.length_lt_of_parse whole
      simp only at induction ⊢
      omega
  | case5 => simp
  | case6 => simp

private theorem measure_of_drain {decoder : Decoder} {source : Source} {want : Nat}
    {byte : UInt8} {more : Bytes} {after : Decoder} {rest : Source}
    (handed : (Reading.done (decoder.drain want)).run source =
      ((.ok (byte :: more), after), rest)) :
    after.buffered.length + rest.left < decoder.buffered.length + source.left ∨
      (after.buffered.length + rest.left = decoder.buffered.length + source.left ∧
        after.owed < decoder.owed) := by
  have measure := drainAfter_measure decoder [] want
  simp only [Reading.run, drain, Prod.mk.injEq, Except.ok.injEq] at handed
  obtain ⟨⟨bytes, state⟩, same⟩ := handed
  subst same
  simp only [bytes, state, List.length_cons, List.length_nil] at measure
  omega

theorem decode_measure (decoder : Decoder) (source : Source) (want : Nat)
    {byte : UInt8} {more : Bytes} {after : Decoder} {rest : Source}
    (handed : (decoder.decode want).run source = ((.ok (byte :: more), after), rest)) :
    after.buffered.length + rest.left < decoder.buffered.length + source.left ∨
      (after.buffered.length + rest.left = decoder.buffered.length + source.left ∧
        after.owed < decoder.owed) := by
  induction decoder using decode.induct want generalizing source with
  | case1 decoder none' =>
      rw [decode, if_pos none'] at handed
      simp [Reading.run] at handed
  | case2 decoder some' owes =>
      rw [decode, if_neg some', if_pos owes] at handed
      exact measure_of_drain handed
  | case3 decoder some' pays frame size more whole =>
      rw [decode, if_neg some', if_neg pays] at handed
      split at handed
      · exact measure_of_drain handed
      · simp [Reading.run] at handed
      · simp_all
  | case4 decoder some' pays fault whole =>
      rw [decode, if_neg some', if_neg pays] at handed
      split at handed <;> simp_all [Reading.run]
  | case5 decoder some' pays whole induction =>
      rw [decode, if_neg some', if_neg pays] at handed
      split at handed
      · simp_all
      · simp_all
      · simp only [Reading.run] at handed
        generalize pulled : source.pull pullLimit = call at handed
        obtain ⟨answer, left⟩ := call
        cases answer with
        | error failure => simp [Reading.run] at handed
        | ok pulledBytes =>
            have counted := source.left_pull pullLimit pulled
            cases pulledBytes with
            | nil =>
                simp only [Reading.run, atEnd] at handed
                split at handed <;> simp at handed
            | cons first others =>
                have smaller := induction first others left handed
                simp only [List.length_append, List.length_cons] at smaller counted
                omega

end Decoder

end RunLength

end ByteStreams
