import ByteStreams.Proofs.Channel.Pulls
import ByteStreams.Proofs.RunLength.StreamDecoding

/-! # A source that fails or ends early costs no data

Whatever the source answers, what a call pulls is buffered or decoded, and what it decodes is
handed out or owed. A call that hands out nothing has only pulled. So the calls together hand
out the same data, whichever of them failed.
-/

namespace ByteStreams

namespace RunLength

open Channel (Gives Pull Reading Source brought pulled)

namespace Decoder

/-! ## One call -/

/-- What one call may come to, and what it pulled. It hands out the front of what was ahead, or
it only buffers. It does the latter if it is asked for nothing, if no data is ahead, or if it
pulled in vain and there is no whole frame. -/
inductive Comes (want : Nat) (before : Decoder) (pulls : List Pull) :
    Except Failure Bytes → Decoder → Prop
  | hands {piece : Bytes} {after : Decoder} (some' : piece ≠ []) (fits : piece.length ≤ want)
      (sameSignal : after.signal = before.signal)
      (step : ∀ wire,
        before.outlook (pulled pulls ++ wire) = (after.outlook wire).prepend piece) :
      Comes want before pulls (.ok piece) after
  | buffers {outcome : Except Failure Bytes} {after : Decoder} (none' : brought outcome = [])
      (after_eq : after = { before with buffered := before.buffered ++ pulled pulls })
      (why : want = 0 ∨ (∀ wire, (after.outlook wire).data = []) ∨
        (∃ pull ∈ pulls, pull.Vain) ∧ (after.outlook []).data = []) :
      Comes want before pulls outcome after

variable {want : Nat} {before after : Decoder} {pulls : List Pull}
  {outcome : Except Failure Bytes}

namespace Comes

theorem step (comes : Comes want before pulls outcome after) (wire : Bytes) :
    before.outlook (pulled pulls ++ wire) = (after.outlook wire).prepend (brought outcome) := by
  cases comes with
  | hands some' fits sameSignal step => exact step wire
  | buffers none' after_eq why =>
      rw [after_eq, outlook_pull, none']
      rfl

theorem sameSignal (comes : Comes want before pulls outcome after) :
    after.signal = before.signal := by
  cases comes with
  | hands some' fits sameSignal step => exact sameSignal
  | buffers none' after_eq why => rw [after_eq]

theorem unmoved {failure : Failure} (comes : Comes want before pulls (.error failure) after) :
    after.value = before.value ∧ after.owed = before.owed ∧ after.consumed = before.consumed := by
  cases comes with
  | buffers none' after_eq why =>
      rw [after_eq]
      exact ⟨rfl, rfl, rfl⟩

theorem fits (comes : Comes want before pulls outcome after) :
    (brought outcome).length ≤ want := by
  cases comes with
  | hands some' fits sameSignal step => exact fits
  | buffers none' after_eq why =>
      rw [none']
      exact Nat.zero_le _

theorem afterPull {limit : Nat} {piece : Bytes}
    (comes : Comes want { before with buffered := before.buffered ++ piece } pulls outcome after) :
    Comes want before (⟨limit, .ok piece⟩ :: pulls) outcome after := by
  cases comes with
  | hands some' fits sameSignal step =>
      refine .hands some' fits sameSignal fun wire => ?_
      rw [← step wire, outlook_pull, ← List.append_assoc]
      rfl
  | buffers none' after_eq why =>
      refine .buffers none' ?_ ?_
      · rw [after_eq, List.append_assoc]
        rfl
      · rcases why with nothing | ended | ⟨⟨pull, member, vain⟩, ended⟩
        · exact .inl nothing
        · exact .inr (.inl ended)
        · exact .inr (.inr ⟨⟨pull, List.mem_cons_of_mem _ member, vain⟩, ended⟩)

end Comes

theorem drainAfter_signal (decoder : Decoder) (found : Bytes) (want : Nat) :
    (decoder.drainAfter found want).2.signal = decoder.signal := by
  fun_induction drainAfter decoder found want with
  | case1 => rfl
  | case2 _ _ _ _ _ _ induction => exact induction
  | case3 _ _ _ _ _ _ _ _ _ induction => exact induction
  | case4 _ _ _ _ _ _ _ _ _ _ induction => exact induction
  | case5 => rfl
  | case6 => rfl

theorem drain_comes (decoder : Decoder) (asked : want ≠ 0) (has : decoder.HasData) :
    Comes want decoder [] (decoder.drain want).1 (decoder.drain want).2 := by
  rcases decoder.drainAfter_spec [] want with ⟨piece, after, run, fits, some', step⟩
  have sameSignal := decoder.drainAfter_signal [] want
  rw [run] at sameSignal
  rw [drain, run]
  exact .hands (some' (Nat.pos_of_ne_zero asked) has) fits sameSignal step

theorem pullLimit_ne_zero : pullLimit ≠ 0 := by
  decide

theorem brought_atEnd (decoder : Decoder) : brought decoder.atEnd = [] := by
  unfold atEnd
  split <;> rfl

theorem decode_comes (decoder : Decoder)
    (goes : (decoder.decode want).Goes pulls (outcome, after)) :
    Comes want decoder pulls outcome after := by
  induction decoder using decode.induct want generalizing pulls with
  | case1 decoder none' =>
      rw [decode, if_pos none'] at goes
      cases goes
      exact .buffers rfl (by simp) (.inl none')
  | case2 decoder asked owes =>
      rw [decode, if_neg asked, if_pos owes] at goes
      cases goes
      exact decoder.drain_comes asked (.inl owes)
  | case3 decoder asked pays frame size rest whole =>
      rw [decode, if_neg asked, if_neg pays] at goes
      split at goes
      · cases goes
        exact decoder.drain_comes asked (.inr ⟨frame, size, rest, whole⟩)
      · simp_all
      · simp_all
  | case4 decoder asked pays fault refused =>
      have ahead := decoder.outlook_malformed (Nat.eq_zero_of_not_pos pays) refused
      rw [decode, if_neg asked, if_neg pays] at goes
      split at goes
      · simp_all
      · cases goes
        exact .buffers rfl (by simp) (.inr (.inl fun wire => (ahead wire).1))
      · simp_all
  | case5 decoder asked pays unfinished induction =>
      have ended := (decoder.outlook_atEnd (Nat.eq_zero_of_not_pos pays) unfinished).1
      rw [decode, if_neg asked, if_neg pays] at goes
      split at goes
      · simp_all
      · simp_all
      · cases goes with
        | pull answer others =>
            have vain (none' : brought answer = []) :
                ∃ pull ∈ [⟨pullLimit, answer⟩], Pull.Vain pull :=
              ⟨_, List.mem_singleton.mpr rfl, pullLimit_ne_zero, none'⟩
            rcases answer with failure | (_ | ⟨byte, more⟩)
            · cases others
              exact .buffers rfl (by simp) (.inr (.inr ⟨vain rfl, ended⟩))
            · cases others
              exact .buffers (brought_atEnd _) (by simp) (.inr (.inr ⟨vain rfl, ended⟩))
            · exact (induction byte more others).afterPull

/-! ## Sequences of calls -/

def handed (outcomes : List (Except Failure Bytes)) : Bytes := outcomes.flatMap brought

/-- How many bytes a decoder and its source have to give, and how often the source can fail. -/
def prospect (decoder : Decoder) (source : Source) : Nat :=
  (decoder.outlook source.remaining).data.length + source.script.length

theorem Comes.prospect_lt {source left : Source} (comes : Comes want before pulls outcome after)
    (gives : Gives source pulls left) (asked : want ≠ 0) :
    after.prospect left < before.prospect source ∨ (after.outlook left.remaining).data = [] := by
  have step := comes.step left.remaining
  rw [← gives.joined] at step
  have lengths : (before.outlook source.remaining).data.length =
      (brought outcome).length + (after.outlook left.remaining).data.length := by
    rw [step, Outlook.prepend, List.length_append]
  have noLonger := gives.noLonger
  unfold prospect
  cases comes with
  | hands some' =>
      have positive := List.length_pos_iff.mpr some'
      rw [Channel.brought_ok] at lengths
      omega
  | buffers none' after_eq why =>
      rcases why with nothing | ended | ⟨⟨pull, member, vain⟩, ended⟩
      · exact absurd nothing asked
      · exact .inr (ended left.remaining)
      · rcases gives.shorter pull member vain with shorter | nothing
        · omega
        · rw [nothing]
          exact .inr ended

theorem decode_run (decoder : Decoder) (want : Nat) (source : Source) :
    ∃ pulls, Comes want decoder pulls ((decoder.decode want).run source).1.1
        ((decoder.decode want).run source).1.2 ∧
      Gives source pulls ((decoder.decode want).run source).2 := by
  rcases (decoder.decode want).run_goes source with ⟨pulls, goes, gives⟩
  exact ⟨pulls, decode_comes decoder goes, gives⟩

/-- Calls take what they hand out off the front of what is ahead, and nothing else. -/
theorem decodeAll_keeps (wants : List Nat) (decoder : Decoder) (source : Source) :
    let ran := (decoder.decodeAll wants).run source
    decoder.outlook source.remaining =
      (ran.1.2.outlook ran.2.remaining).prepend (handed ran.1.1) := by
  induction wants generalizing decoder source with
  | nil => rfl
  | cons want wants induction =>
      rcases decoder.decode_run want source with ⟨pulls, comes, gives⟩
      have first := comes.step ((decoder.decode want).run source).2.remaining
      have others := induction ((decoder.decode want).run source).1.2
        ((decoder.decode want).run source).2
      rw [← gives.joined, others, Outlook.prepend_prepend] at first
      simpa [decodeAll, Reading.map, Reading.run_bind, Reading.run, handed] using first

theorem decodeAll_finishes (wants : List Nat) (decoder : Decoder) (source : Source)
    (enough : decoder.prospect source ≤ (wants.filter (· ≠ 0)).length) :
    let ran := (decoder.decodeAll wants).run source
    (ran.1.2.outlook ran.2.remaining).data = [] := by
  induction wants generalizing decoder source with
  | nil =>
      refine List.eq_nil_of_length_eq_zero (Nat.eq_zero_of_le_zero ?_)
      exact Nat.le_trans (Nat.le_add_right ..) enough
  | cons want wants induction =>
      simp only [decodeAll, Reading.map, Reading.run_bind, Reading.run]
      by_cases asked : want = 0
      · subst asked
        rw [decode, if_pos rfl]
        exact induction decoder source (by simpa using enough)
      · rcases decoder.decode_run want source with ⟨pulls, comes, gives⟩
        rcases comes.prospect_lt gives asked with fewer | ended
        · rw [List.filter_cons_of_pos (by simpa using asked), List.length_cons] at enough
          exact induction _ _ (by omega)
        · rw [decodeAll_keeps wants] at ended
          exact (List.append_eq_nil_iff.mp ended).2

theorem decodeAll_signal (wants : List Nat) (decoder : Decoder) (source : Source) :
    ((decoder.decodeAll wants).run source).1.2.signal = decoder.signal := by
  induction wants generalizing decoder source with
  | nil => rfl
  | cons want wants induction =>
      rcases decoder.decode_run want source with ⟨pulls, comes, -⟩
      simp only [decodeAll, Reading.map, Reading.run_bind, Reading.run]
      rw [induction, comes.sameSignal]

theorem decodeAll_hands_all (signal : UInt8) (wants : List Nat) (source : Source)
    (enough : (expand (split signal source.remaining).frames).length + source.script.length ≤
      (wants.filter (· ≠ 0)).length) :
    handed (((new signal).decodeAll wants).run source).1.1 =
      expand (split signal source.remaining).frames := by
  have ended := decodeAll_finishes wants (new signal) source enough
  have whole := congrArg Outlook.data (decodeAll_keeps wants (new signal) source)
  rw [Outlook.prepend, ended, List.append_nil] at whole
  exact whole.symm

/-- Whatever its source does, a decoder neither loses nor repeats anything: what it handed out,
owes and has still to decode is the data of all the code, and a call that fails changes none
of it. So failures and early ends have no part in what is handed out in the end. -/
theorem decodeAll_loses_nothing (signal : UInt8) (wants : List Nat) (source : Source) :
    let ran := ((new signal).decodeAll wants).run source
    let after := ran.1.2
    ∃ frames front later laterFront,
      LongestFront signal source.remaining frames front ∧
      LongestFront signal (after.buffered ++ ran.2.remaining) later laterFront ∧
      handed ran.1.1 ++ List.replicate after.owed after.value ++ expand later = expand frames ∧
      after.consumed + after.buffered.length + ran.2.left = source.left ∧
      (∀ want failure refused left,
        (after.decode want).run ran.2 = ((.error failure, refused), left) →
          refused.value = after.value ∧ refused.owed = after.owed ∧
            refused.consumed = after.consumed) ∧
      ((expand frames).length + source.script.length ≤ (wants.filter (· ≠ 0)).length →
        handed ran.1.1 = expand frames ∧
          handed (((new signal).decodeAll wants).run source.cleaned).1.1 = handed ran.1.1) := by
  intro ran after
  rcases longestFront_split signal source.remaining with ⟨front, longest, -⟩
  rcases longestFront_split signal (after.buffered ++ ran.2.remaining) with
    ⟨laterFront, laterLongest, -⟩
  have kept := decodeAll_keeps wants (new signal) source
  have sameSignal : after.signal = signal := decodeAll_signal wants (new signal) source
  refine ⟨_, front, _, laterFront, longest, laterLongest, ?_, ?_, ?_, ?_⟩
  · have data : handed ran.1.1 ++ (List.replicate after.owed after.value ++
        expand (split after.signal (after.buffered ++ ran.2.remaining)).frames) =
          expand (split signal source.remaining).frames := (congrArg Outlook.data kept).symm
    rwa [sameSignal, ← List.append_assoc] at data
  · have size := congrArg Outlook.size kept
    rw [Source.left_eq, Source.left_eq]
    simp only [outlook, Outlook.prepend, new, List.length_nil, Nat.zero_add] at size
    exact size.symm
  · intro want failure refused left refuses
    rcases after.decode_run want ran.2 with ⟨pulls, comes, -⟩
    rw [refuses] at comes
    exact comes.unmoved
  · intro enough
    have whole := decodeAll_hands_all signal wants source enough
    refine ⟨whole, ?_⟩
    rw [whole, ← source.remaining_cleaned]
    apply decodeAll_hands_all
    rw [source.remaining_cleaned]
    exact Nat.le_trans (Nat.add_le_add_left source.length_cleaned_le _) enough

/-- A frame is cut by a failure and by an early end. -/
theorem decodeAll_loses_nothing_cut_frame :
    let source : Source := ⟨[.ok [0x41, 0xE2], .error (.bare .timedOut), .ok [], .ok [0x03],
      .error (.bare .interrupted), .ok [0x7A]]⟩
    let ran := ((new 0xE2).decodeAll (List.replicate 11 2)).run source
    ran.1.1.take 4 = [.ok [0x41], .error (.channel (.bare .timedOut)),
        .error (.fault (.truncated .indicator 1)), .ok [0x7A, 0x7A]] ∧
      handed ran.1.1 = [0x41, 0x7A, 0x7A, 0x7A] ∧
      handed (((new 0xE2).decodeAll (List.replicate 11 2)).run source.cleaned).1.1 =
        handed ran.1.1 := by
  intro source ran
  have cut : split 0xE2 source.remaining = ⟨[.literal 0x41, .run 0x7A 3], [], none⟩ := by cbv
  have first : ran.1.1.take 4 = [.ok [0x41], .error (.channel (.bare .timedOut)),
      .error (.fault (.truncated .indicator 1)), .ok [0x7A, 0x7A]] := by
    simp only [ran]
    cbv
  rcases decodeAll_loses_nothing 0xE2 (List.replicate 11 2) source with
    ⟨frames, front, later, laterFront, longest, -, -, -, -, all⟩
  have expansion : expand frames = [0x41, 0x7A, 0x7A, 0x7A] := by
    rw [longest.frames_eq, cut]
    rfl
  have calls : (expand frames).length + source.script.length ≤
      ((List.replicate 11 2).filter (· ≠ 0)).length := by
    rw [expansion]
    decide
  exact ⟨first, (all calls).1.trans expansion, (all calls).2⟩

end Decoder

end RunLength

end ByteStreams
