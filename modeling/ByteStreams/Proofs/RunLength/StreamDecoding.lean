import ByteStreams.Proofs.Channel.Faultless
import ByteStreams.Proofs.RunLength.Splitting
import ByteStreams.RunLength.Decoder
import Mathlib.Data.List.Forall2

/-! # The streaming decoder hands out what decoding the whole code gives

A decoder and the code that its source still has together have an outlook: the bytes
to be handed out, and what stops the code after them. Every call takes the bytes that
it hands out off the front of the outlook and leaves the rest of it as it was.
-/

namespace ByteStreams

namespace RunLength

open Channel (Reading Served Source)

/-! ## What lies ahead -/

structure Outlook where
  /-- The bytes that are still to be handed out. -/
  data : Bytes
  /-- The code after the last whole frame. -/
  rest : Bytes
  /-- What is wrong with the rest, if more bytes could not mend it. -/
  fault : Option Fault
  /-- How many bytes of code there are in all. -/
  size : Nat
deriving DecidableEq, Repr

namespace Outlook

def prepend (outlook : Outlook) (piece : Bytes) : Outlook :=
  { outlook with data := piece ++ outlook.data }

theorem prepend_prepend (outlook : Outlook) (later piece : Bytes) :
    (outlook.prepend later).prepend piece = outlook.prepend (piece ++ later) := by
  simp [prepend]

/-- What calls answer once no bytes are left to be handed out. -/
def ending (outlook : Outlook) : Except Failure Bytes :=
  match outlook.fault with
  | some fault => .error (.fault fault)
  | none =>
      if outlook.rest.isEmpty then
        .ok []
      else
        .error (.fault (.truncated (Frame.missingPart outlook.rest)
          (outlook.size - outlook.rest.length)))

@[simp] theorem ending_prepend (outlook : Outlook) (piece : Bytes) :
    (outlook.prepend piece).ending = outlook.ending := rfl

theorem ending_eq (outlook : Outlook) :
    outlook.ending = .ok [] ∨ ∃ failure, outlook.ending = .error failure := by
  unfold ending
  split
  · exact .inr ⟨_, rfl⟩
  · split
    · exact .inl rfl
    · exact .inr ⟨_, rfl⟩

theorem rest_of_ending {outlook : Outlook} (sound : outlook.ending = .ok []) :
    outlook.rest = [] := by
  unfold ending at sound
  cases flaw : outlook.fault with
  | some fault =>
      rw [flaw] at sound
      cases sound
  | none =>
      rw [flaw] at sound
      by_cases nothing : outlook.rest.isEmpty = true
      · exact List.isEmpty_iff.mp nothing
      · simp only at sound
        rw [if_neg nothing] at sound
        cases sound

end Outlook

namespace Decoder

/-- What a decoder has ahead of it when its source has `wire` to give. -/
def outlook (decoder : Decoder) (wire : Bytes) : Outlook :=
  let cut := split decoder.signal (decoder.buffered ++ wire)
  { data := List.replicate decoder.owed decoder.value ++ expand cut.frames
    rest := cut.rest
    fault := cut.fault
    size := decoder.consumed + decoder.buffered.length + wire.length }

theorem ending_outlook_new (signal : UInt8) (wire : Bytes) :
    ((new signal).outlook wire).ending =
      match RunLength.decode signal wire with
      | .ok _ => .ok []
      | .error fault => .error (.fault fault) := by
  unfold RunLength.decode Outlook.ending outlook new
  simp only [List.nil_append, List.length_nil, Nat.zero_add]
  cases (split signal wire).fault with
  | some fault => rfl
  | none =>
      simp only
      by_cases nothing : (split signal wire).rest.isEmpty = true
      · rw [if_pos nothing, if_pos nothing]
      · rw [if_neg nothing, if_neg nothing]

/-! ## Steps -/

theorem outlook_pay (decoder : Decoder) {count : Nat} (owes : count ≤ decoder.owed)
    (wire : Bytes) :
    decoder.outlook wire =
      ({ decoder with owed := decoder.owed - count }.outlook wire).prepend
        (List.replicate count decoder.value) := by
  simp only [outlook, Outlook.prepend, Outlook.mk.injEq, and_true]
  rw [← List.append_assoc, List.replicate_append_replicate, Nat.add_sub_cancel' owes]

theorem outlook_frame (decoder : Decoder) (pays : decoder.owed = 0) {frame : Frame} {size : Nat}
    {rest : Bytes}
    (whole : Frame.parse decoder.signal decoder.buffered = .frame frame size rest)
    (wire : Bytes) :
    decoder.outlook wire =
      ({ decoder with buffered := rest, consumed := decoder.consumed + size }.outlook
        wire).prepend frame.expand := by
  have lengths := (Frame.length_of_parse whole).2
  have later := split_of_frame (Frame.parse_append_of_frame whole wire)
  simp only [outlook, Outlook.prepend, Outlook.mk.injEq, later, pays, Split.frames_prepend,
    Split.rest_prepend, Split.fault_prepend, List.replicate_zero, List.nil_append,
    expand_append, expand_cons, expand_nil, List.append_nil, true_and]
  omega

theorem outlook_run (decoder : Decoder) (pays : decoder.owed = 0) {value : UInt8}
    {count size : Nat} {rest : Bytes}
    (whole : Frame.parse decoder.signal decoder.buffered =
      .frame (.run value count) size rest) (wire : Bytes) :
    decoder.outlook wire =
      { decoder with
          buffered := rest
          value := value
          owed := count
          consumed := decoder.consumed + size }.outlook wire := by
  rw [outlook_frame decoder pays whole wire]
  simp [outlook, Outlook.prepend, pays, Frame.expand]

theorem outlook_pull (decoder : Decoder) (piece rest : Bytes) :
    { decoder with buffered := decoder.buffered ++ piece }.outlook rest =
      decoder.outlook (piece ++ rest) := by
  simp only [outlook, List.append_assoc, List.length_append, Outlook.mk.injEq, true_and]
  omega

theorem outlook_malformed (decoder : Decoder) (pays : decoder.owed = 0) {fault : Fault}
    (refused : Frame.parse decoder.signal decoder.buffered = .malformed fault) (wire : Bytes) :
    (decoder.outlook wire).data = [] ∧
      (decoder.outlook wire).ending = .error (.fault fault) := by
  have cut := split_of_malformed (Frame.parse_append_of_malformed refused wire)
  simp [outlook, Outlook.ending, cut, pays]

theorem outlook_atEnd (decoder : Decoder) (pays : decoder.owed = 0)
    (unfinished : Frame.parse decoder.signal decoder.buffered = .incomplete) :
    (decoder.outlook []).data = [] ∧ (decoder.outlook []).ending = decoder.atEnd := by
  have cut := split_of_incomplete unfinished
  simp [outlook, Outlook.ending, cut, pays, atEnd]

/-! ## One call -/

def HasData (decoder : Decoder) : Prop :=
  0 < decoder.owed ∨
    ∃ frame size rest, Frame.parse decoder.signal decoder.buffered = .frame frame size rest

theorem drainAfter_spec (decoder : Decoder) (found : Bytes) (want : Nat) :
    ∃ piece after, decoder.drainAfter found want = (found.reverse ++ piece, after) ∧
      piece.length ≤ want ∧ (0 < want → decoder.HasData → piece ≠ []) ∧
      ∀ wire, decoder.outlook wire = (after.outlook wire).prepend piece := by
  induction decoder, found, want using drainAfter.induct with
  | case1 decoder found =>
      refine ⟨[], decoder, ?_, Nat.zero_le _, ?_, fun _ => rfl⟩
      · rw [drainAfter, List.append_nil]
        rfl
      · intro asked
        cases asked
  | case2 decoder found want asked owes count induction =>
      rcases induction with ⟨piece, after, run, fits, -, step⟩
      have countFits : count ≤ want := Nat.min_le_right ..
      have some' : 0 < count := Nat.lt_min.mpr ⟨owes, Nat.pos_of_ne_zero asked⟩
      refine ⟨List.replicate count decoder.value ++ piece, after, ?_, ?_, ?_, ?_⟩
      · rw [drainAfter, if_neg asked, if_pos owes, run]
        simp
      · rw [List.length_append, List.length_replicate]
        omega
      · intro _ _ nothing
        have none' := List.append_eq_nil_iff.mp nothing
        rw [List.replicate_eq_nil_iff] at none'
        omega
      · intro wire
        rw [outlook_pay decoder (Nat.min_le_left ..) wire, step, Outlook.prepend_prepend]
  | case3 decoder found want asked pays byte size rest whole induction =>
      rcases induction with ⟨piece, after, run, fits, -, step⟩
      refine ⟨byte :: piece, after, ?_, ?_, ?_, ?_⟩
      · rw [drainAfter, if_neg asked, if_neg pays]
        split <;> simp_all
      · rw [List.length_cons]
        omega
      · intro _ _ nothing
        cases nothing
      · intro wire
        rw [outlook_frame decoder (Nat.eq_zero_of_not_pos pays) whole wire, step,
          Outlook.prepend_prepend]
        rfl
  | case4 decoder found want asked pays value count size rest whole induction =>
      rcases induction with ⟨piece, after, run, fits, some', step⟩
      refine ⟨piece, after, ?_, fits, ?_, ?_⟩
      · rw [drainAfter, if_neg asked, if_neg pays]
        split <;> simp_all
      · intro _ _
        rcases Frame.spelled_of_parse whole with ⟨_, spelled, -, -⟩
        cases spelled with
        | run _ _ positive =>
            exact some' (Nat.pos_of_ne_zero asked) (.inl (Nat.pos_of_ne_zero positive))
      · intro wire
        rw [outlook_run decoder (Nat.eq_zero_of_not_pos pays) whole wire, step]
  | case5 decoder found want asked pays unfinished =>
      refine ⟨[], decoder, ?_, Nat.zero_le _, ?_, fun _ => rfl⟩
      · rw [drainAfter, if_neg asked, if_neg pays]
        split <;> simp_all
      · intro _ has
        rcases has with owes | ⟨frame, size, rest, whole⟩
        · exact absurd owes pays
        · rw [unfinished] at whole
          cases whole
  | case6 decoder found want asked pays fault refused =>
      refine ⟨[], decoder, ?_, Nat.zero_le _, ?_, fun _ => rfl⟩
      · rw [drainAfter, if_neg asked, if_neg pays]
        split <;> simp_all
      · intro _ has
        rcases has with owes | ⟨frame, size, rest, whole⟩
        · exact absurd owes pays
        · rw [refused] at whole
          cases whole

/-- What one call may come to, when the decoder had this ahead: it hands out the front of it,
or what is ahead is no data and the call answers that. -/
inductive Answers (want : Nat) (before after : Outlook) : Except Failure Bytes → Prop
  | hands {piece : Bytes} (some' : piece ≠ []) (fits : piece.length ≤ want)
      (step : before = after.prepend piece) : Answers want before after (.ok piece)
  | ends (none' : before.data = []) (same : after = before) :
      Answers want before after before.ending

theorem drain_answers (decoder : Decoder) {want : Nat} (asked : want ≠ 0)
    (has : decoder.HasData) (wire : Bytes) :
    Answers want (decoder.outlook wire) ((decoder.drain want).2.outlook wire)
      (decoder.drain want).1 := by
  rcases decoder.drainAfter_spec [] want with ⟨piece, after, run, fits, some', step⟩
  rw [drain, run]
  exact .hands (some' (Nat.pos_of_ne_zero asked) has) fits (step wire)

/-- However the source cuts the code, a call hands out bytes if there are any. -/
theorem decode_always (decoder : Decoder) {want : Nat} (asked : want ≠ 0) (wire : Bytes) :
    Reading.Always
      (fun result rest =>
        Answers want (decoder.outlook wire) (result.2.outlook rest) result.1)
      (decoder.decode want) wire := by
  induction decoder using decode.induct want generalizing wire with
  | case1 decoder none' => exact absurd none' asked
  | case2 decoder _ owes =>
      rw [decode, if_neg asked, if_pos owes]
      exact decoder.drain_answers asked (.inl owes) wire
  | case3 decoder _ pays frame size rest whole =>
      have answers := decoder.drain_answers asked (.inr ⟨frame, size, rest, whole⟩) wire
      rw [decode, if_neg asked, if_neg pays]
      split <;> simp_all [Reading.Always]
  | case4 decoder _ pays fault refused =>
      have ahead := decoder.outlook_malformed (Nat.eq_zero_of_not_pos pays) refused wire
      have ends : Answers want (decoder.outlook wire) (decoder.outlook wire)
          (decoder.outlook wire).ending := .ends ahead.1 rfl
      rw [ahead.2] at ends
      rw [decode, if_neg asked, if_neg pays]
      split <;> simp_all [Reading.Always]
  | case5 decoder _ pays unfinished induction =>
      have ahead := decoder.outlook_atEnd (Nat.eq_zero_of_not_pos pays) unfinished
      rw [decode, if_neg asked, if_neg pays]
      split
      · simp_all
      · simp_all
      · intro piece rest served
        cases piece with
        | nil =>
            rcases served.nothing rfl with none' | rfl
            · cases none'
            · rw [served.of_nil.2]
              have ends : Answers want (decoder.outlook []) (decoder.outlook [])
                  (decoder.outlook []).ending := .ends ahead.1 rfl
              rw [ahead.2] at ends
              exact ends
        | cons byte more =>
            have later := induction byte more rest
            rw [outlook_pull, ← served.joined] at later
            exact later

/-! ## Sequences of calls -/

def decodeAll (decoder : Decoder) :
    List Nat → Reading (List (Except Failure Bytes) × Decoder)
  | [] => .done ([], decoder)
  | want :: wants =>
      (decoder.decode want).bind fun (outcome, decoder) =>
        (decoder.decodeAll wants).map fun (outcomes, decoder) => (outcome :: outcomes, decoder)

/-- What calls come to, when the decoder had this ahead: the first hand out the front of it, the
others find no data and all answer that. -/
structure AnswersAll (wants : List Nat) (before after : Outlook)
    (outcomes : List (Except Failure Bytes)) (pieces : List Bytes) (last : Nat) : Prop where
  outcomes_eq : outcomes = pieces.map .ok ++ List.replicate last before.ending
  count_eq : pieces.length + last = wants.length
  some' : ∀ piece ∈ pieces, piece ≠ []
  fit : List.Forall₂ (fun piece want => piece.length ≤ want) pieces (wants.take pieces.length)
  step : before = after.prepend pieces.flatten
  none' : 0 < last → after.data = []

theorem Answers.andThen {want : Nat} {wants : List Nat} {before middle after : Outlook}
    {outcome : Except Failure Bytes} {outcomes : List (Except Failure Bytes)}
    (first : Answers want before middle outcome)
    (others : ∃ pieces last, AnswersAll wants middle after outcomes pieces last) :
    ∃ pieces last, AnswersAll (want :: wants) before after (outcome :: outcomes) pieces last := by
  rcases others with ⟨pieces, last, rfl, counts, some', fit, step, none'⟩
  cases first with
  | @hands piece someFirst fits firstStep =>
      refine ⟨piece :: pieces, last, ?_, ?_, ?_, ?_, ?_, none'⟩
      · rw [firstStep, Outlook.ending_prepend]
        rfl
      · rw [List.length_cons, List.length_cons, ← counts]
        omega
      · intro other member
        rcases List.mem_cons.mp member with rfl | later
        · exact someFirst
        · exact some' other later
      · exact .cons fits fit
      · rw [firstStep, step, Outlook.prepend_prepend, List.flatten_cons]
  | ends noneFirst same =>
      subst same
      have empty : pieces.flatten = [] := by
        rw [step] at noneFirst
        exact (List.append_eq_nil_iff.mp noneFirst).1
      have noPieces : pieces = [] := by
        cases pieces with
        | nil => rfl
        | cons piece pieces =>
            exact absurd (List.append_eq_nil_iff.mp empty).1 (some' piece (List.mem_cons_self ..))
      subst noPieces
      refine ⟨[], last + 1, ?_, ?_, some', .nil, step, ?_⟩
      · rfl
      · rw [List.length_cons, ← counts]
        simp
      · intro _
        rw [step] at noneFirst
        exact noneFirst

theorem decodeAll_always (wants : List Nat) (asked : ∀ want ∈ wants, want ≠ 0)
    (decoder : Decoder) (wire : Bytes) :
    Reading.Always
      (fun result rest =>
        ∃ pieces last,
          AnswersAll wants (decoder.outlook wire) (result.2.outlook rest) result.1 pieces last)
      (decoder.decodeAll wants) wire := by
  induction wants generalizing decoder wire with
  | nil =>
      refine ⟨[], 0, rfl, rfl, ?_, .nil, rfl, ?_⟩
      · intro piece member
        cases member
      · intro none'
        cases none'
  | cons want wants induction =>
      have first := decoder.decode_always (asked want (List.mem_cons_self ..)) wire
      apply first.bind
      intro result rest answers
      have others := induction (fun other member => asked other (List.mem_cons_of_mem _ member))
        result.2 rest
      apply others.map
      intro later left answersAll
      exact answers.andThen answersAll

/-! ## All the code -/

theorem consumed_add_rest (decoder : Decoder) (wire : Bytes)
    (none' : (decoder.outlook wire).data = []) :
    decoder.consumed + (decoder.outlook wire).rest.length = (decoder.outlook wire).size := by
  rcases spells_split decoder.signal (decoder.buffered ++ wire) with ⟨whole, spells, joined⟩
  have nothing := spells.eq_nil_of_expand (List.append_eq_nil_iff.mp none').2
  have lengths := congrArg List.length joined
  rw [nothing, List.nil_append, List.length_append] at lengths
  simp only [outlook]
  omega

theorem consumed_of_ends (decoder : Decoder) (wire : Bytes)
    (none' : (decoder.outlook wire).data = []) (sound : (decoder.outlook wire).ending = .ok []) :
    wire = [] ∧ decoder.consumed = (decoder.outlook wire).size := by
  have consumed := decoder.consumed_add_rest wire none'
  have nothing := Outlook.rest_of_ending sound
  rw [nothing, List.length_nil, Nat.add_zero] at consumed
  refine ⟨List.eq_nil_of_length_eq_zero ?_, consumed⟩
  simp only [outlook] at consumed
  omega

theorem length_le_length_flatten {pieces : List Bytes}
    (some' : ∀ piece ∈ pieces, piece ≠ []) : pieces.length ≤ pieces.flatten.length := by
  induction pieces with
  | nil => exact Nat.le_refl _
  | cons piece pieces induction =>
      have first := List.length_pos_iff.mpr (some' piece (List.mem_cons_self ..))
      have others := induction fun other member => some' other (List.mem_cons_of_mem _ member)
      rw [List.length_cons, List.flatten_cons, List.length_append]
      omega

/-- Any calls on a faultless source hand out a front of what the longest front of whole frames
stands for, and once all of it is handed out every call answers what decoding all the code
comes to. -/
theorem decodeAll_decodes (signal : UInt8) (wants : List Nat)
    (asked : ∀ want ∈ wants, want ≠ 0) {source : Source} (faultless : source.Faultless) :
    ∃ frames front pieces last ending after left,
      LongestFront signal source.remaining frames front ∧
      ((new signal).decodeAll wants).run source =
        ((pieces.map .ok ++ List.replicate last ending, after), left) ∧
      pieces.length + last = wants.length ∧
      (∀ piece ∈ pieces, piece ≠ []) ∧
      List.Forall₂ (fun piece want => piece.length ≤ want) pieces
        (wants.take pieces.length) ∧
      pieces.flatten <+: expand frames ∧
      (0 < last → pieces.flatten = expand frames) ∧
      ((expand frames).length < wants.length → 0 < last) ∧
      match RunLength.decode signal source.remaining with
      | .ok data =>
          ending = .ok [] ∧ expand frames = data ∧
            (0 < last → after.consumed = source.remaining.length)
      | .error fault => ending = .error (.fault fault) := by
  rcases longestFront_split signal source.remaining with ⟨front, longest, -⟩
  have answers := ((decodeAll_always wants asked (new signal) source.remaining).run faultless).1
  rcases ran : ((new signal).decodeAll wants).run source with ⟨⟨outcomes, after⟩, left⟩
  rw [ran] at answers
  rcases answers with ⟨pieces, last, rfl, counts, some', fit, step, none'⟩
  have whole : expand (split signal source.remaining).frames =
      pieces.flatten ++ (after.outlook left.remaining).data := congrArg Outlook.data step
  refine ⟨_, front, pieces, last, _, after, left, longest, rfl, counts, some', fit,
    ⟨_, whole.symm⟩, ?_, ?_, ?_⟩
  · intro ends
    rw [whole, none' ends, List.append_nil]
  · intro many
    have few := length_le_length_flatten some'
    have lengths := congrArg List.length whole
    rw [List.length_append] at lengths
    omega
  · have ending := ending_outlook_new signal source.remaining
    cases decoded : RunLength.decode signal source.remaining with
    | error fault =>
        rw [decoded] at ending
        exact ending
    | ok data =>
        rw [decoded] at ending
        refine ⟨ending, (decode_eq_ok_iff.mp decoded).2.2, ?_⟩
        intro ends
        have sound := ending
        rw [step, Outlook.ending_prepend] at sound
        have size : 0 + 0 + source.remaining.length = (after.outlook left.remaining).size :=
          congrArg Outlook.size step
        rw [(after.consumed_of_ends left.remaining (none' ends) sound).2, ← size]
        simp only [Nat.zero_add]

/-- A run is cut by the source, by an interruption and by the calls. -/
theorem decodeAll_decodes_interrupted :
    ∃ (pieces : List Bytes) (last : Nat) (after : Decoder) (left : Source),
      ((new 0xE2).decodeAll [2, 1, 2, 2, 2, 2]).run
          ⟨[.ok [0x41, 0xE2], .error (.bare .interrupted), .ok [0x03], .ok [0x7A]]⟩ =
        ((pieces.map .ok ++ List.replicate last (.ok []), after), left) ∧
      0 < last ∧ pieces.flatten = [0x41, 0x7A, 0x7A, 0x7A] ∧ after.consumed = 4 := by
  have faultless : Source.Faultless
      ⟨[.ok [0x41, 0xE2], .error (.bare .interrupted), .ok [0x03], .ok [0x7A]]⟩ := by
    simp [Source.Faultless, Channel.Failure.isInterruption, Channel.Failure.kind]
  rcases decodeAll_decodes 0xE2 [2, 1, 2, 2, 2, 2] (by simp) faultless with
    ⟨frames, front, pieces, last, ending, after, left, -, ran, -, -, -, -, whole, ends, comes⟩
  have decoded : RunLength.decode 0xE2 [0x41, 0xE2, 0x03, 0x7A] =
      .ok [0x41, 0x7A, 0x7A, 0x7A] := by cbv
  have code : Source.remaining
      ⟨[.ok [0x41, 0xE2], .error (.bare .interrupted), .ok [0x03], .ok [0x7A]]⟩ =
        [0x41, 0xE2, 0x03, 0x7A] := rfl
  rw [code, decoded] at comes
  rcases comes with ⟨rfl, expansion, consumed⟩
  have some' : 0 < last := ends (by rw [expansion]; decide)
  exact ⟨pieces, last, after, left, ran, some', (whole some').trans expansion, consumed some'⟩

end Decoder

end RunLength

end ByteStreams
