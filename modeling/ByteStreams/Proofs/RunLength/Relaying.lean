import ByteStreams.Proofs.RunLength.StreamDecoding
import ByteStreams.Proofs.RunLength.StreamEncoding

/-! # Programs over the run-length layer

A program that puts data into an encoder puts code for it into the sink below, and a
program that reads data from a decoder reads code of it from the source below. Neither
can tell how the code is cut.
-/

namespace ByteStreams

namespace RunLength

open Channel (Reading Served Writing)

/-! ## Writing -/

/-- The code stands for the data, but for what an encoder holds back. -/
def Carried (signal : UInt8) (data code : Bytes) (pending : Pending) : Prop :=
  ∃ frames whole begun front, Spells signal frames whole ∧ data = expand frames ++ begun ∧
    code = whole ++ front ∧ Pending.Passes signal .idle begun front pending

theorem carried_nil (signal : UInt8) : Carried signal [] [] .idle :=
  ⟨[], [], [], [], .nil, rfl, rfl, .refl signal .idle⟩

theorem Carried.pass {signal : UInt8} {data code given more : Bytes} {before after : Pending}
    (carried : Carried signal data code before)
    (passes : Pending.Passes signal before given more after) :
    Carried signal (data ++ given) (code ++ more) after := by
  rcases carried with ⟨frames, whole, begun, front, spells, rfl, rfl, passed⟩
  exact ⟨frames, whole, begun ++ given, front ++ more, spells, List.append_assoc ..,
    List.append_assoc .., passed.trans passes⟩

theorem Carried.spells {signal : UInt8} {data code : Bytes} {pending : Pending}
    (carried : Carried signal data code pending) :
    ∃ frames, Spells signal frames (code ++ encode signal pending.data) ∧
      expand frames = data := by
  rcases carried with ⟨frames, whole, begun, front, spells, rfl, rfl, passed⟩
  rcases encode_spells signal begun with ⟨others, otherSpells, expansion⟩
  have code := passed.law []
  simp only [List.append_nil] at code
  refine ⟨frames ++ others, ?_, by rw [expand_append, expansion]⟩
  rw [List.append_assoc, ← code]
  exact spells.append otherSpells

theorem Carried.expansion {signal : UInt8} {data code : Bytes} {pending : Pending}
    (carried : Carried signal data code pending) :
    ∃ frames, Spells signal frames code ∧ data = expand frames ++ pending.data := by
  rcases carried with ⟨frames, whole, begun, front, spells, rfl, rfl, passed⟩
  rcases passed.expansion with ⟨others, otherSpells, expansion⟩
  have split : begun = expand others ++ pending.data := expansion
  exact ⟨frames ++ others, spells.append otherSpells, by
    rw [split, expand_append, List.append_assoc]⟩

theorem Carried.flush {signal : UInt8} {data code : Bytes} {pending : Pending}
    (carried : Carried signal data code pending) :
    Carried signal data (code ++ encode signal pending.data) .idle := by
  rcases carried.spells with ⟨frames, spells, expansion⟩
  exact ⟨frames, _, [], [], spells, by rw [expansion, List.append_nil],
    (List.append_nil _).symm, .refl signal .idle⟩

/-- What a program puts into an encoder goes to the sink as code, or is held back. -/
theorem Encoder.relay_puts {α : Type} {program : Writing α} {given : Bytes} {result : α}
    (puts : program.Puts given result) {encoder : Encoder} (ready : encoder.Ready)
    {data code : Bytes} (carried : Carried encoder.signal data code encoder.pending) :
    ∃ pending more,
      (encoder.relay program).Puts more (result, encoder.withPending pending) ∧
      pending.Fits ∧ Carried encoder.signal (data ++ given) (code ++ more) pending := by
  induction puts generalizing encoder data code with
  | done result =>
      refine ⟨encoder.pending, [], .done _, ready.fits, ?_⟩
      rwa [List.append_nil, List.append_nil]
  | @writeAll piece bytes next result others induction =>
      rw [relay]
      split
      · -- An empty write does not reach the encoder.
        rename_i nothing
        rw [List.isEmpty_iff] at nothing
        subst nothing
        exact induction ready carried
      · rcases ready.encode_puts piece with ⟨middle, first, firstPuts, fits, passes⟩
        rcases induction (ready.withPending fits) (carried.pass passes) with
          ⟨pending, later, laterPuts, pendingFits, laterCarried⟩
        refine ⟨pending, first ++ later, firstPuts.bind laterPuts, pendingFits, ?_⟩
        rwa [← List.append_assoc, ← List.append_assoc]
  | @settle bytes next result others induction =>
      have idle : (encoder.withPending .idle).Ready := ready.withPending trivial
      rcases induction idle carried.flush with
        ⟨pending, later, laterPuts, pendingFits, laterCarried⟩
      refine ⟨pending, _, ready.flush_puts.bind laterPuts, pendingFits, ?_⟩
      rwa [← List.append_assoc]

/-! ## Reading -/

theorem Decoder.outlook_new_of_spells {signal : UInt8} {frames : List Frame} {code : Bytes}
    (spells : Spells signal frames code) :
    (new signal).outlook code = ⟨expand frames, [], none, code.length⟩ := by
  simp [outlook, new, spells.split_eq]

theorem Decoder.decode_served (decoder : Decoder) (limit : Nat) {wire : Bytes} {ahead : Outlook}
    (sees : decoder.outlook wire = ahead) (sound : ahead.ending = .ok []) :
    Reading.Always
      (fun result rest =>
        ∃ piece, result.1 = .ok piece ∧
          Served limit ahead.data piece (result.2.outlook rest).data ∧
          ahead = (result.2.outlook rest).prepend piece)
      (decoder.decode limit) wire := by
  subst sees
  by_cases none' : limit = 0
  · rw [decode, if_pos none']
    exact ⟨[], rfl, ⟨rfl, Nat.zero_le _, fun _ => .inl none'⟩, rfl⟩
  · apply (decoder.decode_always none' wire).mono
    rintro ⟨outcome, after⟩ rest answers
    cases answers with
    | @hands piece some' fits step =>
        refine ⟨piece, rfl, ⟨congrArg Outlook.data step, fits, ?_⟩, step⟩
        intro nothing
        exact absurd nothing some'
    | ends nothing same =>
        refine ⟨[], sound, ?_, same.symm⟩
        rw [same]
        exact ⟨rfl, Nat.zero_le _, fun _ => .inr nothing⟩

def Decoder.Leaves {α : Type} (after : α → Bytes → Prop) (ahead : Outlook)
    (result : α × Decoder) (rest : Bytes) : Prop :=
  after result.1 (result.2.outlook rest).data ∧
    ∃ given, ahead = (result.2.outlook rest).prepend given

theorem Decoder.Leaves.sound {α : Type} {after : α → Bytes → Prop} {ahead : Outlook}
    {result : α × Decoder} {rest : Bytes} (leaves : Leaves after ahead result rest)
    (sound : ahead.ending = .ok []) : (result.2.outlook rest).ending = .ok [] := by
  rcases leaves with ⟨-, given, rfl⟩
  exact sound

private theorem Decoder.relay_call {α : Type} {after : α → Bytes → Prop} {limit : Nat}
    {next : Except Channel.Failure Bytes → Reading α} {decoder : Decoder} {wire : Bytes}
    {ahead : Outlook} (sees : decoder.outlook wire = ahead) (sound : ahead.ending = .ok [])
    (later : ∀ piece (decoder : Decoder) rest, (decoder.outlook rest).ending = .ok [] →
      Served limit ahead.data piece (decoder.outlook rest).data →
      Reading.Always (Leaves after (decoder.outlook rest))
        (decoder.relay (next (.ok piece))) rest) :
    Reading.Always (Leaves after ahead)
      ((decoder.decode limit).bind fun (outcome, decoder) =>
        relay (next (outcome.mapError Failure.toChannel)) decoder) wire := by
  apply (decoder.decode_served limit sees sound).bind
  rintro ⟨outcome, middle⟩ rest ⟨piece, rfl, served, step⟩
  have middleSound : (middle.outlook rest).ending = .ok [] := by
    rw [step] at sound
    exact sound
  apply (later piece middle rest middleSound served).mono
  rintro result left ⟨holds, given, same⟩
  refine ⟨holds, piece ++ given, ?_⟩
  rw [step, same, Outlook.prepend_prepend]

/-- A program that reads the data which a decoder has ahead of it ends the same way when it
reads through the decoder, and finds the rest of the data ahead. -/
theorem Decoder.relay_always {α : Type} {after : α → Bytes → Prop} {program : Reading α}
    {decoder : Decoder} {wire : Bytes} {ahead : Outlook} (sees : decoder.outlook wire = ahead)
    (sound : ahead.ending = .ok []) (always : Reading.Always after program ahead.data) :
    Reading.Always (Leaves after ahead) (decoder.relay program) wire := by
  induction program generalizing decoder wire ahead with
  | done result =>
      subst sees
      exact ⟨always, [], rfl⟩
  | pull limit next induction =>
      apply Decoder.relay_call sees sound
      intro piece middle rest middleSound served
      exact induction (.ok piece) rfl middleSound (always piece _ served)
  | read limit next induction =>
      apply Decoder.relay_call sees sound
      intro piece middle rest middleSound served
      exact induction (.ok piece) rfl middleSound (always.1 piece _ served)

end RunLength

end ByteStreams
