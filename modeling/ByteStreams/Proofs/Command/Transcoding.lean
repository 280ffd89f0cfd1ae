import ByteStreams.Command.Codec
import ByteStreams.Proofs.RunLength.Grammar
import ByteStreams.Proofs.RunLength.StreamDecoding
import ByteStreams.Proofs.RunLength.StreamEncoding

/-! # The codec on channels that do not fail

The commands take their input piece by piece. Neither the pieces nor the way the source cuts
them can be told from what comes out: it is what encoding or decoding the whole input gives.
-/

namespace ByteStreams

namespace Command

open Channel (Sink Source)
open RunLength (Decoder Encoder Outlook expand split)

theorem pieceSize_ne_zero : pieceSize ≠ 0 := by
  decide

/-! ## Encoding -/

section Encoding

variable {encoder : Encoder} {taken : Nat} {source rest : Source} {sink : Sink}

private theorem encodeFrom_of_end (pulled : source.pull pieceSize = (.ok [], rest)) :
    encodeFrom encoder taken source sink =
      match encoder.finish.run sink with
      | (.error failure, sink) => (.error (.ofRunLength "encode failed" failure), sink)
      | (.ok (), sink) => (.ok ⟨taken, sink.count⟩, sink) := by
  rw [encodeFrom]
  split
  · simp_all
  · rfl
  · simp_all

private theorem encodeFrom_of_piece {after : Encoder} {middle : Sink} {piece : Bytes}
    (some' : piece ≠ []) (pulled : source.pull pieceSize = (.ok piece, rest))
    (ran : (encoder.encode piece).run sink = ((.ok (), after), middle)) :
    encodeFrom encoder taken source sink = encodeFrom after (taken + piece.length) rest middle := by
  cases piece with
  | nil => exact absurd rfl some'
  | cons byte more =>
      rw [encodeFrom]
      split <;> simp_all

theorem encodeFrom_faultless (ready : encoder.Ready) (taken : Nat) (gives : source.Faultless)
    (takes : sink.Faultless) :
    ∃ after,
      encodeFrom encoder taken source sink =
        (.ok ⟨taken + source.remaining.length, after.count⟩, after) ∧
      after.accepted = sink.accepted ++
        RunLength.encode encoder.signal (encoder.pending.data ++ source.remaining) := by
  -- The recursion is on the source, which gives at least a byte at every turn.
  induction left : source.remaining.length using Nat.strongRecOn
    generalizing encoder taken source sink with
  | ind size induction =>
      rcases gives.pull pieceSize with ⟨piece, rest, pulled, served, restGives⟩
      by_cases ended : piece = []
      · subst ended
        have nothing := (served.nothing rfl).resolve_left pieceSize_ne_zero
        rcases ready.finish_puts.run takes with ⟨after, run, -, accepted⟩
        refine ⟨after, ?_, ?_⟩
        · rw [encodeFrom_of_end pulled, run, ← left, nothing]
          rfl
        · rw [accepted, nothing, List.append_nil]
      · rcases ready.encode_puts piece with ⟨pending, code, puts, fits, passes⟩
        rcases puts.run takes with ⟨middle, run, middleTakes, accepted⟩
        have positive := List.length_pos_iff.mpr ended
        have lengths := congrArg List.length served.joined
        rw [List.length_append] at lengths
        rcases induction rest.remaining.length (by omega) (ready.withPending fits)
          (taken + piece.length) restGives middleTakes rfl with ⟨after, others, whole⟩
        refine ⟨after, ?_, ?_⟩
        · rw [encodeFrom_of_piece ended pulled run, others, ← left, lengths, Nat.add_assoc]
        · rw [whole, accepted, served.joined, ← List.append_assoc encoder.pending.data, passes.law,
            List.append_assoc]
          rfl

end Encoding

/-! ## Decoding -/

section Decoding

variable {decoder after : Decoder} {given : Nat} {source rest : Source} {sink : Sink}

private theorem decodeFrom_of_end
    (ran : (decoder.decode pieceSize).run source = ((.ok [], after), rest)) :
    decodeFrom decoder given source sink =
      match sink.flush with
      | (.error failure, sink) => (.error (.ofChannel "write failed" failure), sink)
      | (.ok (), sink) => (.ok ⟨after.consumed, given⟩, sink) := by
  rw [decodeFrom]
  split
  · simp_all
  · rename_i same
    cases ran.symm.trans same
    rfl
  · simp_all

private theorem decodeFrom_of_failure {failure : RunLength.Failure}
    (ran : (decoder.decode pieceSize).run source = ((.error failure, after), rest)) :
    decodeFrom decoder given source sink =
      (.error (.ofRunLength "decode failed" failure), sink.flush.2) := by
  rw [decodeFrom]
  split <;> simp_all

private theorem decodeFrom_of_piece {middle : Sink} {piece : Bytes} (some' : piece ≠ [])
    (ran : (decoder.decode pieceSize).run source = ((.ok piece, after), rest))
    (wrote : sink.writeAll piece = (.ok (), middle)) :
    decodeFrom decoder given source sink = decodeFrom after (given + piece.length) rest middle := by
  cases piece with
  | nil => exact absurd rfl some'
  | cons byte more =>
      rw [decodeFrom]
      split <;> simp_all

def tallyAhead (given : Nat) (ahead : Outlook) : Except Refusal Tally :=
  match ahead.ending with
  | .ok _ => .ok ⟨ahead.size, given + ahead.data.length⟩
  | .error failure => .error (.ofRunLength "decode failed" failure)

theorem tallyAhead_prepend (given : Nat) (ahead : Outlook) (piece : Bytes) :
    tallyAhead given (ahead.prepend piece) = tallyAhead (given + piece.length) ahead := by
  unfold tallyAhead
  rw [Outlook.ending_prepend]
  simp [Outlook.prepend, Nat.add_assoc]

theorem decodeFrom_faultless (decoder : Decoder) (given : Nat) (gives : source.Faultless)
    (takes : sink.Compliant) :
    ∃ after,
      decodeFrom decoder given source sink =
        (tallyAhead given (decoder.outlook source.remaining), after) ∧
      after.accepted = sink.accepted ++ (decoder.outlook source.remaining).data := by
  -- The recursion is on the bytes ahead, of which every turn hands out some.
  induction ahead : (decoder.outlook source.remaining).data.length using Nat.strongRecOn
    generalizing decoder given source sink with
  | ind size induction =>
      have called := (decoder.decode_always pieceSize_ne_zero source.remaining).run gives
      rcases ran : (decoder.decode pieceSize).run source with ⟨⟨outcome, middle⟩, rest⟩
      rw [ran] at called
      rcases called with ⟨answers, restGives⟩
      simp only at answers restGives
      generalize decoder.outlook source.remaining = before at answers ahead ⊢
      cases answers with
      | @hands piece some' fits step =>
          rcases takes.writeAll some' with ⟨written, wrote, writtenTakes, accepted⟩
          have fewer : (middle.outlook rest.remaining).data.length < size := by
            have positive := List.length_pos_iff.mpr some'
            rw [← ahead, step, Outlook.prepend, List.length_append]
            omega
          rcases induction _ fewer middle (given + piece.length) restGives writtenTakes rfl with
            ⟨after, others, whole⟩
          refine ⟨after, ?_, ?_⟩
          · rw [decodeFrom_of_piece some' ran wrote, others, step, tallyAhead_prepend]
          · rw [whole, accepted, step, List.append_assoc]
            rfl
      | ends none' same =>
          rw [none', List.append_nil]
          rcases takes.flush with ⟨flushed, passed, accepted⟩
          refine ⟨flushed, ?_, accepted⟩
          rcases before.ending_eq with ending | ⟨failure, ending⟩
          · have consumed : middle.consumed = before.size := by
              rw [← same] at none' ending ⊢
              exact (middle.consumed_of_ends rest.remaining none' ending).2
            rw [ending] at ran
            rw [decodeFrom_of_end ran, passed]
            simp [tallyAhead, ending, none', consumed]
          · rw [ending] at ran
            rw [decodeFrom_of_failure ran, passed]
            simp [tallyAhead, ending]

end Decoding

/-! ## Both directions -/

def Direction.written (direction : Direction) (signal : UInt8) (data : Bytes) : Bytes :=
  match direction with
  | .encode => RunLength.encode signal data
  | .decode => expand (split signal data).frames

def Direction.outcome (direction : Direction) (signal : UInt8) (data : Bytes) :
    Except Refusal Tally :=
  match direction with
  | .encode => .ok ⟨data.length, (RunLength.encode signal data).length⟩
  | .decode =>
      match RunLength.decode signal data with
      | .ok decoded => .ok ⟨data.length, decoded.length⟩
      | .error fault => .error ⟨.dataInvalid, "decode failed: " ++ fault.message⟩

theorem refusal_of_decode {signal : UInt8} {data : Bytes} {fault : RunLength.Fault}
    (refused : RunLength.decode signal data = .error fault) :
    Refusal.ofRunLength "decode failed" (.fault fault) =
      ⟨.dataInvalid, "decode failed: " ++ fault.message⟩ := by
  rcases RunLength.exists_factors signal data with ⟨parts, rest, factors⟩
  cases factors.decode_error_iff.mp refused <;> rfl

theorem tallyAhead_new (signal : UInt8) (data : Bytes) :
    tallyAhead 0 ((Decoder.new signal).outlook data) = Direction.outcome .decode signal data := by
  have ending := Decoder.ending_outlook_new signal data
  simp only [tallyAhead, Direction.outcome]
  cases decoded : RunLength.decode signal data with
  | ok whole =>
      rw [decoded] at ending
      have expansion := (RunLength.decode_eq_ok_iff.mp decoded).2.2
      simp only [ending]
      simp [Decoder.outlook, Decoder.new, expansion]
  | error fault =>
      rw [decoded] at ending
      simp only [ending]
      rw [refusal_of_decode decoded]

/-- However its source cuts the input, the codec puts out what it should. -/
theorem transcode_faultless (direction : Direction) (signal : UInt8) {source : Source}
    (gives : source.Faultless) :
    ∃ sink,
      direction.transcode signal source .accepting =
        (direction.outcome signal source.remaining, sink) ∧
      sink.accepted = direction.written signal source.remaining := by
  cases direction with
  | encode =>
      rcases encodeFrom_faultless (Encoder.ready_new signal) 0 gives
        Sink.Compliant.accepting.faultless with ⟨sink, run, accepted⟩
      have written : sink.accepted = RunLength.encode signal source.remaining := accepted
      refine ⟨sink, ?_, written⟩
      rw [Direction.transcode, run, sink.count_eq, written, Nat.zero_add]
      rfl
  | decode =>
      rcases decodeFrom_faultless (.new signal) 0 gives Sink.Compliant.accepting with
        ⟨sink, run, accepted⟩
      refine ⟨sink, ?_, accepted⟩
      rw [Direction.transcode, run, tallyAhead_new]

end Command

end ByteStreams
