import ByteStreams.Proofs.RunLength.FailingSinks
import ByteStreams.Proofs.RunLength.FailingSources

/-! # Programs over the run-length layer on channels that fail

A failure of the sink below reaches the program that writes through an encoder. A program that
reads through a decoder goes down a branch of its own tree, and what it pulled there is what
the decoder handed out of the code that it pulled itself.
-/

namespace ByteStreams

namespace RunLength

open Channel (Pull Reading Writing brought pulled)
open Channel.Writing (Dooms Puts Yields dooms_of_all)

variable {α β : Type}

/-! ## Writing -/

namespace Encoder

theorem relay_bind (program : Writing α) (andThen : α → Writing β) (encoder : Encoder) :
    encoder.relay (program.bind andThen) =
      (encoder.relay program).bind fun (result, after) => after.relay (andThen result) := by
  induction program generalizing encoder with
  | done result => rfl
  | write data next induction => simp only [Writing.bind, relay, Writing.bind_bind, induction]
  | writeAll data next induction =>
      simp only [Writing.bind, relay]
      split
      · exact induction _ encoder
      · simp only [Writing.bind_bind, induction]
  | flush next induction => simp only [Writing.bind, relay, Writing.bind_bind, induction]
  | settle next induction => simp only [Writing.bind, relay, Writing.bind_bind, induction]
  | release next induction => simp only [Writing.bind, relay, Writing.bind_bind, induction]

theorem relay_dooms {bad : α → Prop} {program : Writing α} (dooms : program.Dooms bad)
    (encoder : Encoder) : (encoder.relay program).Dooms fun result => bad result.1 := by
  -- Whatever the encoder's own calls come to, the program is doomed after them.
  have anyway {γ : Type} (first : Writing γ) {andThen : γ → Writing (α × Encoder)}
      (second : ∀ result, (andThen result).Dooms fun result => bad result.1) :
      (first.bind andThen).Dooms fun result => bad result.1 :=
    (dooms_of_all (fun _ => trivial) first).bind fun result _ => second result
  induction program generalizing encoder with
  | done result => exact dooms
  | write data next induction => exact anyway _ fun _ => induction _ (dooms _) _
  | writeAll data next induction =>
      rw [relay]
      split
      · exact induction _ (dooms _) encoder
      · exact anyway _ fun _ => induction _ (dooms _) _
  | flush next induction => exact anyway _ fun _ => induction _ (dooms _) _
  | settle next induction => exact anyway _ fun _ => induction _ (dooms _) _
  | release next induction => exact anyway _ fun _ => induction dooms _

theorem Ready.relay_yields {bad : α → Prop} {program : Writing α} {bytes : Bytes} {result : α}
    {encoder : Encoder} (ready : encoder.Ready) (yields : program.Yields (Dooms bad))
    (puts : program.Puts bytes result) :
    (encoder.relay program).Yields (Dooms fun result => bad result.1) := by
  -- An operation of the encoder that fails tells the program of it.
  have passes {next : Except Channel.Failure Unit → Writing α}
      (fails : ∀ failure, (next (.error failure)).Dooms bad)
      (failed : Writing (Except Failure Unit × Encoder))
      (quits : failed.Quits fun result => bySink result.1 = true) :
      (failed.bind fun result => result.2.relay (next (answer result.1))).Dooms
        fun result => bad result.1 := by
    apply quits.dooms.bind
    rintro ⟨failed, after⟩ reported
    rcases failed with (_ | failure) | _
    · cases reported
    · exact relay_dooms (fails failure) after
    · cases reported
  induction puts generalizing encoder with
  | done result => exact .done _
  | @writeAll data bytes next result others induction =>
      cases yields with
      | writeAll yieldsOthers fails =>
          rw [relay]
          split
          · exact induction ready yieldsOthers
          · rcases ready.encode_puts data with ⟨pending, code, encoded, fits, -⟩
            exact (ready.encode_yields data).bind encoded (passes fails)
              (induction (ready.withPending fits) yieldsOthers)
  | settle others induction =>
      cases yields with
      | settle yieldsOthers fails =>
          exact ready.flush_yields.bind ready.flush_puts (passes fails)
            (induction (ready.withPending trivial) yieldsOthers)

end Encoder

/-! ## Reading -/

namespace Decoder

theorem brought_mapError {ε δ : Type} (answer : Except ε Bytes) (change : ε → δ) :
    brought (answer.mapError change) = brought answer := by
  cases answer <;> rfl

/-- Calls of a decoder one after another, and what it pulls in the course of them. -/
inductive Serves : Decoder → List Pull → List Pull → Decoder → Prop
  | nil (decoder : Decoder) : Serves decoder [] [] decoder
  | cons {decoder middle after : Decoder} {limit : Nat} {upper first later : List Pull}
      {outcome : Except Failure Bytes}
      (call : (decoder.decode limit).Goes first (outcome, middle))
      (others : Serves middle upper later after) :
      Serves decoder (⟨limit, outcome.mapError Failure.toChannel⟩ :: upper) (first ++ later) after

/-- A program over a decoder goes down a branch of its own, and what it pulls there are calls of
the decoder. -/
theorem relay_serves {program : Reading α} {decoder after : Decoder} {pulls : List Pull}
    {result : α} (goes : (decoder.relay program).Goes pulls (result, after)) :
    ∃ upper, program.Goes upper result ∧ Serves decoder upper pulls after := by
  induction program generalizing decoder pulls with
  | done result =>
      cases goes
      exact ⟨[], .done result, .nil _⟩
  | read limit next induction =>
      rcases goes.of_bind with ⟨first, ⟨outcome, middle⟩, others, rfl, call, othersGo⟩
      rcases induction _ othersGo with ⟨upper, upperGoes, serves⟩
      exact ⟨_, .read _ upperGoes, .cons call serves⟩
  | pull limit next induction =>
      rcases goes.of_bind with ⟨first, ⟨outcome, middle⟩, others, rfl, call, othersGo⟩
      rcases induction _ othersGo with ⟨upper, upperGoes, serves⟩
      exact ⟨_, .pull _ upperGoes, .cons call serves⟩

namespace Serves

variable {decoder after : Decoder} {upper pulls : List Pull}

theorem fit (serves : Serves decoder upper pulls after) :
    ∀ pull ∈ upper, (brought pull.answer).length ≤ pull.limit := by
  induction serves with
  | nil decoder => exact nofun
  | cons call others induction =>
      refine List.forall_mem_cons.mpr ⟨?_, induction⟩
      rw [brought_mapError]
      exact (decode_comes _ call).fits

theorem step (serves : Serves decoder upper pulls after) (wire : Bytes) :
    decoder.outlook (pulled pulls ++ wire) = (after.outlook wire).prepend (pulled upper) := by
  induction serves with
  | nil decoder => rfl
  | cons call others induction =>
      rw [Channel.pulled_append, List.append_assoc, (decode_comes _ call).step, induction,
        Outlook.prepend_prepend, Channel.pulled_cons, brought_mapError]

end Serves

theorem relay_goes {program : Reading α} {decoder after : Decoder} {pulls : List Pull} {result : α}
    (goes : (decoder.relay program).Goes pulls (result, after)) :
    ∃ upper, program.Goes upper result ∧
      (∀ pull ∈ upper, (brought pull.answer).length ≤ pull.limit) ∧
      ∀ wire,
        decoder.outlook (pulled pulls ++ wire) = (after.outlook wire).prepend (pulled upper) := by
  rcases relay_serves goes with ⟨upper, upperGoes, serves⟩
  exact ⟨upper, upperGoes, serves.fit, serves.step⟩

end Decoder

end RunLength

end ByteStreams
