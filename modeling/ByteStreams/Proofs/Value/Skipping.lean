import ByteStreams.Proofs.Channel.Fetching
import ByteStreams.Value.Reader

/-! # Passing over bytes is reading and discarding them

On any source, also one that fails or ends early, a call that passes over some bytes comes to
what a call that reads them comes to, and leaves the source at the same place.
-/

namespace ByteStreams

namespace Value

open Channel (Fills Reading Source)

/-- What a call that wants so many bytes makes of the bytes that it took from the source. -/
inductive Obtains (count : Nat) (taken : Bytes) : Except Failure Bytes → Prop
  | whole (all : taken.length = count) : Obtains count taken (.ok taken)
  | short (few : taken.length < count) :
      Obtains count taken (.error (.fault (.unexpectedEnd count taken.length)))
  | failed {failure : Channel.Failure} (few : taken.length < count)
      (final : failure.isInterruption = false) :
      Obtains count taken (.error (.channel failure))

theorem obtains_of_fills {count : Nat} {taken : Bytes} {how : Reading.Ending}
    (fills : Fills count taken how) :
    Obtains count taken ((ending count taken.length how).map fun _ => taken) := by
  cases fills with
  | complete all => exact .whole all
  | ended few => exact .short few
  | failed few final => exact .failed few final

theorem readFully_run (count : Nat) (source : Source) :
    (readFully count).run source =
      ((ending count (Source.fetch count source.script).bytes.length
          (Source.fetch count source.script).ending).map fun _ =>
            (Source.fetch count source.script).bytes,
        (Source.fetch count source.script).left) := by
  rw [readFully, Reading.map, Reading.run_bind, Reading.gather_run]
  rfl

theorem skipFully_run (count : Nat) (source : Source) :
    (skipFully count).run source =
      (ending count (Source.fetch count source.script).bytes.length
        (Source.fetch count source.script).ending,
        (Source.fetch count source.script).left) := by
  rw [skipFully, Reading.map, Reading.run_bind, Reading.skip_run]
  rfl

/-- Of any source, passing over bytes and reading them take the same bytes and come to the
same, but for the bytes themselves: they succeed with all that is wanted, or they end with the
same count of bytes, or with the same failure. Both leave the source at the same place of its
script. -/
theorem skipFully_reads_and_discards (count : Nat) (source : Source) :
    ∃ taken outcome rest,
      (readFully count).run source = (outcome, rest) ∧
      (skipFully count).run source = (outcome.map fun _ => (), rest) ∧
      source.remaining = taken ++ rest.remaining ∧ Obtains count taken outcome := by
  have from' := Source.fetch_fetched count source.script
  refine ⟨_, _, _, readFully_run count source, ?_, from'.joined, obtains_of_fills from'.fills⟩
  rw [skipFully_run]
  cases ending count (Source.fetch count source.script).bytes.length
    (Source.fetch count source.script).ending <;> rfl

end Value

end ByteStreams
