import ByteStreams.Channel.Source

/-! # Loops over any source

A loop that wants some bytes gets them up to the first failure or early end of a source, and
how much it asks for in one call makes no difference. So the loop that keeps its bytes and the
one that passes over them leave a source at the same place.
-/

namespace ByteStreams

namespace Channel

/-- What a loop gets out of a source, how it comes to its end, and what it leaves. -/
structure Fetch where
  bytes : Bytes
  ending : Reading.Ending
  left : Source

def Fetch.prepend (piece : Bytes) (fetch : Fetch) : Fetch :=
  { fetch with bytes := piece ++ fetch.bytes }

inductive Fills (want : Nat) (bytes : Bytes) : Reading.Ending → Prop
  | complete (all : bytes.length = want) : Fills want bytes .complete
  | ended (few : bytes.length < want) : Fills want bytes .ended
  | failed {failure : Failure} (few : bytes.length < want)
      (final : failure.isInterruption = false) : Fills want bytes (.failed failure)

theorem Fills.prepend {want : Nat} {piece bytes : Bytes} {ending : Reading.Ending}
    (fills : Fills (want - piece.length) bytes ending) (within : piece.length ≤ want) :
    Fills want (piece ++ bytes) ending := by
  have total : (piece ++ bytes).length = piece.length + bytes.length := List.length_append
  cases fills with
  | complete all => exact .complete (by omega)
  | ended few => exact .ended (by omega)
  | failed few final => exact .failed (by omega) final

/-- The bytes are the first ones that a source has to give, and as many as the end says. -/
structure Fetch.From (want : Nat) (source : Source) (fetch : Fetch) : Prop where
  fills : Fills want fetch.bytes fetch.ending
  joined : source.remaining = fetch.bytes ++ fetch.left.remaining

namespace Source

def fetch : (want : Nat) → (script : List (Except Failure Bytes)) → Fetch
  | want, [] => ⟨[], if want = 0 then .complete else .ended, ⟨[]⟩⟩
  | want, item :: script =>
      if want = 0 then
        ⟨[], .complete, ⟨item :: script⟩⟩
      else
        match item with
        | .error failure =>
            if failure.isInterruption then fetch want script
            else ⟨[], .failed failure, ⟨script⟩⟩
        | .ok chunk =>
            if chunk.isEmpty then
              ⟨[], .ended, ⟨script⟩⟩
            else if want < chunk.length then
              ⟨chunk.take want, .complete, ⟨.ok (chunk.drop want) :: script⟩⟩
            else
              (fetch (want - chunk.length) script).prepend chunk

example :
    fetch 4 [.ok [1, 2], .error (.bare .interrupted), .ok [3, 4, 5]] =
      ⟨[1, 2, 3, 4], .complete, ⟨[.ok [5]]⟩⟩ := rfl

@[simp] theorem fetch_zero (script : List (Except Failure Bytes)) :
    fetch 0 script = ⟨[], .complete, ⟨script⟩⟩ := by
  cases script <;> rfl

variable {limit want : Nat}

theorem fetch_fetched (want : Nat) (script : List (Except Failure Bytes)) :
    (fetch want script).From want ⟨script⟩ := by
  induction script generalizing want with
  | nil =>
      by_cases none' : want = 0
      · rw [none', fetch_zero]
        exact ⟨.complete rfl, rfl⟩
      · rw [fetch, if_neg none']
        exact ⟨.ended (Nat.pos_of_ne_zero none'), rfl⟩
  | cons item script induction =>
      by_cases none' : want = 0
      · rw [none', fetch_zero]
        exact ⟨.complete rfl, rfl⟩
      · have some' : ([] : Bytes).length < want := Nat.pos_of_ne_zero none'
        cases item with
        | error failure =>
            rw [fetch, if_neg none']
            cases again : failure.isInterruption with
            | true =>
                have later := induction want
                exact ⟨later.fills, later.joined⟩
            | false => exact ⟨.failed some' again, rfl⟩
        | ok chunk =>
            rw [fetch, if_neg none']
            have joined (bytes : Bytes) : remaining ⟨.ok bytes :: script⟩ =
              bytes ++ remaining ⟨script⟩ := rfl
            split
            · rename_i nothing
              refine ⟨.ended some', ?_⟩
              rw [joined, List.isEmpty_iff.mp nothing]
            · split
              · rename_i more
                refine ⟨.complete (List.length_take_of_le (Nat.le_of_lt more)), ?_⟩
                rw [joined, joined, ← List.append_assoc, List.take_append_drop]
              · rename_i within
                have later := induction (want - chunk.length)
                refine ⟨later.fills.prepend (Nat.le_of_not_lt within), ?_⟩
                rw [joined, later.joined, Fetch.prepend, List.append_assoc]

/-! ## Calls -/

theorem take_fst (limit : Nat) (chunk : Bytes) (script : List (Except Failure Bytes)) :
    (take limit chunk script).1 = chunk.take limit := by
  simp only [take, List.splitAt_eq]
  split <;> rfl

theorem take_of_short {chunk : Bytes} (short : chunk.length ≤ limit)
    (script : List (Except Failure Bytes)) : take limit chunk script = (chunk, ⟨script⟩) := by
  simp [take, List.take_of_length_le short, List.drop_of_length_le short]

theorem take_of_long {chunk : Bytes} (long : limit < chunk.length)
    (script : List (Except Failure Bytes)) :
    take limit chunk script = (chunk.take limit, ⟨.ok (chunk.drop limit) :: script⟩) := by
  have kept : chunk.drop limit ≠ [] := by
    rw [ne_eq, List.drop_eq_nil_iff]
    exact Nat.not_le.mpr long
  simp [take, kept]

theorem fetch_take {chunk : Bytes} (asked : limit ≠ 0) (within : limit ≤ want)
    (some' : chunk ≠ []) (script : List (Except Failure Bytes)) :
    fetch want (.ok chunk :: script) =
      (fetch (want - (take limit chunk script).1.length)
        (take limit chunk script).2.script).prepend (take limit chunk script).1 := by
  have wants : want ≠ 0 := by omega
  have whole : fetch want (.ok chunk :: script) =
      if want < chunk.length then
        ⟨chunk.take want, .complete, ⟨.ok (chunk.drop want) :: script⟩⟩
      else (fetch (want - chunk.length) script).prepend chunk := by
    rw [fetch, if_neg wants]
    simp [some']
  rw [whole]
  by_cases short : chunk.length ≤ limit
  · rw [take_of_short short, if_neg (by omega)]
  · have long := Nat.lt_of_not_le short
    rw [take_of_long long, List.length_take_of_le (Nat.le_of_lt long)]
    by_cases last : want = limit
    · subst last
      rw [if_pos long, Nat.sub_self, fetch_zero]
      simp [Fetch.prepend]
    · have more : want - limit ≠ 0 := by omega
      have kept : chunk.drop limit ≠ [] := by
        rw [ne_eq, List.drop_eq_nil_iff]
        exact short
      have first : chunk.take limit ++ (chunk.drop limit).take (want - limit) =
          chunk.take want := by
        rw [← List.take_append_drop limit (chunk.take want), List.take_take, List.drop_take,
          Nat.min_eq_left within]
      have others : (chunk.drop limit).drop (want - limit) = chunk.drop want := by
        rw [List.drop_drop]
        congr 1
        omega
      rw [fetch, if_neg more]
      simp only [List.isEmpty_iff, kept, if_false, List.length_drop, others]
      by_cases part : want < chunk.length
      · rw [if_pos part, if_pos (by omega), Fetch.prepend, first]
      · have left : want - limit - (chunk.length - limit) = want - chunk.length := by omega
        rw [if_neg part, if_neg (by omega), left]
        simp only [Fetch.prepend, ← List.append_assoc, List.take_append_drop]

theorem fetch_pullFrom (asked : limit ≠ 0) (within : limit ≤ want)
    (script : List (Except Failure Bytes)) :
    fetch want script =
      match pullFrom limit script with
      | (.error failure, rest) => ⟨[], .failed failure, rest⟩
      | (.ok [], rest) => ⟨[], .ended, rest⟩
      | (.ok (byte :: more), rest) =>
          (fetch (want - (more.length + 1)) rest.script).prepend (byte :: more) := by
  have wants : want ≠ 0 := by omega
  induction script with
  | nil => rw [fetch, if_neg wants, pullFrom]
  | cons item script induction =>
      cases item with
      | error failure =>
          rw [fetch, if_neg wants, pullFrom]
          cases again : failure.isInterruption with
          | true => exact induction
          | false => rfl
      | ok chunk =>
          rw [pullFrom]
          cases chunk with
          | nil =>
              rw [fetch, if_neg wants, take_of_short (Nat.zero_le _)]
              rfl
          | cons first others =>
              rw [fetch_take asked within (List.cons_ne_nil _ _)]
              have front := take_fst limit (first :: others) script
              rcases taken : take limit (first :: others) script with ⟨_ | ⟨byte, more⟩, rest⟩
              · rw [taken] at front
                rcases List.take_eq_nil_iff.mp front.symm with none' | nothing
                · exact absurd none' asked
                · cases nothing
              · rfl

end Source

namespace Reading

theorem gatherAfter_run (found : List Bytes) (want : Nat) (source : Source) :
    (gatherAfter found want).run source =
      ((found.reverse.flatten ++ (Source.fetch want source.script).bytes,
        (Source.fetch want source.script).ending), (Source.fetch want source.script).left) := by
  -- Every piece leaves fewer bytes to be read.
  induction want using Nat.strongRecOn generalizing found source with
  | ind want induction =>
      rw [gatherAfter]
      by_cases none' : want = 0
      · subst none'
        rw [if_pos rfl, Source.fetch_zero, Bytes.join_eq, List.append_nil]
        rfl
      · rw [if_neg none', Source.fetch_pullFrom none' (Nat.le_refl want), run, Source.pull,
          if_neg none']
        rcases pulled : Source.pullFrom want source.script with
          ⟨failure | (_ | ⟨byte, more⟩), rest⟩
        · simp only [run, Bytes.join_eq, List.append_nil]
        · simp only [run, Bytes.join_eq, List.append_nil]
        · simp only [induction _ (by omega : want - (more.length + 1) < want), Fetch.prepend,
            List.reverse_cons, List.flatten_append, List.flatten_singleton, List.append_assoc]

theorem gather_run (want : Nat) (source : Source) :
    (gather want).run source =
      (((Source.fetch want source.script).bytes, (Source.fetch want source.script).ending),
        (Source.fetch want source.script).left) :=
  gatherAfter_run [] want source

theorem skipAfter_run (skipped left : Nat) (source : Source) :
    (skipAfter skipped left).run source =
      ((skipped + (Source.fetch left source.script).bytes.length,
        (Source.fetch left source.script).ending), (Source.fetch left source.script).left) := by
  induction left using Nat.strongRecOn generalizing skipped source with
  | ind left induction =>
      rw [skipAfter]
      by_cases none' : left = 0
      · subst none'
        rw [if_pos rfl, Source.fetch_zero]
        rfl
      · have asked : min left skipLimit ≠ 0 := by
          have positive : 0 < skipLimit := by decide
          omega
        rw [if_neg none', Source.fetch_pullFrom asked (Nat.min_le_left ..), run, Source.pull,
          if_neg asked]
        rcases pulled : Source.pullFrom (min left skipLimit) source.script with
          ⟨failure | (_ | ⟨byte, more⟩), rest⟩
        · rfl
        · rfl
        · simp only [induction _ (by omega : left - (more.length + 1) < left), Fetch.prepend,
            List.length_append, List.length_cons, Nat.add_assoc]

theorem skip_run (count : Nat) (source : Source) :
    (skip count).run source =
      (((Source.fetch count source.script).bytes.length,
        (Source.fetch count source.script).ending), (Source.fetch count source.script).left) := by
  rw [skip, skipAfter_run, Nat.zero_add]

end Reading

end Channel

end ByteStreams
