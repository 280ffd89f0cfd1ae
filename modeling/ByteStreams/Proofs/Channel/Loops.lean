import ByteStreams.Proofs.Channel.Faultless

/-! # Loops over a source that does not fail

However a faultless source cuts its data, a loop that wants some bytes gets exactly the
first ones, and leaves the others to the source. If there are fewer, it gets them all.
-/

namespace ByteStreams

namespace Channel

namespace Served

theorem split {limit : Nat} {front more piece rest : Bytes}
    (served : Served limit (front ++ more) piece rest) (few : limit ≤ front.length) :
    ∃ left, front = piece ++ left ∧ rest = left ++ more := by
  have within : piece.length ≤ front.length := Nat.le_trans served.fits few
  rcases List.append_eq_append_iff.mp served.joined with ⟨left, rfl, joined⟩ | ⟨left, rfl, rfl⟩
  · have nothing : left = [] := by
      rw [List.length_append] at within
      exact List.eq_nil_of_length_eq_zero (by omega)
    subst nothing
    exact ⟨[], by rw [List.append_nil, List.append_nil], joined.symm⟩
  · exact ⟨left, rfl, rfl⟩

end Served

namespace Reading

private theorem some_of_served {limit : Nat} {data more rest : Bytes} (asked : limit ≠ 0)
    (wants : data ≠ []) : ¬ Served limit (data ++ more) [] rest := by
  intro served
  rcases served.nothing rfl with none' | nothing
  · exact asked none'
  · exact wants (List.append_eq_nil_iff.mp nothing).1

private theorem gatherAfter_always (found : List Bytes) (data more : Bytes) :
    Always (fun result rest => result = (found.reverse.flatten ++ data, .complete) ∧ rest = more)
      (gatherAfter found data.length) (data ++ more) := by
  -- Every piece leaves less of the data to be read.
  induction wanted : data.length using Nat.strongRecOn generalizing found data with
  | ind want induction =>
      rw [gatherAfter]
      by_cases none' : want = 0
      · have nothing := List.eq_nil_of_length_eq_zero (wanted.trans none')
        subst nothing
        rw [if_pos none', List.append_nil]
        exact ⟨by rw [Bytes.join_eq], rfl⟩
      · rw [if_neg none']
        intro piece rest served
        have wants : data ≠ [] := by
          intro nothing
          rw [nothing] at wanted
          exact none' wanted.symm
        cases piece with
        | nil => exact absurd served (some_of_served none' wants)
        | cons byte others =>
            rcases served.split (Nat.le_of_eq wanted.symm) with ⟨left, rfl, rfl⟩
            have counts : left.length = want - (others.length + 1) := by
              rw [← wanted, List.length_append, List.length_cons]
              omega
            have later := induction left.length (by omega) ((byte :: others) :: found) left rfl
            rw [counts] at later
            simpa using later

theorem gather_always (data more : Bytes) :
    Always (fun result rest => result = (data, .complete) ∧ rest = more)
      (gather data.length) (data ++ more) :=
  gatherAfter_always [] data more

private theorem skipAfter_always (skipped : Nat) (data more : Bytes) :
    Always (fun result rest => result = (skipped + data.length, .complete) ∧ rest = more)
      (skipAfter skipped data.length) (data ++ more) := by
  induction wanted : data.length using Nat.strongRecOn generalizing skipped data with
  | ind want induction =>
      rw [skipAfter]
      by_cases none' : want = 0
      · have nothing := List.eq_nil_of_length_eq_zero (wanted.trans none')
        subst nothing
        rw [if_pos none', none']
        exact ⟨rfl, rfl⟩
      · rw [if_neg none']
        intro piece rest served
        have wants : data ≠ [] := by
          intro nothing
          rw [nothing] at wanted
          exact none' wanted.symm
        have asked : min want skipLimit ≠ 0 := by
          have positive : 0 < skipLimit := by decide
          omega
        cases piece with
        | nil => exact absurd served (some_of_served asked wants)
        | cons byte others =>
            have few : min want skipLimit ≤ data.length := by omega
            rcases served.split few with ⟨left, rfl, rfl⟩
            have counts : left.length = want - (others.length + 1) := by
              rw [← wanted, List.length_append, List.length_cons]
              omega
            have total : skipped + (others.length + 1) + left.length = skipped + want := by
              rw [← wanted, List.length_append, List.length_cons]
              omega
            have later := induction left.length (by omega) (skipped + (others.length + 1)) left rfl
            rw [total, counts] at later
            exact later

theorem skip_always (data more : Bytes) :
    Always (fun result rest => result = (data.length, .complete) ∧ rest = more)
      (skip data.length) (data ++ more) := by
  have skips := skipAfter_always 0 data more
  rwa [Nat.zero_add] at skips

private theorem gatherAfter_short (found : List Bytes) (want : Nat) (data : Bytes)
    (short : data.length < want) :
    Always (fun result rest => result = (found.reverse.flatten ++ data, .ended) ∧ rest = [])
      (gatherAfter found want) data := by
  induction want using Nat.strongRecOn generalizing found data with
  | ind want induction =>
      have asked : want ≠ 0 := Nat.ne_of_gt (Nat.zero_lt_of_lt short)
      rw [gatherAfter, if_neg asked]
      intro piece rest served
      cases piece with
      | nil =>
          have nothing := (served.nothing rfl).resolve_left asked
          subst nothing
          exact ⟨by rw [Bytes.join_eq, List.append_nil], served.of_nil.2⟩
      | cons byte others =>
          have joined := served.joined
          subst joined
          rw [List.length_append, List.length_cons] at short
          have later := induction (want - (others.length + 1)) (by omega)
            ((byte :: others) :: found) rest (by omega)
          simpa using later

theorem gather_short {want : Nat} {data : Bytes} (short : data.length < want) :
    Always (fun result rest => result = (data, .ended) ∧ rest = []) (gather want) data :=
  gatherAfter_short [] want data short

private theorem skipAfter_short (skipped left : Nat) (data : Bytes) (short : data.length < left) :
    Always (fun result rest => result = (skipped + data.length, .ended) ∧ rest = [])
      (skipAfter skipped left) data := by
  induction left using Nat.strongRecOn generalizing skipped data with
  | ind left induction =>
      have some' : left ≠ 0 := Nat.ne_of_gt (Nat.zero_lt_of_lt short)
      have asked : min left skipLimit ≠ 0 := by
        have positive : 0 < skipLimit := by decide
        omega
      rw [skipAfter, if_neg some']
      intro piece rest served
      cases piece with
      | nil =>
          have nothing := (served.nothing rfl).resolve_left asked
          subst nothing
          exact ⟨rfl, served.of_nil.2⟩
      | cons byte others =>
          have joined := served.joined
          subst joined
          rw [List.length_append, List.length_cons] at short
          have later := induction (left - (others.length + 1)) (by omega)
            (skipped + (others.length + 1)) rest (by omega)
          have total : skipped + (others.length + 1) + rest.length =
              skipped + (byte :: others ++ rest).length := by
            rw [List.length_append, List.length_cons, Nat.add_assoc]
          rwa [total] at later

theorem skip_short {count : Nat} {data : Bytes} (short : data.length < count) :
    Always (fun result rest => result = (data.length, .ended) ∧ rest = []) (skip count) data := by
  have skips := skipAfter_short 0 count data short
  rwa [Nat.zero_add] at skips

theorem readToEnd_always :
    Always (fun result rest => result = ([], none) ∧ rest = []) readToEnd [] := by
  have some' : Bytes.longestBuffer = (Bytes.longestBuffer - 1) + 1 := by decide
  rw [readToEnd, some', readToEndAfter]
  intro piece rest served
  rcases served.of_nil with ⟨rfl, rfl⟩
  exact ⟨rfl, rfl⟩

end Reading

end Channel

end ByteStreams
