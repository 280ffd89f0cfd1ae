import ByteStreams.Proofs.RunLength.FailingSinks

/-! # What an encoder holds back

However operations end, an encoder then has nothing staged, and holds back nothing or a
run that one frame can describe; once it is closed it holds back nothing. So the runs that
it hands on for encoding always fit a frame. Lengthening a run takes one round for every
longest frame that is staged, and the rounds bring what is left down to one frame's worth.
-/

namespace ByteStreams

namespace RunLength

open Channel (Call Sink Writing)

/-! ## Rounds -/

/-- How many copies of a value are held back and how many are still to come, whenever a
longest frame of them is staged. -/
def stageRounds (held more : Nat) : List (Nat × Nat) :=
  if longestRun < held + more then
    (held, more) :: stageRounds 0 (more - (longestRun - held))
  else
    []
termination_by held + more
decreasing_by
  unfold longestRun at *
  omega

/-- A round that starts with all that a frame can hold takes nothing of what is to come. -/
example : stageRounds longestRun 1 = [(longestRun, 1)] := by cbv

theorem stageRounds_of_long {held more : Nat} (long : longestRun < held + more) :
    stageRounds held more = (held, more) :: stageRounds 0 (more - (longestRun - held)) := by
  rw [stageRounds, if_pos long]

theorem stageRounds_of_short {held more : Nat} (short : held + more ≤ longestRun) :
    stageRounds held more = [] := by
  rw [stageRounds, if_neg (Nat.not_lt.mpr short)]

theorem stageRounds_covered {held more : Nat} (fits : held ≤ longestRun) :
    ∀ round ∈ stageRounds held more, round.1 ≤ longestRun ∧ longestRun - round.1 ≤ round.2 := by
  induction held, more using stageRounds.induct with
  | case1 held more long induction =>
      rw [stageRounds_of_long long]
      exact List.forall_mem_cons.mpr ⟨⟨fits, by omega⟩, induction (Nat.zero_le _)⟩
  | case2 held more short =>
      rw [stageRounds_of_short (Nat.le_of_not_lt short)]
      exact fun _ member => nomatch member

theorem length_stageRounds_le {held more : Nat} (fits : held ≤ longestRun) :
    (stageRounds held more).length * longestRun ≤ held + more := by
  induction held, more using stageRounds.induct with
  | case1 held more long induction =>
      have later := induction (Nat.zero_le _)
      rw [stageRounds_of_long long, List.length_cons, Nat.succ_mul]
      omega
  | case2 held more short =>
      rw [stageRounds_of_short (Nat.le_of_not_lt short), List.length_nil, Nat.zero_mul]
      exact Nat.zero_le _

/-! ## Lengthening -/

def Pending.held (value : UInt8) : Pending → Nat
  | .idle => 0
  | .holding last count => if last = value then count else 0

def Pending.over (signal value : UInt8) : Pending → Bytes
  | .idle => []
  | .holding last count => if last = value then [] else shortestRun signal last count

theorem Pending.Fits.held_le {pending : Pending} (fits : pending.Fits) (value : UInt8) :
    pending.held value ≤ longestRun := by
  cases pending with
  | idle => exact Nat.zero_le _
  | holding last count =>
      rw [Pending.held]
      split
      · exact fits.2
      · exact Nat.zero_le _

namespace Encoder

/-- One longest frame is staged in each round, and what is left is held back. -/
theorem stageLongest_eq_rounds (encoder : Encoder) (value : UInt8) {held more : Nat}
    (fits : held ≤ longestRun) :
    encoder.stageLongest value held more =
      (.ok (), encoder.advanced
        (.holding value (held + more - (stageRounds held more).length * longestRun))
        ((stageRounds held more).flatMap fun _ =>
          shortestRun encoder.signal value longestRun)) := by
  induction held, more using stageRounds.induct generalizing encoder with
  | case1 held more long induction =>
      have staged := encoder.stageRun_eq value (by decide) (Nat.le_refl longestRun)
      have left : held + more - ((stageRounds 0 (more - (longestRun - held))).length + 1) *
          longestRun = 0 + (more - (longestRun - held)) -
            (stageRounds 0 (more - (longestRun - held))).length * longestRun := by
        rw [Nat.succ_mul]
        omega
      rw [stageLongest, if_pos long, staged]
      simp only
      rw [induction _ (Nat.zero_le _), advanced_advanced, stageRounds_of_long long,
        List.length_cons, left, List.flatMap_cons]
      rfl
  | case2 held more short =>
      rw [stageLongest, if_neg short, stageRounds_of_short (Nat.le_of_not_lt short)]
      simp [advanced]

theorem extend_eq_rounds (encoder : Encoder) (fits : encoder.pending.Fits) (run : Run) :
    encoder.extend run =
      (.ok (), encoder.advanced
        (.holding run.value (encoder.pending.held run.value + run.count -
          (stageRounds (encoder.pending.held run.value) run.count).length * longestRun))
        (encoder.pending.over encoder.signal run.value ++
          (stageRounds (encoder.pending.held run.value) run.count).flatMap fun _ =>
            shortestRun encoder.signal run.value longestRun)) := by
  have heldFits := fits.held_le run.value
  unfold extend
  cases pending : encoder.pending with
  | idle =>
      simp only [Pending.held, Pending.over, List.nil_append]
      exact encoder.stageLongest_eq_rounds run.value (Nat.zero_le _)
  | holding last count =>
      rw [pending] at fits heldFits
      by_cases same : last = run.value
      · simp only [Pending.held, Pending.over, same, if_true, List.nil_append] at heldFits ⊢
        exact encoder.stageLongest_eq_rounds run.value heldFits
      · have encoderFits : encoder.pending.Fits := by
          rw [pending]
          exact fits
        have code : RunLength.encode encoder.signal encoder.pending.data =
            shortestRun encoder.signal last count := by
          rw [pending]
          exact encode_replicate _ _ fits.1 fits.2
        simp only [Pending.held, Pending.over, same, if_false]
        rw [stagePending_eq encoder encoderFits, code]
        simp only
        rw [stageLongest_eq_rounds _ _ (Nat.zero_le _), advanced_advanced]
        rfl

/-! ## Order -/

/-- What holds of an encoder between operations, whether or not they failed. -/
structure Orderly (encoder : Encoder) : Prop where
  fits : encoder.pending.Fits
  unstaged : encoder.staged = #[]
  idle : encoder.isOpen = false → encoder.pending = .idle

theorem orderly_new (signal : UInt8) : (new signal).Orderly :=
  ⟨trivial, rfl, fun _ => rfl⟩

def blamesLength : Except Failure Unit → Bool
  | .error (.fault (.invalidRunLength _ _)) => true
  | _ => false

structure EndsWell (outcome : Except Failure Unit) (after : Encoder) : Prop where
  orderly : after.Orderly
  blameless : blamesLength outcome = false

theorem blamesLength_channel (answer : Except Channel.Failure Unit) :
    blamesLength (answer.mapError Failure.channel) = false := by
  cases answer <;> rfl

variable {encoder after : Encoder} {calls : List Call} {outcome : Except Failure Unit}

theorem passStaged_endsWell (opened : encoder.isOpen = true) (fits : encoder.pending.Fits)
    (goes : encoder.passStaged.Goes calls (outcome, after)) :
    EndsWell outcome after ∧ after.isOpen = true ∧ after.pending = encoder.pending := by
  rw [passStaged, if_pos opened] at goes
  split at goes
  · rename_i nothing
    cases goes
    exact ⟨⟨⟨fits, Array.isEmpty_iff.mp nothing, fun closed => by simp [opened] at closed⟩, rfl⟩,
      opened, rfl⟩
  · cases goes with
    | writeAll writes others =>
        cases others
        exact ⟨⟨⟨fits, rfl, fun closed => by simp [opened] at closed⟩, blamesLength_channel _⟩,
          opened, rfl⟩

theorem absorb_endsWell {list : List Run} (each : ∀ run ∈ list, 0 < run.count)
    (opened : encoder.isOpen = true) (fits : encoder.pending.Fits)
    (goes : (encoder.absorb list).Goes calls (outcome, after)) : EndsWell outcome after := by
  induction list generalizing encoder calls with
  | nil => exact (passStaged_endsWell opened fits goes).1
  | cons run rest induction =>
      have others : ∀ other ∈ rest, 0 < other.count := fun other member =>
        each other (List.mem_cons_of_mem _ member)
      rcases encoder.extend_eq fits run (each run (List.mem_cons_self ..)) with
        ⟨pending, code, extended, middleFits, -⟩
      have middleOpened : (encoder.advanced pending code).isOpen = true := opened
      rw [absorb, extended] at goes
      simp only at goes
      split at goes
      · rcases goes.of_bind with ⟨first, ⟨passed, last⟩, later, rfl, firstGoes, laterGoes⟩
        rcases passStaged_endsWell middleOpened middleFits firstGoes with
          ⟨passedWell, lastOpened, -⟩
        cases passed with
        | ok => exact induction others lastOpened passedWell.orderly.fits laterGoes
        | error failure =>
            cases laterGoes
            exact passedWell
      · exact induction others middleOpened middleFits goes

namespace Orderly

theorem encode (orderly : encoder.Orderly) {data : Bytes}
    (goes : (encoder.encode data).Goes calls (outcome, after)) : EndsWell outcome after := by
  unfold Encoder.encode at goes
  split at goes
  · rename_i opened
    exact absorb_endsWell (count_pos_of_mem_runs data) opened orderly.fits goes
  · cases goes
    exact ⟨orderly, rfl⟩

theorem flushRun (orderly : encoder.Orderly)
    (goes : encoder.flushRun.Goes calls (outcome, after)) :
    EndsWell outcome after ∧ after.pending = .idle := by
  cases opened : encoder.isOpen with
  | true =>
      have middleOpened : (encoder.advanced .idle
        (RunLength.encode encoder.signal encoder.pending.data)).isOpen = true := opened
      rw [Encoder.flushRun, stagePending_eq encoder orderly.fits] at goes
      rcases passStaged_endsWell middleOpened trivial goes with ⟨endsWell, -, same⟩
      exact ⟨endsWell, same⟩
  | false =>
      rw [flushRun_of_nothing (orderly.idle opened) orderly.unstaged] at goes
      cases goes
      exact ⟨⟨orderly, rfl⟩, orderly.idle opened⟩

theorem flush (orderly : encoder.Orderly) (goes : encoder.flush.Goes calls (outcome, after)) :
    EndsWell outcome after := by
  rcases goes.of_bind with ⟨first, ⟨passed, middle⟩, later, rfl, firstGoes, laterGoes⟩
  rcases orderly.flushRun firstGoes with ⟨passedWell, -⟩
  cases passed with
  | error failure =>
      cases laterGoes
      exact passedWell
  | ok =>
      simp only at laterGoes
      split at laterGoes
      · cases laterGoes with
        | settle answer others =>
            cases others
            exact ⟨passedWell.orderly, blamesLength_channel answer⟩
      · cases laterGoes
        exact ⟨passedWell.orderly, rfl⟩

theorem close (orderly : encoder.Orderly) (goes : encoder.close.Goes calls (outcome, after)) :
    EndsWell outcome after := by
  unfold Encoder.close at goes
  split at goes
  · rcases goes.of_bind with ⟨first, ⟨passed, middle⟩, later, rfl, firstGoes, laterGoes⟩
    rcases orderly.flushRun firstGoes with ⟨passedWell, idle⟩
    cases passed with
    | error failure =>
        cases laterGoes
        exact passedWell
    | ok =>
        cases laterGoes with
        | settle answer others =>
            cases others with
            | release others =>
                cases others
                exact ⟨⟨passedWell.orderly.fits, passedWell.orderly.unstaged, fun _ => idle⟩,
                  blamesLength_channel answer⟩
  · cases goes
    exact ⟨orderly, rfl⟩

theorem finish (orderly : encoder.Orderly) (goes : encoder.finish.Goes calls outcome) :
    blamesLength outcome = false := by
  rcases goes.of_bind with ⟨first, ⟨passed, middle⟩, later, rfl, firstGoes, laterGoes⟩
  rcases orderly.flushRun firstGoes with ⟨passedWell, -⟩
  cases passed with
  | error failure =>
      rcases Writing.Goes.of_map laterGoes with ⟨_, -, rfl⟩
      exact passedWell.blameless
  | ok =>
      simp only at laterGoes
      split at laterGoes
      · cases laterGoes with
        | settle answer others =>
            cases answer with
            | ok =>
                cases others
                rfl
            | error failure =>
                cases others with
                | release others =>
                    cases others
                    rfl
      · cases laterGoes
        rfl

theorem attempt (orderly : encoder.Orderly) {request : Request}
    (goes : (encoder.attempt request).Goes calls (outcome, after)) : EndsWell outcome after := by
  rcases request with (data | data | _ | _) | _
  · exact orderly.encode goes
  · exact orderly.encode goes
  · exact (orderly.flushRun goes).1
  · exact orderly.flush goes
  · exact orderly.close goes

theorem attemptAll (requests : List Request) (orderly : encoder.Orderly)
    {outcomes : List (Except Failure Unit)}
    (goes : (encoder.attemptAll requests).Goes calls (outcomes, after)) :
    after.Orderly ∧ ∀ outcome ∈ outcomes, blamesLength outcome = false := by
  induction requests generalizing encoder calls outcomes with
  | nil =>
      cases goes
      exact ⟨orderly, fun _ none' => nomatch none'⟩
  | cons request requests induction =>
      rcases goes.of_bind with ⟨first, ⟨outcome, middle⟩, later, rfl, firstGoes, laterGoes⟩
      rcases laterGoes.of_map with ⟨⟨others, last⟩, othersGo, same⟩
      cases same
      have endsWell := orderly.attempt firstGoes
      rcases induction endsWell.orderly othersGo with ⟨lastOrderly, blameless⟩
      exact ⟨lastOrderly, List.forall_mem_cons.mpr ⟨endsWell.blameless, blameless⟩⟩

theorem relay {α : Type} (program : Writing α) (orderly : encoder.Orderly) {result : α}
    (goes : (relay program encoder).Goes calls (result, after)) : after.Orderly := by
  induction program generalizing encoder calls with
  | done result =>
      cases goes
      exact orderly
  | write data next induction =>
      rcases goes.of_bind with ⟨first, ⟨outcome, middle⟩, later, rfl, firstGoes, laterGoes⟩
      exact induction _ (orderly.encode firstGoes).orderly laterGoes
  | writeAll data next induction =>
      unfold Encoder.relay at goes
      split at goes
      · exact induction _ orderly goes
      · rcases goes.of_bind with ⟨first, ⟨outcome, middle⟩, later, rfl, firstGoes, laterGoes⟩
        exact induction _ (orderly.encode firstGoes).orderly laterGoes
  | flush next induction | settle next induction =>
      rcases goes.of_bind with ⟨first, ⟨outcome, middle⟩, later, rfl, firstGoes, laterGoes⟩
      exact induction _ (orderly.flush firstGoes).orderly laterGoes
  | release next induction =>
      rcases goes.of_bind with ⟨first, _, later, rfl, -, laterGoes⟩
      have gone : Orderly { encoder with pending := .idle, isOpen := false } :=
        ⟨trivial, orderly.unstaged, fun _ => rfl⟩
      exact induction gone laterGoes

end Orderly

/-- Whatever is asked of an encoder, in whatever order, and however its sink fails: between
operations it has nothing staged, and holds back nothing or a run for one frame, nothing
once it is closed; and no operation complains of the length of a run. Lengthening such a
run stages a longest frame in each of some rounds, no more than the longest frames that
the copies would fill. No round takes more copies than are to come. -/
theorem encoder_stays_orderly (signal : UInt8) (requests : List Request) (sink : Sink) :
    let served := ((new signal).attemptAll requests).run sink
    (served.1.2.Orderly ∧ ∀ outcome ∈ served.1.1, blamesLength outcome = false) ∧
    blamesLength (served.1.2.finish.run served.2).1 = false ∧
    (∀ (α : Type) (above : Writing α),
      ((Encoder.relay above served.1.2).run served.2).1.2.Orderly) ∧
    ∀ (encoder : Encoder) (run : Run), encoder.pending.Fits →
      let held := encoder.pending.held run.value
      let rounds := stageRounds held run.count
      encoder.extend run =
        (.ok (), encoder.advanced
          (.holding run.value (held + run.count - rounds.length * longestRun))
          (encoder.pending.over encoder.signal run.value ++
            rounds.flatMap fun _ => shortestRun encoder.signal run.value longestRun)) ∧
      rounds.length ≤ (held + run.count) / longestRun ∧
      ∀ round ∈ rounds, round.1 ≤ longestRun ∧ longestRun - round.1 ≤ round.2 := by
  intro served
  rcases ((new signal).attemptAll requests).run_goes sink with ⟨calls, events, goes, -, -⟩
  have orderly := (orderly_new signal).attemptAll requests goes
  refine ⟨orderly, ?_, ?_, ?_⟩
  · rcases served.1.2.finish.run_goes served.2 with ⟨calls, events, goes, -, -⟩
    exact orderly.1.finish goes
  · intro α above
    rcases (Encoder.relay above served.1.2).run_goes served.2 with ⟨calls, events, goes, -, -⟩
    exact orderly.1.relay above goes
  · intro encoder run fits held rounds
    have heldFits : held ≤ longestRun := fits.held_le run.value
    refine ⟨encoder.extend_eq_rounds fits run, ?_, stageRounds_covered heldFits⟩
    exact (Nat.le_div_iff_mul_le (by decide)).mpr (length_stageRounds_le heldFits)

/-- The sink refuses the first frame and cannot be flushed, and the encoder is closed all
the same. The longest run is lengthened by one byte, in a round that takes nothing of it. -/
theorem encoder_stays_orderly_full_run :
    let requests : List Request := [.operate (.encode [0x41, 0x42]), .close]
    let sink : Sink := ⟨[.refuse (.bare .timedOut)], [some (.bare .brokenPipe)], []⟩
    let full : Encoder := ⟨0xE2, .holding 0x41 longestRun, #[], true⟩
    (((new 0xE2).attemptAll requests).run sink).1.2.Orderly ∧
      (((new 0xE2).attemptAll requests).run sink).1.2.isOpen = false ∧
      full.pending.Fits ∧ stageRounds longestRun 1 = [(longestRun, 1)] ∧
      full.extend ⟨0x41, 1⟩ =
        (.ok (), ⟨0xE2, .holding 0x41 1, #[0xE2, 0xBF, 0xFF, 0xFF, 0x41], true⟩) := by
  intro requests sink full
  rcases encoder_stays_orderly 0xE2 requests sink with ⟨⟨orderly, -⟩, -, -, lengthening⟩
  have fits : full.pending.Fits := ⟨by decide, Nat.le_refl _⟩
  have rounds : stageRounds longestRun 1 = [(longestRun, 1)] := by cbv
  have extended := (lengthening full ⟨0x41, 1⟩ fits).1
  simp only [full, Pending.held, if_true, rounds] at extended
  exact ⟨orderly, by decide +kernel, fits, rounds, extended⟩

end Encoder

end RunLength

end ByteStreams
