import ByteStreams.Proofs.Channel.Pulls

/-! # Every single read counts

A run against a script answers a call that tries again after interruptions in one go. Here a
source is any that has a state, even one that never ends, and what is followed are its reads,
those that interrupt among them. All that it has to keep to is that it gives no more than it is
asked for, and that it does not interrupt for ever.
-/

namespace ByteStreams

namespace Channel

def interrupts : Except Failure Bytes → Bool
  | .ok _ => false
  | .error failure => failure.isInterruption

theorem brought_of_interrupts {answer : Except Failure Bytes} (again : interrupts answer = true) :
    brought answer = [] := by
  cases answer with
  | ok => cases again
  | error => rfl

/-- Tried again and again, such reads do not interrupt for ever. -/
inductive Patient {σ : Type} (read : σ → Nat → Except Failure Bytes × σ) (limit : Nat) : σ → Prop
  | intro {state : σ}
      (goesOn : interrupts (read state limit).1 = true → Patient read limit (read state limit).2) :
      Patient read limit state

structure Supply (σ : Type) where
  /-- How it answers a read of at most so many bytes, and its state then. -/
  read : σ → Nat → Except Failure Bytes × σ
  fits : ∀ state limit piece, (read state limit).1 = .ok piece → piece.length ≤ limit
  patient : ∀ state limit, Patient read limit state

namespace Supply

variable {σ α β : Type} {supply : Supply σ} {program left : Reading α} {state after : σ}
  {reads : List Pull} {limit : Nat} {next : Except Failure Bytes → Reading α}

/-- With these reads, the program comes as far as to what is left of it. -/
inductive Reaches {α : Type} (supply : Supply σ) :
    Reading α → σ → List Pull → Reading α → σ → Prop
  | refl (program : Reading α) (state : σ) : Reaches supply program state [] program state
  | read {limit : Nat} {next : Except Failure Bytes → Reading α} {state after : σ}
      {reads : List Pull} {left : Reading α}
      (others : Reaches supply (next (supply.read state limit).1) (supply.read state limit).2
        reads left after) :
      Reaches supply (.read limit next) state (⟨limit, (supply.read state limit).1⟩ :: reads)
        left after
  | pull {limit : Nat} {next : Except Failure Bytes → Reading α} {state after : σ}
      {reads : List Pull} {left : Reading α}
      (final : interrupts (supply.read state limit).1 = false)
      (others : Reaches supply (next (supply.read state limit).1) (supply.read state limit).2
        reads left after) :
      Reaches supply (.pull limit next) state (⟨limit, (supply.read state limit).1⟩ :: reads)
        left after
  /-- After an interruption, the call is tried again. -/
  | again {limit : Nat} {next : Except Failure Bytes → Reading α} {state after : σ}
      {reads : List Pull} {left : Reading α}
      (interrupted : interrupts (supply.read state limit).1 = true)
      (others : Reaches supply (.pull limit next) (supply.read state limit).2 reads left after) :
      Reaches supply (.pull limit next) state (⟨limit, (supply.read state limit).1⟩ :: reads)
        left after

/-! ## Branches -/

theorem Reaches.of_pull
    (reaches : supply.Reaches (.pull limit next) state reads left after) :
    (∀ read ∈ reads, brought read.answer = []) ∧ left = .pull limit next ∨
      ∃ earlier answer between later, reads = earlier ++ ⟨limit, answer⟩ :: later ∧
        (∀ read ∈ earlier, brought read.answer = []) ∧
        (∀ piece, answer = .ok piece → piece.length ≤ limit) ∧
        supply.Reaches (next answer) between later left after := by
  generalize whole : Reading.pull limit next = program at reaches
  induction reaches with
  | refl program state => exact .inl ⟨List.forall_mem_nil _, rfl⟩
  | read => cases whole
  | pull final others =>
      cases whole
      exact .inr ⟨[], _, _, _, rfl, List.forall_mem_nil _, supply.fits _ limit, others⟩
  | again interrupted others induction =>
      cases whole
      have nothing := brought_of_interrupts interrupted
      rcases induction rfl with ⟨vain, same⟩ | ⟨earlier, answer, between, later, rfl, vain, rest⟩
      · exact .inl ⟨List.forall_mem_cons.mpr ⟨nothing, vain⟩, same⟩
      · exact .inr ⟨_ :: earlier, answer, between, later, rfl,
          List.forall_mem_cons.mpr ⟨nothing, vain⟩, rest⟩

theorem Reaches.of_bind {andThen : α → Reading β} {last : β}
    (reaches : supply.Reaches (program.bind andThen) state reads (.done last) after) :
    ∃ first result between later, reads = first ++ later ∧
      supply.Reaches program state first (.done result) between ∧
      supply.Reaches (andThen result) between later (.done last) after := by
  induction program generalizing state reads with
  | done result => exact ⟨[], result, state, reads, rfl, .refl _ _, reaches⟩
  | read limit next induction =>
      cases reaches with
      | read others =>
          rcases induction _ others with ⟨first, result, between, later, rfl, reached, rest⟩
          exact ⟨_ :: first, result, between, later, rfl, .read reached, rest⟩
  | pull limit next induction =>
      generalize whole : (Reading.pull limit next).bind andThen = both at reaches
      generalize ended : Reading.done last = left at reaches
      induction reaches with
      | refl =>
          subst ended
          cases whole
      | read => cases whole
      | pull final others =>
          cases whole
          rcases induction _ (ended ▸ others) with
            ⟨first, result, between, later, rfl, reached, rest⟩
          exact ⟨_ :: first, result, between, later, rfl, .pull final reached, ended ▸ rest⟩
      | again interrupted _ tried =>
          cases whole
          rcases tried induction rfl ended with
            ⟨first, result, between, later, rfl, reached, rest⟩
          exact ⟨_ :: first, result, between, later, rfl, .again interrupted reached, rest⟩

/-! ## Termination -/

/-- The program comes to a result, and no run of it makes more reads than lead there. -/
def Ends (supply : Supply σ) (program : Reading α) (state : σ) : Prop :=
  ∃ reads result after, supply.Reaches program state reads (.done result) after ∧
    ∀ others left between, supply.Reaches program state others left between →
      others.length ≤ reads.length

private theorem ends_pull (answered : ∀ answer state, supply.Ends (next answer) state)
    (patient : Patient supply.read limit state) : supply.Ends (.pull limit next) state := by
  induction patient with
  | @intro state _ induction =>
      cases interrupted : interrupts (supply.read state limit).1 with
      | false =>
          rcases answered (supply.read state limit).1 (supply.read state limit).2 with
            ⟨reads, result, after, reaches, longest⟩
          refine ⟨_ :: reads, result, after, .pull interrupted reaches, ?_⟩
          intro others left between other
          cases other with
          | refl => exact Nat.zero_le _
          | pull _ others => exact Nat.succ_le_succ (longest _ _ _ others)
          | again again' => simp [interrupted] at again'
      | true =>
          rcases induction interrupted with ⟨reads, result, after, reaches, longest⟩
          refine ⟨_ :: reads, result, after, .again interrupted reaches, ?_⟩
          intro others left between other
          cases other with
          | refl => exact Nat.zero_le _
          | pull final => simp [interrupted] at final
          | again _ others => exact Nat.succ_le_succ (longest _ _ _ others)

/-- No program reads for ever. -/
theorem ends (supply : Supply σ) (program : Reading α) (state : σ) :
    supply.Ends program state := by
  induction program generalizing state with
  | done result =>
      refine ⟨[], result, state, .refl _ _, ?_⟩
      intro others left between other
      cases other
      exact Nat.le_refl _
  | read limit next induction =>
      rcases induction (supply.read state limit).1 (supply.read state limit).2 with
        ⟨reads, result, after, reaches, longest⟩
      refine ⟨_ :: reads, result, after, .read reaches, ?_⟩
      intro others left between other
      cases other with
      | refl => exact Nat.zero_le _
      | read others => exact Nat.succ_le_succ (longest _ _ _ others)
  | pull limit next induction =>
      exact ends_pull induction (supply.patient state limit)

end Supply

/-! ## Scripted sources -/

namespace Source

private theorem patient_read (limit : Nat) (script : List (Except Failure Bytes)) :
    Patient Source.read limit ⟨script⟩ := by
  by_cases asked : limit = 0
  · refine .intro fun interrupted => ?_
    rw [Source.read, if_pos asked] at interrupted
    cases interrupted
  · induction script with
    | nil =>
        refine .intro fun interrupted => ?_
        rw [Source.read, if_neg asked] at interrupted
        cases interrupted
    | cons item script induction =>
        refine .intro fun interrupted => ?_
        rw [Source.read, if_neg asked] at interrupted ⊢
        cases item with
        | ok chunk => cases interrupted
        | error failure => exact induction

private theorem read_fits (source : Source) (limit : Nat) (piece : Bytes)
    (answered : (source.read limit).1 = .ok piece) : piece.length ≤ limit := by
  rcases source with ⟨script⟩
  rw [Source.read] at answered
  split at answered
  · cases answered
    exact Nat.zero_le _
  · rcases script with _ | ⟨failure | chunk, script⟩
    · cases answered
      exact Nat.zero_le _
    · cases answered
    · rcases Except.ok.inj answered with rfl
      unfold take
      simp only [List.splitAt_eq]
      split <;> exact List.length_take_le ..

/-- A script is a supply. It ends, so it does not interrupt for ever. -/
def supply : Supply Source where
  read := Source.read
  fits := read_fits
  patient := fun ⟨script⟩ limit => patient_read limit script

theorem pull_eq (source : Source) (limit : Nat) :
    source.pull limit =
      if interrupts (source.read limit).1 then (source.read limit).2.pull limit
      else source.read limit := by
  rcases source with ⟨script⟩
  by_cases asked : limit = 0
  · simp [pull, read, asked, interrupts]
  · rcases script with _ | ⟨failure | chunk, script⟩
    · simp [pull, read, asked, pullFrom, interrupts]
    · simp [pull, read, asked, pullFrom, interrupts]
    · simp [pull, read, asked, pullFrom, interrupts]

private theorem reaches_pull {α : Type} {limit : Nat} {next : Except Failure Bytes → Reading α}
    {reads : List Pull} {left : Reading α} {source after : Source}
    (patient : Patient supply.read limit source)
    (others : supply.Reaches (next (source.pull limit).1) (source.pull limit).2 reads left after) :
    ∃ all, supply.Reaches (.pull limit next) source all left after := by
  induction patient with
  | @intro source _ induction =>
      rw [pull_eq] at others
      cases interrupted : interrupts (source.read limit).1 with
      | false =>
          rw [interrupted] at others
          exact ⟨_, .pull interrupted others⟩
      | true =>
          rw [interrupted] at others
          rcases induction interrupted others with ⟨all, reaches⟩
          exact ⟨_, .again interrupted reaches⟩

/-- One read after another, a program does against a script what its run does. -/
theorem supply_reaches {α : Type} (program : Reading α) (source : Source) :
    ∃ reads, supply.Reaches program source reads (.done (program.run source).1)
      (program.run source).2 := by
  induction program generalizing source with
  | done result => exact ⟨[], .refl _ _⟩
  | read limit next induction =>
      rcases induction (source.read limit).1 (source.read limit).2 with ⟨reads, reaches⟩
      exact ⟨_, .read reaches⟩
  | pull limit next induction =>
      rcases induction (source.pull limit).1 (source.pull limit).2 with ⟨reads, reaches⟩
      exact reaches_pull (supply.patient source limit) reaches

end Source

end Channel

end ByteStreams
