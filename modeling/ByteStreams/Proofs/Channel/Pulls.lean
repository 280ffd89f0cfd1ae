import ByteStreams.Proofs.Channel.Faultless

/-! # The calls of a reading program, whatever the source answers

On any source, a program goes down one branch of its tree. What it pulls along that branch
is what the source no longer has to give. A call may be in vain: it fails, or brings nothing,
and then the source has one failure or one empty chunk less to give, or nothing at all.
-/

namespace ByteStreams

namespace Channel

/-! ## Pulls -/

structure Pull where
  limit : Nat
  answer : Except Failure Bytes

def brought {ε : Type} : Except ε Bytes → Bytes
  | .ok piece => piece
  | .error _ => []

@[simp] theorem brought_ok {ε : Type} (piece : Bytes) :
    brought (.ok piece : Except ε Bytes) = piece := rfl

@[simp] theorem brought_error {ε : Type} (failure : ε) : brought (.error failure) = [] := rfl

/-- Bytes were asked for, and none came. -/
def Pull.Vain (pull : Pull) : Prop := pull.limit ≠ 0 ∧ brought pull.answer = []

def pulled (pulls : List Pull) : Bytes := pulls.flatMap fun pull => brought pull.answer

@[simp] theorem pulled_nil : pulled [] = [] := rfl

@[simp] theorem pulled_cons (pull : Pull) (pulls : List Pull) :
    pulled (pull :: pulls) = brought pull.answer ++ pulled pulls := rfl

@[simp] theorem pulled_append (pulls more : List Pull) :
    pulled (pulls ++ more) = pulled pulls ++ pulled more :=
  List.flatMap_append

/-! ## Branches -/

namespace Reading

variable {α β : Type}

/-- The program may pull so and have this result. -/
inductive Goes {α : Type} : Reading α → List Pull → α → Prop
  | done (result : α) : Goes (.done result) [] result
  | read {limit : Nat} {next : Except Failure Bytes → Reading α} {pulls : List Pull} {result : α}
      (answer : Except Failure Bytes) (others : Goes (next answer) pulls result) :
      Goes (.read limit next) (⟨limit, answer⟩ :: pulls) result
  | pull {limit : Nat} {next : Except Failure Bytes → Reading α} {pulls : List Pull} {result : α}
      (answer : Except Failure Bytes) (others : Goes (next answer) pulls result) :
      Goes (.pull limit next) (⟨limit, answer⟩ :: pulls) result

theorem Goes.of_bind {program : Reading α} {andThen : α → Reading β} {pulls : List Pull}
    {last : β} (goes : (program.bind andThen).Goes pulls last) :
    ∃ first result later, pulls = first ++ later ∧ program.Goes first result ∧
      (andThen result).Goes later last := by
  induction program generalizing pulls with
  | done result => exact ⟨[], result, pulls, rfl, .done result, goes⟩
  | read limit next induction =>
      cases goes with
      | read answer others =>
          rcases induction answer others with ⟨first, result, later, rfl, goes, laterGoes⟩
          exact ⟨_ :: first, result, later, rfl, .read answer goes, laterGoes⟩
  | pull limit next induction =>
      cases goes with
      | pull answer others =>
          rcases induction answer others with ⟨first, result, later, rfl, goes, laterGoes⟩
          exact ⟨_ :: first, result, later, rfl, .pull answer goes, laterGoes⟩

theorem Goes.of_map {program : Reading α} {change : α → β} {pulls : List Pull} {last : β}
    (goes : (program.map change).Goes pulls last) :
    ∃ result, program.Goes pulls result ∧ change result = last := by
  rcases goes.of_bind with ⟨first, result, later, rfl, firstGoes, laterGoes⟩
  cases laterGoes
  rw [List.append_nil]
  exact ⟨result, firstGoes, rfl⟩

/-! ## Programs that insist on bytes -/

/-- Whatever the source answers, the program has a bad result. -/
def Dooms (bad : α → Prop) : Reading α → Prop
  | .done result => bad result
  | .read _ next | .pull _ next => ∀ answer, Dooms bad (next answer)

/-- Unless every pull brings bytes, the program has a bad result. -/
inductive Insists (bad : α → Prop) : Reading α → Prop
  | done (result : α) : Insists bad (.done result)
  | pull {limit : Nat} {next : Except Failure Bytes → Reading α}
      (vain : ∀ answer, brought answer = [] → (next answer).Dooms bad)
      (others : ∀ byte more, Insists bad (next (.ok (byte :: more)))) :
      Insists bad (.pull limit next)

variable {bad : α → Prop} {worse : β → Prop}

theorem Dooms.bind {program : Reading α} {andThen : α → Reading β} (dooms : program.Dooms bad)
    (passes : ∀ result, bad result → (andThen result).Dooms worse) :
    (program.bind andThen).Dooms worse := by
  induction program with
  | done result => exact passes result dooms
  | read limit next induction => exact fun answer => induction answer (dooms answer)
  | pull limit next induction => exact fun answer => induction answer (dooms answer)

theorem dooms_of_all (all : ∀ result, bad result) (program : Reading α) : program.Dooms bad := by
  induction program with
  | done result => exact all result
  | read limit next induction => exact induction
  | pull limit next induction => exact induction

theorem Insists.bind {program : Reading α} {andThen : α → Reading β}
    (insists : program.Insists bad)
    (passes : ∀ result, bad result → (andThen result).Dooms worse)
    (second : ∀ result, (andThen result).Insists worse) :
    (program.bind andThen).Insists worse := by
  induction insists with
  | done result => exact second result
  | pull vain others induction =>
      exact .pull (fun answer nothing => (vain answer nothing).bind passes) induction

theorem Insists.map {program : Reading α} {change : α → β} (insists : program.Insists bad)
    (passes : ∀ result, bad result → worse (change result)) :
    (program.map change).Insists worse :=
  insists.bind passes fun result => .done (change result)

theorem Dooms.goes {program : Reading α} {pulls : List Pull} {result : α}
    (dooms : program.Dooms bad) (goes : program.Goes pulls result) : bad result := by
  induction goes with
  | done result => exact dooms
  | read answer others induction => exact induction (dooms answer)
  | pull answer others induction => exact induction (dooms answer)

theorem served_take (limit : Nat) (data : Bytes) :
    Served limit data (data.take limit) (data.drop limit) :=
  ⟨(List.take_append_drop ..).symm, List.length_take_le .., List.take_eq_nil_iff.mp⟩

theorem Dooms.always {after : α → Bytes → Prop} {program : Reading α} {data : Bytes}
    (dooms : program.Dooms bad) (always : Always after program data) :
    ∃ result rest, bad result ∧ after result rest := by
  induction program generalizing data with
  | done result => exact ⟨result, data, dooms, always⟩
  | read limit next induction =>
      exact induction _ (dooms _) (always.1 _ _ (served_take limit data))
  | pull limit next induction => exact induction _ (dooms _) (always _ _ (served_take limit data))

theorem Insists.finds {after : α → Bytes → Prop} {limit : Nat}
    {next : Except Failure Bytes → Reading α} {data : Bytes}
    (insists : (Reading.pull limit next).Insists bad)
    (always : Always after (.pull limit next) data)
    (good : ∀ result rest, after result rest → ¬ bad result) : limit ≠ 0 ∧ data ≠ [] := by
  rw [← not_or]
  intro none'
  cases insists with
  | pull vain others =>
      have served : Served limit data [] data := ⟨rfl, Nat.zero_le _, fun _ => none'⟩
      rcases (vain (.ok []) rfl).always (always [] data served) with ⟨result, rest, ended, holds⟩
      exact good result rest holds ended

theorem Insists.goes {after : α → Bytes → Prop} {program : Reading α} {pulls : List Pull}
    {result : α} {rest : Bytes} (insists : program.Insists bad)
    (goes : program.Goes pulls result) (good : ¬ bad result)
    (fit : ∀ pull ∈ pulls, (brought pull.answer).length ≤ pull.limit)
    (always : Always after program (pulled pulls ++ rest)) : after result rest := by
  induction insists generalizing pulls with
  | done last =>
      cases goes
      exact always
  | pull vain others induction =>
      cases goes with
      | pull answer later =>
          rcases answer with failure | (_ | ⟨byte, more⟩)
          · exact absurd ((vain _ rfl).goes later) good
          · exact absurd ((vain _ rfl).goes later) good
          · rw [pulled_cons, List.append_assoc] at always
            have served := always (byte :: more) _ ⟨rfl, fit _ (List.mem_cons_self ..), nofun⟩
            exact induction byte more later
              (fun pull member => fit pull (List.mem_cons_of_mem _ member)) served

end Reading

/-! ## Scripted sources -/

/-- A source gave what these pulls brought. If one was in vain, its script is shorter, or there
is nothing left. -/
structure Gives (source : Source) (pulls : List Pull) (left : Source) : Prop where
  joined : source.remaining = pulled pulls ++ left.remaining
  noLonger : left.script.length ≤ source.script.length
  shorter : ∀ pull ∈ pulls, pull.Vain →
    left.script.length < source.script.length ∨ left.remaining = []

namespace Gives

theorem refl (source : Source) : Gives source [] source :=
  ⟨rfl, Nat.le_refl _, fun _ none' => nomatch none'⟩

theorem cons {source middle left : Source} {pull : Pull} {pulls : List Pull}
    (first : Gives source [pull] middle) (others : Gives middle pulls left) :
    Gives source (pull :: pulls) left where
  joined := by
    rw [first.joined, others.joined]
    simp
  noLonger := Nat.le_trans others.noLonger first.noLonger
  shorter := by
    intro other member vain
    rcases List.mem_cons.mp member with rfl | later
    · rcases first.shorter other (List.mem_singleton.mpr rfl) vain with less | nothing
      · exact .inl (Nat.lt_of_le_of_lt others.noLonger less)
      · have both := others.joined
        rw [nothing] at both
        exact .inr (List.append_eq_nil_iff.mp both.symm).2
    · rcases others.shorter other later vain with less | nothing
      · exact .inl (Nat.lt_of_lt_of_le less first.noLonger)
      · exact .inr nothing

private theorem of_take (limit : Nat) (chunk : Bytes) (script : List (Except Failure Bytes)) :
    Gives ⟨.ok chunk :: script⟩ [⟨limit, .ok (Source.take limit chunk script).1⟩]
      (Source.take limit chunk script).2 := by
  unfold Source.take
  simp only [List.splitAt_eq]
  split
  · rename_i nothing
    have short := List.drop_eq_nil_iff.mp (List.isEmpty_iff.mp nothing)
    refine ⟨by simp [List.take_of_length_le short], by simp, fun _ _ _ => .inl (by simp)⟩
  · rename_i kept
    refine ⟨by simp [← List.append_assoc], by simp, ?_⟩
    intro pull member vain
    rw [List.mem_singleton.mp member] at vain
    rcases List.take_eq_nil_iff.mp vain.2 with none' | nothing
    · exact absurd none' vain.1
    · rw [nothing] at kept
      simp at kept

private theorem of_pullFrom {limit : Nat} (script : List (Except Failure Bytes)) :
    Gives ⟨script⟩ [⟨limit, (Source.pullFrom limit script).1⟩]
      (Source.pullFrom limit script).2 := by
  induction script with
  | nil => exact ⟨rfl, Nat.le_refl _, fun _ _ _ => .inr rfl⟩
  | cons item script induction =>
      cases item with
      | error failure =>
          rw [Source.pullFrom]
          split
          · exact ⟨induction.joined, Nat.le_succ_of_le induction.noLonger,
              fun _ _ _ => .inl (Nat.lt_succ_of_le induction.noLonger)⟩
          · exact ⟨rfl, Nat.le_succ _, fun _ _ _ => .inl (Nat.lt_succ_self _)⟩
      | ok chunk => exact of_take limit chunk script

theorem pull (source : Source) (limit : Nat) :
    Gives source [⟨limit, (source.pull limit).1⟩] (source.pull limit).2 := by
  rw [Source.pull]
  split
  · rename_i none'
    refine ⟨rfl, Nat.le_refl _, fun pull member vain => ?_⟩
    rw [List.mem_singleton.mp member] at vain
    exact absurd none' vain.1
  · exact of_pullFrom source.script

theorem read (source : Source) (limit : Nat) :
    Gives source [⟨limit, (source.read limit).1⟩] (source.read limit).2 := by
  rcases source with ⟨script⟩
  rw [Source.read]
  split
  · rename_i none'
    refine ⟨rfl, Nat.le_refl _, fun pull member vain => ?_⟩
    rw [List.mem_singleton.mp member] at vain
    exact absurd none' vain.1
  · cases script with
    | nil => exact ⟨rfl, Nat.le_refl _, fun _ _ _ => .inr rfl⟩
    | cons item script =>
        cases item with
        | error failure => exact ⟨rfl, Nat.le_succ _, fun _ _ _ => .inl (Nat.lt_succ_self _)⟩
        | ok chunk => exact of_take limit chunk script

end Gives

/-- On any source, a program goes down a branch of its tree, and the source gives what the
program pulls. -/
theorem Reading.run_goes {α : Type} (program : Reading α) (source : Source) :
    ∃ pulls, program.Goes pulls (program.run source).1 ∧
      Gives source pulls (program.run source).2 := by
  induction program generalizing source with
  | done result => exact ⟨[], .done result, .refl source⟩
  | read limit next induction =>
      rcases induction (source.read limit).1 (source.read limit).2 with ⟨pulls, goes, gives⟩
      exact ⟨_, .read _ goes, (Gives.read source limit).cons gives⟩
  | pull limit next induction =>
      rcases induction (source.pull limit).1 (source.pull limit).2 with ⟨pulls, goes, gives⟩
      exact ⟨_, .pull _ goes, (Gives.pull source limit).cons gives⟩

/-! ## Clean sources -/

def Source.cleaned (source : Source) : Source :=
  ⟨source.script.filter fun
    | .ok chunk => !chunk.isEmpty
    | .error _ => false⟩

theorem Source.remaining_cleaned (source : Source) :
    source.cleaned.remaining = source.remaining := by
  rcases source with ⟨script⟩
  induction script with
  | nil => rfl
  | cons item script induction =>
      simp only [cleaned, List.filter_cons] at induction ⊢
      rcases item with failure | (_ | ⟨byte, more⟩)
      · exact induction
      · exact induction
      · exact congrArg (byte :: more ++ ·) induction

theorem Source.length_cleaned_le (source : Source) :
    source.cleaned.script.length ≤ source.script.length :=
  List.length_filter_le ..

end Channel

end ByteStreams
