import ByteStreams.Proofs.Channel.Calls
import ByteStreams.Proofs.Channel.Pulls

/-! # Failures that are reported

A writing program reports a failure if it makes no call after the one that failed, and says of
itself what the sink said of that call. A reading program heeds its source if it does the same,
and makes no pull after it has found the end either.
-/

namespace ByteStreams

namespace Channel

/-! ## Writing -/

def Call.failure? : Call → Option Failure
  | .offered _ (.error failure) | .cut _ _ failure | .flushed (.error failure)
  | .settled (.error failure) => some failure
  | _ => none

def Unfailed (calls : List Call) : Prop := ∀ call ∈ calls, call.failure? = none

theorem unfailed_nil : Unfailed [] := fun _ none' => nomatch none'

theorem Unfailed.append {calls more : List Call} (unfailed : Unfailed calls)
    (others : Unfailed more) : Unfailed (calls ++ more) :=
  List.forall_mem_append.mpr ⟨unfailed, others⟩

/-- No call failed and the outcome is a success, or the last call failed and the outcome says
why. `wrap` is how the layer says it. -/
inductive Reports {ε : Type} (wrap : Failure → ε) : List Call → Except ε Unit → Prop
  | succeeds {calls : List Call} (unfailed : Unfailed calls) : Reports wrap calls (.ok ())
  | fails {calls : List Call} {call : Call} {failure : Failure} (unfailed : Unfailed calls)
      (failed : call.failure? = some failure) :
      Reports wrap (calls ++ [call]) (.error (wrap failure))

namespace Reports

variable {ε δ : Type} {wrap : Failure → ε} {calls more : List Call}

theorem nothing (wrap : Failure → ε) : Reports wrap [] (.ok ()) := .succeeds unfailed_nil

theorem of_failed {call : Call} {failure : Failure} (failed : call.failure? = some failure)
    (wrap : Failure → ε) : Reports wrap [call] (.error (wrap failure)) := by
  rw [← List.nil_append [call]]
  exact .fails unfailed_nil failed

theorem of_writes {data : Bytes} {call : Call} {answer : Except Failure Unit}
    (writes : call.Writes data answer) (wrap : Failure → ε) :
    Reports wrap [call] (answer.mapError wrap) := by
  cases writes with
  | all => exact .succeeds (List.forall_mem_singleton.mpr rfl)
  | part joined more final => exact of_failed rfl wrap

theorem of_settled (answer : Except Failure Unit) (wrap : Failure → ε) :
    Reports wrap [.settled answer] (answer.mapError wrap) := by
  cases answer with
  | ok => exact .succeeds (List.forall_mem_singleton.mpr rfl)
  | error failure => exact of_failed rfl wrap

theorem unfailed (reports : Reports wrap calls (.ok ())) : Unfailed calls := by
  cases reports with
  | succeeds unfailed => exact unfailed

theorem after {outcome : Except ε Unit} (unfailed : Unfailed calls)
    (later : Reports wrap more outcome) : Reports wrap (calls ++ more) outcome := by
  cases later with
  | succeeds others => exact .succeeds (unfailed.append others)
  | fails others failed =>
      rw [← List.append_assoc]
      exact .fails (unfailed.append others) failed

theorem mapError {outcome : Except ε Unit} (reports : Reports wrap calls outcome)
    (change : ε → δ) : Reports (change ∘ wrap) calls (outcome.mapError change) := by
  cases reports with
  | succeeds unfailed => exact .succeeds unfailed
  | fails unfailed failed => exact .fails unfailed failed

end Reports

/-! ## Reading -/

def Fruitful (pulls : List Pull) : Prop :=
  ∀ pull ∈ pulls, ∃ byte more, pull.answer = .ok (byte :: more)

theorem fruitful_nil : Fruitful [] := fun _ none' => nomatch none'

theorem Fruitful.cons {pulls : List Pull} (fruitful : Fruitful pulls) (limit : Nat)
    (byte : UInt8) (more : Bytes) : Fruitful (⟨limit, .ok (byte :: more)⟩ :: pulls) :=
  List.forall_mem_cons.mpr ⟨⟨byte, more, rfl⟩, fruitful⟩

theorem Fruitful.append {pulls more : List Pull} (fruitful : Fruitful pulls)
    (others : Fruitful more) : Fruitful (pulls ++ more) :=
  List.forall_mem_append.mpr ⟨fruitful, others⟩

namespace Reading

variable {α β : Type}

inductive Stops : Except Failure Bytes → Ending → Prop
  | ended : Stops (.ok []) .ended
  | failed (failure : Failure) : Stops (.error failure) (.failed failure)

/-- How some pulls come to their end: all of them bring bytes, or all but the last, which was
asked for some. -/
inductive Ends : List Pull → Ending → Prop
  | complete {pulls : List Pull} (fruitful : Fruitful pulls) : Ends pulls .complete
  | stopped {pulls : List Pull} {limit : Nat} {answer : Except Failure Bytes} {how : Ending}
      (fruitful : Fruitful pulls) (asked : limit ≠ 0) (stops : Stops answer how) :
      Ends (pulls ++ [⟨limit, answer⟩]) how

theorem Ends.cons {pulls : List Pull} {how : Ending} (ends : Ends pulls how) (limit : Nat)
    (byte : UInt8) (more : Bytes) : Ends (⟨limit, .ok (byte :: more)⟩ :: pulls) how := by
  cases ends with
  | complete fruitful => exact .complete (fruitful.cons limit byte more)
  | stopped fruitful asked stops => exact .stopped (fruitful.cons limit byte more) asked stops

/-- The program makes no pull after one that brings no bytes, and its result says how its pulls
ended. -/
inductive Heeds (holds : Ending → α → Prop) : Reading α → Prop
  | done {result : α} (complete : holds .complete result) : Heeds holds (.done result)
  | pull {limit : Nat} {next : Except Failure Bytes → Reading α} (asked : limit ≠ 0)
      (stops : ∀ answer how, Stops answer how → ∃ result, next answer = .done result ∧
        holds how result)
      (others : ∀ byte more, Heeds holds (next (.ok (byte :: more)))) :
      Heeds holds (.pull limit next)

variable {holds : Ending → α → Prop} {gives : Ending → β → Prop} {program : Reading α}

theorem Heeds.bind {andThen : α → Reading β} (heeds : program.Heeds holds)
    (second : ∀ result, holds .complete result → (andThen result).Heeds gives)
    (passes : ∀ how result, how ≠ .complete → holds how result →
      ∃ last, andThen result = .done last ∧ gives how last) :
    (program.bind andThen).Heeds gives := by
  induction heeds with
  | done complete => exact second _ complete
  | @pull limit next asked stops others induction =>
      refine .pull asked ?_ induction
      intro answer how stopped
      rcases stops answer how stopped with ⟨result, quits, said⟩
      have stopsShort : how ≠ .complete := by
        cases stopped <;> exact nofun
      simp only [quits, Reading.bind]
      exact passes how result stopsShort said

theorem Heeds.map {change : α → β} (heeds : program.Heeds holds)
    (passes : ∀ how result, holds how result → gives how (change result)) :
    (program.map change).Heeds gives :=
  heeds.bind (fun result complete => .done (passes _ result complete))
    fun how result _ said => ⟨_, rfl, passes how result said⟩

theorem Heeds.goes {pulls : List Pull} {result : α} (heeds : program.Heeds holds)
    (goes : program.Goes pulls result) : ∃ how, Ends pulls how ∧ holds how result := by
  induction heeds generalizing pulls with
  | done complete =>
      cases goes
      exact ⟨.complete, .complete fruitful_nil, complete⟩
  | pull asked stops others induction =>
      cases goes with
      | pull answer later =>
          rcases answer with failure | (_ | ⟨byte, more⟩)
          · rcases stops _ _ (.failed failure) with ⟨last, quits, said⟩
            rw [quits] at later
            cases later
            exact ⟨_, .stopped fruitful_nil asked (.failed failure), said⟩
          · rcases stops _ _ .ended with ⟨last, quits, said⟩
            rw [quits] at later
            cases later
            exact ⟨_, .stopped fruitful_nil asked .ended, said⟩
          · rcases induction byte more later with ⟨how, ends, said⟩
            exact ⟨how, ends.cons _ byte more, said⟩

theorem gatherAfter_heeds (found : List Bytes) (want : Nat) :
    (gatherAfter found want).Heeds fun how result => result.2 = how := by
  induction want using Nat.strongRecOn generalizing found with
  | ind want induction =>
      rw [gatherAfter]
      split
      · exact .done rfl
      · rename_i asked
        refine .pull asked ?_ fun byte more => induction _ (by omega) _
        rintro answer how (_ | failure)
        · exact ⟨_, rfl, rfl⟩
        · exact ⟨_, rfl, rfl⟩

theorem skipAfter_heeds (skipped left : Nat) :
    (skipAfter skipped left).Heeds fun how result => result.2 = how := by
  induction left using Nat.strongRecOn generalizing skipped with
  | ind left induction =>
      rw [skipAfter]
      split
      · exact .done rfl
      · rename_i some'
        have asked : min left skipLimit ≠ 0 := by
          have positive : 0 < skipLimit := by decide
          omega
        refine .pull asked ?_ fun byte more => induction _ (by omega) _
        rintro answer how (_ | failure)
        · exact ⟨_, rfl, rfl⟩
        · exact ⟨_, rfl, rfl⟩

end Reading

end Channel

end ByteStreams
