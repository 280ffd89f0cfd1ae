import ByteStreams.Proofs.Channel.Reporting
import ByteStreams.Proofs.Channel.Yielding
import ByteStreams.Proofs.Value.Streams

/-! # No failure below the values goes unnoticed

If a write or a flush of the sink fails, some act fails, and if a pull of the source brings no
bytes, some request fails. So acts and requests that all succeed have moved all their bytes.
-/

namespace ByteStreams

namespace Value

open Channel (Reading Writing brought)
open Channel.Reading (Always Insists)
open Channel.Writing (Dooms Yields)
open EncodedPipe (Finds ReadAct WriteAct)

def Failed {α : Type} (outcome : Except Failure α) : Prop := ∃ failure, outcome = .error failure

def AnyFailed {α : Type} (outcomes : List (Except Failure α)) : Prop :=
  ∃ outcome ∈ outcomes, Failed outcome

theorem AnyFailed.cons {α : Type} {outcomes : List (Except Failure α)} (failed : AnyFailed outcomes)
    (outcome : Except Failure α) : AnyFailed (outcome :: outcomes) := by
  rcases failed with ⟨other, member, failure⟩
  exact ⟨other, List.mem_cons_of_mem _ member, failure⟩

/-! ## Writing -/

theorem writePieces_yields (pieces : List Bytes) : (writePieces pieces).Yields (Dooms Failed) := by
  induction pieces with
  | nil => exact .done _
  | cons piece pieces induction => exact .writeAll induction fun failure => ⟨_, rfl⟩

theorem write_yields (settings : Settings) (item : Item) (order : Option ByteOrder) :
    (write settings item order).Yields (Dooms Failed) := by
  unfold write
  split
  · exact .done _
  · exact writePieces_yields _

theorem perform_yields (settings : Settings) (act : WriteAct) :
    (perform settings act).Yields (Dooms fun result => Failed result.1) := by
  have pass (failed : Writing (Except Failure Unit)) (dooms : failed.Dooms Failed) :
      (failed.map fun outcome => (outcome, settings)).Dooms fun result => Failed result.1 :=
    dooms.bind fun outcome failed => failed
  cases act with
  | item item order => exact (write_yields settings item order).map pass
  | setOrder order => exact .done _
  | flush => exact .settle (.done _) fun failure => ⟨_, rfl⟩

theorem performAll_append (settings : Settings) (first later : List WriteAct) :
    performAll settings (first ++ later) =
      (performAll settings first).bind fun (outcomes, middle) =>
        (performAll middle later).map fun (others, last) => (outcomes ++ others, last) := by
  induction first generalizing settings with
  | nil => exact (Writing.bind_done _).symm
  | cons act acts induction =>
      simp only [List.cons_append, performAll, induction, Writing.map, Writing.bind_bind,
        Writing.bind]

theorem performAll_yields (settings : Settings) (acts : List WriteAct) :
    (performAll settings acts).Yields (Dooms fun result => AnyFailed result.1) := by
  induction acts generalizing settings with
  | nil => exact .done _
  | cons act acts induction =>
      rcases perform_puts settings act with ⟨outcome, data, after, puts⟩
      apply (perform_yields settings act).bind puts
      · intro failed dooms
        apply dooms.bind
        rintro ⟨outcome, middle⟩ failed
        apply (Channel.Writing.dooms_of_all (fun _ => trivial) _).bind
        intro result _
        exact ⟨outcome, List.mem_cons_self .., failed⟩
      · exact (induction after).map fun failed dooms =>
          dooms.bind fun result failed => failed.cons outcome

/-! ## Reading -/

theorem gatherAfter_insists (found : List Bytes) (want : Nat) :
    (Reading.gatherAfter found want).Insists fun result => result.2 ≠ .complete := by
  induction want using Nat.strongRecOn generalizing found with
  | ind want induction =>
      rw [Reading.gatherAfter]
      split
      · exact .done _
      · refine .pull ?_ fun byte more => induction _ (by omega) _
        rintro (failure | piece) nothing
        · intro same
          cases same
        · cases nothing
          intro same
          cases same

theorem skipAfter_insists (skipped left : Nat) :
    (Reading.skipAfter skipped left).Insists fun result => result.2 ≠ .complete := by
  induction left using Nat.strongRecOn generalizing skipped with
  | ind left induction =>
      rw [Reading.skipAfter]
      split
      · exact .done _
      · refine .pull ?_ fun byte more => induction _ (by omega) _
        rintro (failure | piece) nothing
        · intro same
          cases same
        · cases nothing
          intro same
          cases same

theorem failed_ending {expected obtained : Nat} {how : Reading.Ending} (short : how ≠ .complete) :
    Failed (ending expected obtained how) := by
  cases how with
  | complete => exact absurd rfl short
  | ended => exact ⟨_, rfl⟩
  | failed failure => exact ⟨_, rfl⟩

theorem Failed.map {α β : Type} {outcome : Except Failure α} (failed : Failed outcome)
    (change : α → β) : Failed (outcome.map change) := by
  rcases failed with ⟨failure, rfl⟩
  exact ⟨failure, rfl⟩

theorem readFully_insists (count : Nat) : (readFully count).Insists Failed :=
  (gatherAfter_insists [] count).map fun _ short => (failed_ending short).map _

theorem skipFully_insists (count : Nat) : (skipFully count).Insists Failed :=
  (skipAfter_insists 0 count).map fun _ short => failed_ending short

theorem readAs_insists {α : Type} (count : Nat) (make : Bytes → Except Fault α) :
    (readAs count make).Insists Failed := by
  apply (readFully_insists count).map
  rintro outcome ⟨failure, rfl⟩
  exact ⟨failure, rfl⟩

theorem readLengthLed_insists {α : Type} (settings : Settings) (order : ByteOrder)
    (make : Bytes → Except Fault α) : (readLengthLed settings order make).Insists Failed := by
  apply (readFully_insists 4).bind
  · rintro outcome ⟨failure, rfl⟩
    exact ⟨failure, rfl⟩
  · rintro (failure | bytes)
    · exact .done _
    · simp only
      split
      · exact readAs_insists ..
      · exact .done _

theorem read_insists (settings : Settings) (request : Request) (order : Option ByteOrder) :
    (read settings request order).Insists Failed := by
  unfold read
  cases request with
  | scalar kind => exact readAs_insists ..
  | narrow kind width =>
      simp only
      split
      · exact .done _
      · exact readAs_insists ..
  | text => exact readLengthLed_insists ..
  | integer => exact readLengthLed_insists ..
  | raw count => exact readAs_insists ..
  | skip count => exact (skipFully_insists count).map fun _ failed => failed.map _

theorem requestAll_insists (settings : Settings) (acts : List ReadAct) :
    (requestAll settings acts).Insists fun result => AnyFailed result.1 := by
  induction acts generalizing settings with
  | nil => exact .done _
  | cons act acts induction =>
      cases act with
      | setOrder order => exact induction _
      | request request own =>
          apply (read_insists settings request own).bind
          · intro outcome failed
            apply (Channel.Reading.dooms_of_all (fun _ => trivial) _).bind
            intro result _
            exact ⟨outcome, List.mem_cons_self .., failed⟩
          · intro outcome
            exact (induction settings).map fun result failed => failed.cons outcome

/-! ## What requests say of their source -/

/-- The failure tells neither that the channel failed nor that it ended. -/
def Failure.Own : Failure → Prop
  | .channel _ | .fault (.unexpectedEnd _ _) => False
  | .fault _ => True

def Own {α : Type} : Except Failure α → Prop
  | .ok _ => True
  | .error failure => failure.Own

def Reflects {α : Type} : Reading.Ending → Except Failure α → Prop
  | .complete, outcome => Own outcome
  | .ended, outcome =>
      ∃ expected obtained, outcome = .error (.fault (.unexpectedEnd expected obtained))
  | .failed failure, outcome => outcome = .error (.channel failure)

theorem reflects_ending (expected obtained : Nat) (how : Reading.Ending) :
    Reflects how (ending expected obtained how) := by
  cases how with
  | complete => trivial
  | ended => exact ⟨expected, obtained, rfl⟩
  | failed failure => rfl

section Making

variable {α β : Type}

theorem Reflects.andThen {how : Reading.Ending} {first : Except Failure α}
    {second : Except Failure β} (reflects : Reflects how first)
    (passes : ∀ failure, first = .error failure → second = .error failure)
    (made : ∀ result, first = .ok result → Own second) : Reflects how second := by
  cases how with
  | complete =>
      cases first with
      | ok result => exact made result rfl
      | error failure =>
          rw [passes failure rfl]
          exact reflects
  | ended =>
      rcases reflects with ⟨expected, obtained, rfl⟩
      exact ⟨expected, obtained, passes _ rfl⟩
  | failed failure => exact passes (.channel failure) reflects

theorem Reflects.map {how : Reading.Ending} {outcome : Except Failure α}
    (reflects : Reflects how outcome) (change : α → β) : Reflects how (outcome.map change) := by
  apply reflects.andThen
  · rintro failure rfl
    rfl
  · rintro result rfl
    trivial

theorem readFully_heeds (count : Nat) : (readFully count).Heeds Reflects := by
  apply (Reading.gatherAfter_heeds [] count).map
  rintro how ⟨bytes, _⟩ rfl
  exact (reflects_ending count bytes.length _).map _

theorem skipFully_heeds (count : Nat) : (skipFully count).Heeds Reflects := by
  apply (Reading.skipAfter_heeds 0 count).map
  rintro how ⟨skipped, _⟩ rfl
  exact reflects_ending count skipped _

variable {make : Bytes → Except Fault α} (own : ∀ bytes, Own ((make bytes).mapError Failure.fault))
include own

theorem readAs_heeds (count : Nat) : (readAs count make).Heeds Reflects := by
  apply (readFully_heeds count).map
  intro how outcome reflects
  apply reflects.andThen
  · rintro failure rfl
    rfl
  · rintro bytes rfl
    exact own bytes

theorem readLengthLed_heeds (settings : Settings) (order : ByteOrder) :
    (readLengthLed settings order make).Heeds Reflects := by
  apply (readFully_heeds 4).bind
  · rintro (failure | bytes) complete
    · exact .done complete
    · simp only
      split
      · exact readAs_heeds own _
      · exact .done trivial
  · intro how outcome short reflects
    cases how with
    | complete => exact absurd rfl short
    | ended =>
        rcases reflects with ⟨expected, obtained, rfl⟩
        exact ⟨_, rfl, expected, obtained, rfl⟩
    | failed failure =>
        cases reflects
        exact ⟨_, rfl, rfl⟩

end Making

/-- A request stops at the first pull that fails or finds the end, and tells which. -/
theorem read_heeds (settings : Settings) (request : Request) (order : Option ByteOrder) :
    (read settings request order).Heeds Reflects := by
  unfold read
  cases request with
  | scalar kind => exact readAs_heeds (fun _ => by trivial) _
  | narrow kind width =>
      rcases checkWidth_cases width kind.bits with ⟨-, checked⟩ | ⟨fault, refused, wide⟩
      · simp only [checked]
        exact readAs_heeds (fun _ => by trivial) _
      · simp only [refused]
        cases wide <;> exact .done trivial
  | text =>
      apply readLengthLed_heeds
      intro bytes
      cases Utf8.decode bytes <;> trivial
  | integer => exact readLengthLed_heeds (fun _ => by trivial) settings _
  | raw count => exact readAs_heeds (fun _ => by trivial) _
  | skip count => exact (skipFully_heeds count).map fun _ _ reflects => reflects.map _

theorem requestAll_always_first {settings : Settings} {early late : List ReadAct} {data : Bytes}
    {answers : List Answer} (finds : Finds settings (early ++ late) data answers) :
    ∃ first rest given others last, data = first ++ rest ∧ answers = given ++ others ∧
      Finds last late rest others ∧
      ∀ more, Always (fun result left => result = (given.map .ok, last) ∧ left = more)
        (requestAll settings early) (first ++ more) := by
  induction early generalizing settings data answers with
  | nil => exact ⟨[], data, [], answers, settings, rfl, rfl, finds, fun more => ⟨rfl, rfl⟩⟩
  | cons act early induction =>
      cases finds with
      | setOrder later => exact induction later
      | @request _ request own _ bytes data answer answers takes later =>
          rcases induction later with
            ⟨first, rest, given, others, last, rfl, rfl, findsLate, always⟩
          refine ⟨bytes ++ first, rest, answer :: given, others, last, (List.append_assoc ..).symm,
            rfl, findsLate, ?_⟩
          intro more
          rw [List.append_assoc]
          apply (takes (first ++ more)).bind
          rintro outcome left ⟨rfl, rfl⟩
          apply (always more).map
          rintro result left ⟨rfl, rfl⟩
          exact ⟨rfl, rfl⟩

end Value

end ByteStreams
