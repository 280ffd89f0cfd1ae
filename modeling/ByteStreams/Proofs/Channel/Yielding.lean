import ByteStreams.Proofs.Channel.Calls
import ByteStreams.Proofs.Channel.Faultless

/-! # Programs that yield to a failure

When a call of such a program fails, the program offers no more bytes and reports that.
So any sink takes a front of what a faultless sink gets from the program, and all of it
unless a failure is reported.
-/

namespace ByteStreams

namespace Channel

/-- A sink that has taken the same and will not fail. -/
def Sink.generous (sink : Sink) : Sink := { sink with replies := [], flushReplies := [] }

theorem Sink.faultless_generous (sink : Sink) : sink.generous.Faultless :=
  ⟨by simp [generous], by simp [generous]⟩

theorem Noted.bytesTaken_eq {calls : List Call} {events : List Event}
    (noted : Noted calls events) : bytesTaken events = calls.flatMap Call.taken := by
  induction noted with
  | nil => rfl
  | cons first _ induction => rw [bytesTaken_append, first.taken, induction, List.flatMap_cons]

namespace Writing

variable {α β : Type} {reports : α → Prop} {gives : Writing α → Prop} {passes : Writing β → Prop}

/-- The program offers nothing, and its result reports a failure. -/
inductive Quits (reports : α → Prop) : Writing α → Prop
  | done {result : α} (reported : reports result) : Quits reports (.done result)
  | release {next : Writing α} (others : Quits reports next) : Quits reports (.release next)

/-- If a call fails, what is left of the program gives in. -/
inductive Yields (gives : Writing α → Prop) : Writing α → Prop
  | done (result : α) : Yields gives (.done result)
  | writeAll {data : Bytes} {next : Except Failure Unit → Writing α}
      (others : Yields gives (next (.ok ()))) (fails : ∀ failure, gives (next (.error failure))) :
      Yields gives (.writeAll data next)
  | settle {next : Except Failure Unit → Writing α} (others : Yields gives (next (.ok ())))
      (fails : ∀ failure, gives (next (.error failure))) : Yields gives (.settle next)
  | release {next : Writing α} (others : Yields gives next) : Yields gives (.release next)

theorem Quits.bind {passed : β → Prop} {program : Writing α} {andThen : α → Writing β}
    (quits : program.Quits reports)
    (passes : ∀ failed, reports failed → (andThen failed).Quits passed) :
    (program.bind andThen).Quits passed := by
  induction quits with
  | done reported => exact passes _ reported
  | release _ induction => exact .release induction

theorem Quits.mono {weak : α → Prop} (weaken : ∀ result, reports result → weak result)
    {program : Writing α} (quits : program.Quits reports) : program.Quits weak := by
  induction quits with
  | done reported => exact .done (weaken _ reported)
  | release _ induction => exact .release induction

theorem Yields.bind {program : Writing α} {andThen : α → Writing β} {bytes : Bytes} {result : α}
    (yields : program.Yields gives) (puts : program.Puts bytes result)
    (pass : ∀ failed, gives failed → passes (failed.bind andThen))
    (second : (andThen result).Yields passes) : (program.bind andThen).Yields passes := by
  induction puts with
  | done result => exact second
  | writeAll _ induction =>
      cases yields with
      | writeAll others fails =>
          exact .writeAll (induction others second) fun failure => pass _ (fails failure)
  | settle _ induction =>
      cases yields with
      | settle others fails =>
          exact .settle (induction others second) fun failure => pass _ (fails failure)

theorem Yields.map {program : Writing α} {change : α → β} (yields : program.Yields gives)
    (pass : ∀ failed, gives failed → passes (failed.map change)) :
    (program.map change).Yields passes := by
  induction yields with
  | done result => exact .done _
  | writeAll _ fails induction => exact .writeAll induction fun failure => pass _ (fails failure)
  | settle _ fails induction => exact .settle induction fun failure => pass _ (fails failure)
  | release _ induction => exact .release induction

theorem Yields.mono {weak : Writing α → Prop} {program : Writing α}
    (yields : program.Yields gives) (weaken : ∀ failed, gives failed → weak failed) :
    program.Yields weak := by
  induction yields with
  | done result => exact .done result
  | writeAll _ fails induction => exact .writeAll induction fun failure => weaken _ (fails failure)
  | settle _ fails induction => exact .settle induction fun failure => weaken _ (fails failure)
  | release _ induction => exact .release induction

/-- Whatever the sink answers, the program has a bad result. -/
def Dooms (bad : α → Prop) : Writing α → Prop
  | .done result => bad result
  | .write _ next => ∀ answer, Dooms bad (next answer)
  | .writeAll _ next | .flush next | .settle next => ∀ answer, Dooms bad (next answer)
  | .release next => Dooms bad next

theorem Dooms.bind {bad : α → Prop} {worse : β → Prop} {program : Writing α}
    {andThen : α → Writing β} (dooms : program.Dooms bad)
    (passes : ∀ result, bad result → (andThen result).Dooms worse) :
    (program.bind andThen).Dooms worse := by
  induction program with
  | done result => exact passes result dooms
  | write data next induction => exact fun answer => induction answer (dooms answer)
  | writeAll data next induction => exact fun answer => induction answer (dooms answer)
  | flush next induction => exact fun answer => induction answer (dooms answer)
  | settle next induction => exact fun answer => induction answer (dooms answer)
  | release next induction => exact induction dooms

theorem dooms_of_all {bad : α → Prop} (all : ∀ result, bad result) (program : Writing α) :
    program.Dooms bad := by
  induction program with
  | done result => exact all result
  | write data next induction => exact induction
  | writeAll data next induction => exact induction
  | flush next induction => exact induction
  | settle next induction => exact induction
  | release next induction => exact induction

theorem Quits.dooms {program : Writing α} (quits : program.Quits reports) :
    program.Dooms reports := by
  induction quits with
  | done reported => exact reported
  | release _ induction => exact induction

theorem Quits.goes {program : Writing α} {calls : List Call} {last : α}
    (quits : program.Quits reports) (goes : program.Goes calls last) :
    reports last ∧ calls.flatMap Call.taken = [] := by
  induction quits generalizing calls with
  | done reported =>
      cases goes
      exact ⟨reported, rfl⟩
  | release _ induction =>
      cases goes with
      | release others =>
          have quit := induction others
          exact quit

theorem Yields.goes {program : Writing α} {bytes : Bytes} {result last : α} {calls : List Call}
    (yields : program.Yields (Quits reports)) (delivers : program.Delivers bytes result)
    (goes : program.Goes calls last) :
    last = result ∧ calls.flatMap Call.taken = bytes ∨
      reports last ∧ calls.flatMap Call.taken <+: bytes := by
  induction delivers generalizing calls with
  | done result =>
      cases goes
      exact .inl ⟨rfl, rfl⟩
  | @writeAll data bytes next result _ induction =>
      cases yields with
      | writeAll others fails =>
          cases goes with
          | writeAll writes later =>
              rw [List.flatMap_cons]
              cases writes with
              | all =>
                  rcases induction others later with ⟨same, taken⟩ | ⟨reported, taken⟩
                  · exact .inl ⟨same, by rw [taken]; rfl⟩
                  · exact .inr ⟨reported, (List.prefix_append_right_inj data).mpr taken⟩
              | part joined =>
                  rcases (fails _).goes later with ⟨reported, nothing⟩
                  rw [nothing, List.append_nil, joined, List.append_assoc]
                  exact .inr ⟨reported, List.prefix_append ..⟩
  | settle _ induction =>
      cases yields with
      | settle others fails =>
          cases goes with
          | settle answer later =>
              cases answer with
              | ok =>
                  have either := induction others later
                  exact either
              | error failure =>
                  rcases (fails failure).goes later with ⟨reported, nothing⟩
                  have taken : Call.taken (.settled (.error failure)) = [] := rfl
                  rw [List.flatMap_cons, taken, nothing]
                  exact .inr ⟨reported, List.nil_prefix⟩
  | release _ induction =>
      cases yields with
      | release others =>
          cases goes with
          | release later =>
              have either := induction others later
              exact either

/-- Whatever a sink does, it takes a front of what the program puts into a faultless one, and
all of it unless the program reports a failure. -/
theorem Yields.run {program : Writing α} {bytes : Bytes} {result : α}
    (yields : program.Yields (Quits reports)) (delivers : program.Delivers bytes result)
    (sink : Sink) :
    (program.run sink).1 = result ∧ (program.run sink).2.accepted = sink.accepted ++ bytes ∨
      reports (program.run sink).1 ∧
        (program.run sink).2.accepted <+: sink.accepted ++ bytes := by
  rcases program.run_goes sink with ⟨calls, events, goes, noted, grown⟩
  have accepted : (program.run sink).2.accepted = sink.accepted ++ calls.flatMap Call.taken := by
    rw [← noted.bytesTaken_eq]
    exact (congrArg bytesTaken grown).trans (bytesTaken_append ..)
  rw [accepted]
  rcases yields.goes delivers goes with ⟨same, taken⟩ | ⟨reported, taken⟩
  · exact .inl ⟨same, by rw [taken]⟩
  · exact .inr ⟨reported, (List.prefix_append_right_inj _).mpr taken⟩

end Writing

end Channel

end ByteStreams
