import ByteStreams.Channel.Sink
import ByteStreams.Channel.Source

/-! # Programs on channels that do not fail

A faultless sink takes all it is offered in the end, and a faultless source gives all
its bytes before it ends. Both may interrupt calls, and neither says how much moves in
one call. What a program does on such channels is stated on its tree of calls alone,
so that scripts and pipes can serve it alike.
-/

namespace ByteStreams

namespace Channel

/-! ## Writing -/

namespace Writing

/-- When all its calls succeed, the program puts these bytes into the sink and has this
result. Only programs that try again after interruptions, and keep their sink, do so. -/
inductive Puts {α : Type} : Writing α → Bytes → α → Prop
  | done (result : α) : Puts (.done result) [] result
  | writeAll {data bytes : Bytes} {next : Except Failure Unit → Writing α} {result : α}
      (others : Puts (next (.ok ())) bytes result) :
      Puts (.writeAll data next) (data ++ bytes) result
  | settle {bytes : Bytes} {next : Except Failure Unit → Writing α} {result : α}
      (others : Puts (next (.ok ())) bytes result) : Puts (.settle next) bytes result

variable {α β : Type}

theorem Puts.bind {program : Writing α} {bytes more : Bytes} {result : α}
    {andThen : α → Writing β} {last : β} (first : program.Puts bytes result)
    (second : (andThen result).Puts more last) :
    (program.bind andThen).Puts (bytes ++ more) last := by
  induction first with
  | done => exact second
  | writeAll _ induction =>
      rw [List.append_assoc]
      exact .writeAll (induction second)
  | settle _ induction => exact .settle (induction second)

theorem Puts.unique {program : Writing α} {bytes more : Bytes} {result last : α}
    (first : program.Puts bytes result) (second : program.Puts more last) :
    bytes = more ∧ result = last := by
  induction first generalizing more with
  | done result =>
      cases second
      exact ⟨rfl, rfl⟩
  | @writeAll data _ _ _ _ induction =>
      cases second with
      | writeAll others =>
          rcases induction others with ⟨rfl, same⟩
          exact ⟨rfl, same⟩
  | settle _ induction =>
      cases second with
      | settle others => exact induction others

theorem Puts.conclude {program : Writing α} {bytes : Bytes} {result : α}
    {andThen : α → Writing β} {last : β} (first : program.Puts bytes result)
    (second : (andThen result).Puts [] last) : (program.bind andThen).Puts bytes last := by
  have both := first.bind second
  rwa [List.append_nil] at both

theorem Puts.map {program : Writing α} {bytes : Bytes} {result : α}
    (puts : program.Puts bytes result) (change : α → β) :
    (program.map change).Puts bytes (change result) :=
  puts.conclude (.done (change result))

theorem Puts.writeLast (data : Bytes) (last : Except Failure Unit → α) :
    Puts (.writeAll data fun answer => .done (last answer)) data (last (.ok ())) := by
  have puts : Puts (.writeAll data fun answer => .done (last answer)) (data ++ [])
    (last (.ok ())) := .writeAll (.done _)
  rwa [List.append_nil] at puts

/-- The same of a program that may give its sink up when it has put all its bytes. -/
inductive Delivers {α : Type} : Writing α → Bytes → α → Prop
  | done (result : α) : Delivers (.done result) [] result
  | writeAll {data bytes : Bytes} {next : Except Failure Unit → Writing α} {result : α}
      (others : Delivers (next (.ok ())) bytes result) :
      Delivers (.writeAll data next) (data ++ bytes) result
  | settle {bytes : Bytes} {next : Except Failure Unit → Writing α} {result : α}
      (others : Delivers (next (.ok ())) bytes result) : Delivers (.settle next) bytes result
  | release {next : Writing α} {result : α} (others : Delivers next [] result) :
      Delivers (.release next) [] result

theorem Puts.deliver {program : Writing α} {bytes more : Bytes} {result : α}
    {andThen : α → Writing β} {last : β} (first : program.Puts bytes result)
    (second : (andThen result).Delivers more last) :
    (program.bind andThen).Delivers (bytes ++ more) last := by
  induction first with
  | done => exact second
  | writeAll _ induction =>
      rw [List.append_assoc]
      exact .writeAll (induction second)
  | settle _ induction => exact .settle (induction second)

theorem Puts.delivers {program : Writing α} {bytes : Bytes} {result : α}
    (puts : program.Puts bytes result) : program.Delivers bytes result := by
  induction puts with
  | done result => exact .done result
  | writeAll _ induction => exact .writeAll induction
  | settle _ induction => exact .settle induction

theorem Puts.giveUp {program : Writing α} {bytes : Bytes} {result : α}
    {andThen : α → Writing β} {last : β} (first : program.Puts bytes result)
    (second : (andThen result).Delivers [] last) : (program.bind andThen).Delivers bytes last := by
  have both := first.deliver second
  rwa [List.append_nil] at both

theorem Delivers.map {program : Writing α} {bytes : Bytes} {result : α}
    (delivers : program.Delivers bytes result) (change : α → β) :
    (program.map change).Delivers bytes (change result) := by
  induction delivers with
  | done result => exact .done _
  | writeAll _ induction => exact .writeAll induction
  | settle _ induction => exact .settle induction
  | release _ induction => exact .release induction

end Writing

/-! ## Faultless sinks -/

def Reply.Faultless : Reply → Prop
  | .accept most => 0 < most
  | .refuse failure => failure.isInterruption = true

structure Sink.Faultless (sink : Sink) : Prop where
  replies : ∀ reply ∈ sink.replies, reply.Faultless
  flushReplies : ∀ failure, some failure ∈ sink.flushReplies → failure.isInterruption = true

namespace Sink

private theorem writeAllUnder_faultless (replies : List Reply)
    (each : ∀ reply ∈ replies, reply.Faultless) (sink : Sink) (data : Bytes) :
    ∃ after, sink.writeAllUnder data replies = (.ok (), after) ∧
      after.accepted = sink.accepted ++ data ∧ (∀ reply ∈ after.replies, reply.Faultless) ∧
      after.flushReplies = sink.flushReplies := by
  induction replies generalizing sink data with
  | nil =>
      by_cases nothing : data = []
      · subst nothing
        exact ⟨_, rfl, by simp [accepted], by simp, rfl⟩
      · refine ⟨{ sink with
          replies := []
          journal := .accepted data.length data :: sink.journal }, ?_, ?_, by simp, rfl⟩
        · simp [writeAllUnder, nothing]
        · simp [accepted, Event.taken]
  | cons reply replies induction =>
      have others : ∀ other ∈ replies, other.Faultless := fun other member =>
        each other (List.mem_cons_of_mem _ member)
      have first := each reply (List.mem_cons_self ..)
      by_cases nothing : data = []
      · subst nothing
        exact ⟨_, rfl, by simp [accepted], each, rfl⟩
      · cases reply with
        | accept most =>
            have some' : most ≠ 0 := Nat.ne_of_gt first
            rcases induction others
                { sink with
                  replies := replies
                  journal := .accepted data.length (data.take most) :: sink.journal }
                (data.drop most) with ⟨after, run, taken, left, flushes⟩
            refine ⟨after, ?_, ?_, left, flushes⟩
            · simpa [writeAllUnder, nothing, some'] using run
            · rw [taken]
              simp [accepted, Event.taken]
        | refuse failure =>
            have again : failure.isInterruption = true := first
            rcases induction others
                { sink with
                  replies := replies
                  journal := .refused data.length failure :: sink.journal }
                data with ⟨after, run, taken, left, flushes⟩
            refine ⟨after, ?_, ?_, left, flushes⟩
            · simpa [writeAllUnder, nothing, again] using run
            · rw [taken]
              simp [accepted, Event.taken]

theorem Faultless.writeAll {sink : Sink} (faultless : sink.Faultless) (data : Bytes) :
    ∃ after, sink.writeAll data = (.ok (), after) ∧ after.Faultless ∧
      after.accepted = sink.accepted ++ data := by
  rcases writeAllUnder_faultless sink.replies faultless.replies sink data with
    ⟨after, run, taken, left, flushes⟩
  exact ⟨after, run, ⟨left, by rw [flushes]; exact faultless.flushReplies⟩, taken⟩

private theorem settleUnder_faultless (replies : List (Option Failure))
    (each : ∀ failure, some failure ∈ replies → failure.isInterruption = true) (sink : Sink) :
    ∃ after, sink.settleUnder replies = (.ok (), after) ∧
      after.accepted = sink.accepted ∧ after.replies = sink.replies ∧
      ∀ failure, some failure ∈ after.flushReplies → failure.isInterruption = true := by
  induction replies generalizing sink with
  | nil => exact ⟨_, rfl, by simp [accepted, Event.taken], rfl, by simp⟩
  | cons reply replies induction =>
      have others : ∀ failure, some failure ∈ replies → failure.isInterruption = true :=
        fun failure member => each failure (List.mem_cons_of_mem _ member)
      cases reply with
      | none => exact ⟨_, rfl, by simp [accepted, Event.taken], rfl, others⟩
      | some failure =>
          have again := each failure (List.mem_cons_self ..)
          rcases induction others
              { sink with
                flushReplies := replies
                journal := .flushRefused failure :: sink.journal } with
            ⟨after, run, taken, same, left⟩
          refine ⟨after, ?_, ?_, same, left⟩
          · simpa [settleUnder, again] using run
          · rw [taken]
            simp [accepted, Event.taken]

theorem Faultless.settle {sink : Sink} (faultless : sink.Faultless) :
    ∃ after, sink.settle = (.ok (), after) ∧ after.Faultless ∧
      after.accepted = sink.accepted := by
  rcases settleUnder_faultless sink.flushReplies faultless.flushReplies sink with
    ⟨after, run, taken, same, left⟩
  exact ⟨after, run, ⟨by rw [same]; exact faultless.replies, left⟩, taken⟩

end Sink

/-- A sink that takes all bytes at once, and always passes them on. -/
structure Sink.Compliant (sink : Sink) : Prop where
  replies : sink.replies = []
  flushReplies : sink.flushReplies = []

namespace Sink.Compliant

theorem accepting : Sink.accepting.Compliant := ⟨rfl, rfl⟩

variable {sink : Sink}

theorem faultless (compliant : sink.Compliant) : sink.Faultless := by
  constructor
  · rw [compliant.replies]
    simp
  · rw [compliant.flushReplies]
    simp

theorem writeAll (compliant : sink.Compliant) {data : Bytes} (some' : data ≠ []) :
    ∃ after, sink.writeAll data = (.ok (), after) ∧ after.Compliant ∧
      after.accepted = sink.accepted ++ data := by
  refine ⟨{ sink with
    replies := []
    journal := .accepted data.length data :: sink.journal }, ?_, ⟨rfl, compliant.flushReplies⟩, ?_⟩
  · simp [Sink.writeAll, compliant.replies, Sink.writeAllUnder, some']
  · simp [Sink.accepted, Event.taken]

theorem flush (compliant : sink.Compliant) :
    ∃ after, sink.flush = (.ok (), after) ∧ after.accepted = sink.accepted := by
  refine ⟨{ sink with journal := .flushed :: sink.journal }, ?_, ?_⟩
  · simp [Sink.flush, compliant.flushReplies]
  · simp [Sink.accepted, Event.taken]

end Sink.Compliant

/-- On a faultless sink, a program does what its tree says. -/
theorem Writing.Delivers.run {α : Type} {program : Writing α} {bytes : Bytes} {result : α}
    (delivers : program.Delivers bytes result) {sink : Sink} (faultless : sink.Faultless) :
    ∃ after, program.run sink = (result, after) ∧ after.Faultless ∧
      after.accepted = sink.accepted ++ bytes := by
  induction delivers generalizing sink with
  | done => exact ⟨sink, rfl, faultless, by simp⟩
  | @writeAll data bytes next result _ induction =>
      rcases faultless.writeAll data with ⟨middle, taken, middleFaultless, accepted⟩
      rcases induction middleFaultless with ⟨after, run, afterFaultless, more⟩
      refine ⟨after, ?_, afterFaultless, ?_⟩
      · rw [Writing.run, taken]
        exact run
      · rw [more, accepted, List.append_assoc]
  | settle _ induction =>
      rcases faultless.settle with ⟨middle, passed, middleFaultless, accepted⟩
      rcases induction middleFaultless with ⟨after, run, afterFaultless, more⟩
      refine ⟨after, ?_, afterFaultless, ?_⟩
      · rw [Writing.run, passed]
        exact run
      · rw [more, accepted]
  | release _ induction =>
      have released : sink.release.Faultless := ⟨faultless.replies, faultless.flushReplies⟩
      rcases induction released with ⟨after, run, afterFaultless, more⟩
      refine ⟨after, run, afterFaultless, ?_⟩
      rw [more]
      simp [Sink.release, Sink.accepted, Event.taken]

theorem Writing.Puts.run {α : Type} {program : Writing α} {bytes : Bytes} {result : α}
    (puts : program.Puts bytes result) {sink : Sink} (faultless : sink.Faultless) :
    ∃ after, program.run sink = (result, after) ∧ after.Faultless ∧
      after.accepted = sink.accepted ++ bytes :=
  puts.delivers.run faultless

/-! ## Reading -/

/-- A source that has `data` to give answers a call for `limit` bytes with a piece of it,
which is empty only if none are asked for or none are left. -/
structure Served (limit : Nat) (data piece rest : Bytes) : Prop where
  joined : data = piece ++ rest
  fits : piece.length ≤ limit
  nothing : piece = [] → limit = 0 ∨ data = []

theorem Served.of_nil {limit : Nat} {piece rest : Bytes} (served : Served limit [] piece rest) :
    piece = [] ∧ rest = [] :=
  List.append_eq_nil_iff.mp served.joined.symm

namespace Reading

variable {α β : Type}

/-- However a faultless source cuts `data`, the program ends with a result, and with
bytes left in the source, of which `after` holds. -/
def Always (after : α → Bytes → Prop) : Reading α → Bytes → Prop
  | .done result, data => after result data
  | .pull limit next, data =>
      ∀ piece rest, Served limit data piece rest → Always after (next (.ok piece)) rest
  | .read limit next, data =>
      (∀ piece rest, Served limit data piece rest → Always after (next (.ok piece)) rest) ∧
        ∀ failure : Failure, failure.isInterruption = true →
          Always after (next (.error failure)) data

theorem Always.mono {weak strong : α → Bytes → Prop}
    (weaken : ∀ result rest, strong result rest → weak result rest)
    {program : Reading α} {data : Bytes} (always : Always strong program data) :
    Always weak program data := by
  induction program generalizing data with
  | done result => exact weaken result data always
  | pull limit next induction =>
      intro piece rest served
      exact induction _ (always piece rest served)
  | read limit next induction =>
      refine ⟨?_, ?_⟩
      · intro piece rest served
        exact induction _ (always.1 piece rest served)
      · intro failure interruption
        exact induction _ (always.2 failure interruption)

theorem Always.bind {middle : α → Bytes → Prop} {after : β → Bytes → Prop}
    {program : Reading α} {andThen : α → Reading β} {data : Bytes}
    (first : Always middle program data)
    (second : ∀ result rest, middle result rest → Always after (andThen result) rest) :
    Always after (program.bind andThen) data := by
  induction program generalizing data with
  | done result => exact second result data first
  | pull limit next induction =>
      intro piece rest served
      exact induction _ (first piece rest served)
  | read limit next induction =>
      refine ⟨?_, ?_⟩
      · intro piece rest served
        exact induction _ (first.1 piece rest served)
      · intro failure interruption
        exact induction _ (first.2 failure interruption)

theorem Always.map {middle : α → Bytes → Prop} {after : β → Bytes → Prop}
    {program : Reading α} {change : α → β} {data : Bytes} (first : Always middle program data)
    (second : ∀ result rest, middle result rest → after (change result) rest) :
    Always after (program.map change) data :=
  first.bind second

end Reading

/-! ## Faultless sources -/

/-- A source that gives bytes in every chunk, and fails only to be tried again. -/
def Source.Faultless (source : Source) : Prop :=
  ∀ item ∈ source.script, match item with
    | .ok chunk => chunk ≠ []
    | .error failure => failure.isInterruption = true

namespace Source

@[simp] theorem remaining_nil : remaining ⟨[]⟩ = [] := rfl

@[simp] theorem remaining_ok_cons (chunk : Bytes) (script : List (Except Failure Bytes)) :
    remaining ⟨.ok chunk :: script⟩ = chunk ++ remaining ⟨script⟩ := rfl

@[simp] theorem remaining_error_cons (failure : Failure)
    (script : List (Except Failure Bytes)) :
    remaining ⟨.error failure :: script⟩ = remaining ⟨script⟩ := rfl

theorem Faultless.tail {item : Except Failure Bytes} {script : List (Except Failure Bytes)}
    (faultless : Faultless ⟨item :: script⟩) : Faultless ⟨script⟩ :=
  fun other member => faultless other (List.mem_cons_of_mem _ member)

theorem Faultless.take {limit : Nat} (asked : limit ≠ 0) {chunk : Bytes}
    {script : List (Except Failure Bytes)} (faultless : Faultless ⟨.ok chunk :: script⟩) :
    Served limit (chunk ++ remaining ⟨script⟩) (take limit chunk script).1
        (take limit chunk script).2.remaining ∧
      (take limit chunk script).2.Faultless := by
  have bytes : chunk ≠ [] := faultless _ (List.mem_cons_self ..)
  have some' : chunk.take limit ≠ [] := by
    rw [ne_eq, List.take_eq_nil_iff]
    exact fun either => either.elim asked bytes
  unfold Source.take
  simp only [List.splitAt_eq]
  split
  · rename_i nothing
    have short := List.drop_eq_nil_iff.mp (List.isEmpty_iff.mp nothing)
    have all := List.take_of_length_le short
    exact ⟨⟨by rw [all], by rw [all]; exact short, fun none' => absurd none' some'⟩,
      faultless.tail⟩
  · rename_i kept
    refine ⟨⟨?_, List.length_take_le .., fun none' => absurd none' some'⟩, ?_⟩
    · rw [remaining_ok_cons, ← List.append_assoc, List.take_append_drop]
    · intro item member
      rcases List.mem_cons.mp member with rfl | member
      · simpa using kept
      · exact faultless.tail item member

private theorem pullFrom_faultless {limit : Nat} (asked : limit ≠ 0)
    (script : List (Except Failure Bytes)) (faultless : Faultless ⟨script⟩) :
    ∃ piece after, pullFrom limit script = (.ok piece, after) ∧
      Served limit (remaining ⟨script⟩) piece after.remaining ∧ after.Faultless := by
  induction script with
  | nil => exact ⟨[], ⟨[]⟩, rfl, ⟨rfl, Nat.zero_le _, fun _ => .inr rfl⟩, faultless⟩
  | cons item script induction =>
      cases item with
      | error failure =>
          have again : failure.isInterruption = true := faultless _ (List.mem_cons_self ..)
          rw [pullFrom, if_pos again]
          exact induction faultless.tail
      | ok chunk =>
          have taken := faultless.take asked
          exact ⟨_, _, rfl, taken.1, taken.2⟩

theorem Faultless.pull {source : Source} (faultless : source.Faultless) (limit : Nat) :
    ∃ piece after, source.pull limit = (.ok piece, after) ∧
      Served limit source.remaining piece after.remaining ∧ after.Faultless := by
  by_cases asked : limit = 0
  · refine ⟨[], source, if_pos asked, ⟨rfl, Nat.zero_le _, fun _ => .inl asked⟩, faultless⟩
  · rw [Source.pull, if_neg asked]
    exact pullFrom_faultless asked source.script faultless

theorem Faultless.read {source : Source} (faultless : source.Faultless) (limit : Nat) :
    (∃ piece after, source.read limit = (.ok piece, after) ∧
        Served limit source.remaining piece after.remaining ∧ after.Faultless) ∨
      ∃ failure after, source.read limit = (.error failure, after) ∧
        failure.isInterruption = true ∧ after.remaining = source.remaining ∧
        after.Faultless := by
  by_cases asked : limit = 0
  · exact .inl ⟨[], source, if_pos asked, ⟨rfl, Nat.zero_le _, fun _ => .inl asked⟩, faultless⟩
  · rcases source with ⟨script⟩
    rw [Source.read, if_neg asked]
    cases script with
    | nil => exact .inl ⟨[], ⟨[]⟩, rfl, ⟨rfl, Nat.zero_le _, fun _ => .inr rfl⟩, faultless⟩
    | cons item script =>
        cases item with
        | error failure =>
            exact .inr ⟨failure, ⟨script⟩, rfl, faultless _ (List.mem_cons_self ..), rfl,
              faultless.tail⟩
        | ok chunk =>
            have taken := faultless.take asked
            exact .inl ⟨_, _, rfl, taken.1, taken.2⟩

end Source

/-- On a faultless source, a program ends as its tree says. -/
theorem Reading.Always.run {α : Type} {after : α → Bytes → Prop} {program : Reading α}
    {source : Source} (always : Reading.Always after program source.remaining)
    (faultless : source.Faultless) :
    after (program.run source).1 (program.run source).2.remaining ∧
      (program.run source).2.Faultless := by
  induction program generalizing source with
  | done result => exact ⟨always, faultless⟩
  | pull limit next induction =>
      rcases faultless.pull limit with ⟨piece, left, pulled, served, leftFaultless⟩
      rw [Reading.run, pulled]
      exact induction _ (always piece _ served) leftFaultless
  | read limit next induction =>
      rcases faultless.read limit with ⟨piece, left, pulled, served, leftFaultless⟩ |
        ⟨failure, left, pulled, interruption, same, leftFaultless⟩
      · rw [Reading.run, pulled]
        exact induction _ (always.1 piece _ served) leftFaultless
      · have interrupted := always.2 failure interruption
        rw [← same] at interrupted
        rw [Reading.run, pulled]
        exact induction _ interrupted leftFaultless

end Channel

end ByteStreams
