import ByteStreams.Command.Program
import ByteStreams.Proofs.Command.Files
import ByteStreams.Proofs.Command.Transcoding

/-! # The commands that encode and decode, from the arguments to the exit code

A run of the program opens its input, makes its output, runs the codec between them, delivers
what comes of it and reports. When none of its files and streams fails, what it leaves behind
depends on nothing but the signal and the bytes of the input: neither on the pieces in which
the input comes nor on the interruptions between them.
-/

namespace ByteStreams

namespace Command

open RunLength (LongestFront expand)

/-! ## Sessions -/

namespace Session

variable {α : Type} {before ready : Surroundings}

theorem run_noteAll (threshold : LogLevel) (entries : List LogEntry) (next : Session α)
    (surroundings : Surroundings) :
    (noteAll threshold entries next).run surroundings =
      next.run { surroundings with
        entries := (entries.filter fun entry => threshold.admits entry.level).reverse ++
          surroundings.entries } := by
  unfold noteAll
  induction entries.filter fun entry => threshold.admits entry.level generalizing surroundings with
  | nil => rfl
  | cons entry entries induction =>
      rw [List.foldr_cons, run, induction]
      simp

theorem run_opening {input : Place} (opens : before.Opens input)
    (next : Session (Except Refusal Unit)) :
    (CodecOrder.opening input next).run before = next.run before := by
  cases input with
  | standard => rfl
  | path path =>
      rcases opens with ⟨location, located⟩
      rw [CodecOrder.opening, run, located]
      rfl

theorem run_creating {output : Place} (makes : before.Makes output ready)
    (next : Session (Except Refusal Unit)) :
    (CodecOrder.creating output next).run before = next.run ready := by
  cases makes with
  | standard => rfl
  | file created ordinary =>
      rw [CodecOrder.creating, run, created]

theorem run_deliver {output : Place} (makes : before.Makes output ready) (data : Bytes)
    (next : Except Channel.PathFault Unit → Session α) :
    ∃ delivered, (deliver output data next).run ready = (next (.ok ())).run delivered ∧
      ready.Delivers data output delivered := by
  cases output with
  | standard => exact ⟨_, rfl, .standard⟩
  | path path =>
      rcases makes.store data with ⟨delivered, stored, delivers⟩
      exact ⟨delivered, by rw [run, stored], delivers⟩

theorem run_transcode {order : CodecOrder} {data : Bytes} (form : ReportForm)
    (threshold : LogLevel) (makes : before.Makes order.output ready)
    (supplies : ready.Supplies order.input data) :
    ∃ delivered earlier milliseconds,
      ready.Delivers (order.direction.written order.signal data) order.output delivered ∧
      (order.transcode form threshold).run ready =
        (match order.direction.outcome order.signal data with
        | .error refusal => .done (.error refusal)
        | .ok tally => order.conclude form threshold
            ⟨order.direction, order.signal, tally.bytesIn, tally.bytesOut, milliseconds⟩ :
              Session (Except Refusal Unit)).run
          { delivered with entries := earlier ++ delivered.entries } := by
  rcases supplies with ⟨source, feeds, faultless, rfl⟩
  rcases transcode_faultless order.direction order.signal faultless with ⟨sink, ran, written⟩
  rw [CodecOrder.transcode, run, run, feeds]
  simp only [Feed.front, ran]
  rcases run_deliver makes sink.accepted _ with ⟨delivered, went, delivers⟩
  rw [went, run_noteAll]
  rw [written] at delivers
  let noted := order.direction.entriesWithin order.signal (givenBefore sink (.ok ()))
    source.remaining
  refine ⟨delivered, (noted.filter fun entry => threshold.admits entry.level).reverse,
    Span.milliseconds ⟨delivered.time.nanoseconds - ready.time.nanoseconds⟩, delivers, ?_⟩
  simp only [Direction.delivered]
  cases order.direction.outcome order.signal source.remaining with
  | error refusal => rfl
  | ok tally => rfl

theorem run_conclude_standard {order : CodecOrder} (out : order.output = .standard)
    (form : ReportForm) (threshold : LogLevel) (report : CodecReport)
    (surroundings : Surroundings) :
    ∃ later,
      ((order.conclude form threshold report).bind exit).run surroundings =
        some (.success, { surroundings with entries := later ++ surroundings.entries }) ∧
      (threshold.admits .info = true → ∃ others, later = report.entry :: others) := by
  rw [run_bind, CodecOrder.conclude, out, run_noteAll, run_noteAll]
  refine ⟨_, congrArg some (Prod.ext rfl (by rw [← List.append_assoc])), ?_⟩
  intro admitted
  have kept : ([report.entry].filter fun entry => threshold.admits entry.level) =
      [report.entry] := by
    simp [CodecReport.entry, admitted]
  rw [kept]
  exact ⟨_, rfl⟩

theorem run_carryOut (invocation : Invocation) (build : Build) (surroundings : Surroundings) :
    (invocation.carryOut build).run surroundings =
      (invocation.order.carryOut build (invocation.form.getD (.default surroundings.terminal))
        invocation.threshold).run surroundings := by
  unfold Invocation.carryOut
  cases invocation.form <;> rfl

theorem run_conclude_path {order : CodecOrder} {path : String} (out : order.output = .path path)
    (form : ReportForm) (threshold : LogLevel) (report : CodecReport)
    (surroundings : Surroundings) :
    ∃ later,
      ((order.conclude form threshold report).bind exit).run surroundings =
        some (.success, { surroundings with entries := later ++ surroundings.entries }.emit
          (Utf8.encode (report.line form ++ "\n"))) := by
  rw [run_bind, CodecOrder.conclude, out, run_noteAll]
  exact ⟨_, rfl⟩

end Session

/-! ## Runs of the program -/

/-- A run of the program that is asked for a codec order, when no file and no stream that the
order names fails. -/
structure CodecRun where
  build : Build
  arguments : List String
  invocation : Invocation
  order : CodecOrder
  /-- What the run finds. -/
  before : Surroundings
  /-- What there is when the output is made. -/
  ready : Surroundings
  /-- The bytes of the input, which an output that is made elsewhere does not touch. -/
  data : Bytes
  asked : readArguments arguments = .ok invocation
  ordered : invocation.order = .codec order
  opens : before.Opens order.input
  makes : before.Makes order.output ready
  supplies : ready.Supplies order.input data

namespace CodecRun

def ending (run : CodecRun) : Option (Exit × Surroundings) :=
  (program run.build run.arguments).run run.before

def exitCode (run : CodecRun) : Option Nat := run.ending.map fun ended => ended.1.code

/-- What the run leaves behind. A run without end has left nothing behind yet. -/
def after (run : CodecRun) : Surroundings := (run.ending.map Prod.snd).getD run.before

def form (run : CodecRun) : ReportForm :=
  run.invocation.form.getD (.default run.before.terminal)

/-- The output is these bytes; on the standard output they come after what was there before. -/
def Writes (run : CodecRun) (bytes : Bytes) : Prop :=
  match run.order.output with
  | .standard => run.after.output = run.before.output ++ bytes
  | .path path => run.after.files.Holds path bytes

/-- The run complains of nothing and reports these counts: at the end of the log, if it admits
them, when the standard output belongs to the data, or else on the standard output. -/
def Reports (run : CodecRun) (bytesIn bytesOut : Nat) : Prop :=
  run.after.complaints = run.before.complaints ∧ ∃ milliseconds,
    let report : CodecReport :=
      ⟨run.order.direction, run.order.signal, bytesIn, bytesOut, milliseconds⟩
    match run.order.output with
    | .standard => run.invocation.threshold.admits .info = true →
        ∃ earlier, run.after.log = run.before.log ++ earlier ++ [report.entry]
    | .path _ => run.after.output =
        run.before.output ++ Utf8.encode (report.line run.form ++ "\n")

def Complains (run : CodecRun) (message : String) : Prop :=
  run.after.complaints = message :: run.before.complaints ∧
    (run.order.output ≠ .standard → run.after.output = run.before.output)

private theorem asks (direction : Direction) (signal : UInt8) :
    readArguments [direction.name, "--signal", toString signal.toNat] =
      .ok ⟨none, .text, .info, .codec ⟨direction, .standard, .standard, signal⟩⟩ := by
  have each : ∀ value : Fin 256, ∀ direction ∈ [Direction.encode, .decode],
      (readArguments [direction.name, "--signal", toString value.val]).toOption =
        some ⟨none, .text, .info,
          .codec ⟨direction, .standard, .standard, UInt8.ofNat value.val⟩⟩ := by
    decide +kernel
  have read := each signal.toFin direction (by cases direction <;> simp)
  have same : UInt8.ofNat signal.toFin.val = signal := UInt8.ofNat_toNat
  rw [same] at read
  change (readArguments [direction.name, "--signal", toString signal.toNat]).toOption = _ at read
  cases answer : readArguments [direction.name, "--signal", toString signal.toNat] with
  | error stop =>
      rw [answer] at read
      cases read
  | ok invocation =>
      rw [answer] at read
      exact congrArg Except.ok (Option.some.inj read)

variable (run : CodecRun)

/-- Up to its report or its complaint, a run is what the codec makes of the input. -/
theorem ending_eq :
    ∃ delivered earlier milliseconds,
      run.ready.Delivers (run.order.direction.written run.order.signal run.data) run.order.output
        delivered ∧
      run.ending =
        ((match run.order.direction.outcome run.order.signal run.data with
        | .error refusal => .done (.error refusal)
        | .ok tally => run.order.conclude run.form run.invocation.threshold
            ⟨run.order.direction, run.order.signal, tally.bytesIn, tally.bytesOut, milliseconds⟩ :
              Session (Except Refusal Unit)).bind Command.exit).run
          { delivered with entries := earlier ++ delivered.entries } := by
  rcases Session.run_transcode run.form run.invocation.threshold run.makes run.supplies
    with ⟨delivered, earlier, milliseconds, delivers, ran⟩
  refine ⟨delivered, earlier, milliseconds, delivers, ?_⟩
  have carried : ((run.invocation.carryOut run.build).run run.before) =
      (run.order.transcode run.form run.invocation.threshold).run run.ready := by
    rw [Session.run_carryOut, run.ordered, Order.carryOut, CodecOrder.carryOut,
      Session.run_opening run.opens, Session.run_creating run.makes]
    rfl
  rw [ending, program, run.asked]
  simp only
  rw [Session.run_bind, carried, ran, ← Session.run_bind]

theorem ends {exit : Exit} {after : Surroundings} (ended : run.ending = some (exit, after)) :
    run.exitCode = some exit.code ∧ run.after = after := by
  rw [exitCode, CodecRun.after, ended]
  exact ⟨rfl, rfl⟩

theorem finishes {tally : Tally}
    (done : run.order.direction.outcome run.order.signal run.data = .ok tally) :
    run.exitCode = some 0 ∧
      run.Writes (run.order.direction.written run.order.signal run.data) ∧
      run.Reports tally.bytesIn tally.bytesOut := by
  rcases run.ending_eq with ⟨delivered, earlier, milliseconds, delivers, ran⟩
  have makes := run.makes
  rcases makes.delivered delivers with ⟨entries, complaints⟩
  rw [done] at ran
  cases out : run.order.output with
  | standard =>
      rw [out] at makes delivers
      rcases Session.run_conclude_standard out run.form run.invocation.threshold
        ⟨run.order.direction, run.order.signal, tally.bytesIn, tally.bytesOut, milliseconds⟩
        { delivered with entries := earlier ++ delivered.entries } with ⟨later, concluded, noted⟩
      rcases run.ends (ran.trans concluded) with ⟨success, after⟩
      have given := makes.delivered_standard delivers
      simp only [Writes, Reports, after, out]
      refine ⟨success, given, complaints, milliseconds, ?_⟩
      intro admitted
      rcases noted admitted with ⟨others, rfl⟩
      refine ⟨(others ++ earlier).reverse, ?_⟩
      simp [Surroundings.log, entries]
  | path path =>
      rw [out] at makes delivers
      rcases Session.run_conclude_path out run.form run.invocation.threshold
        ⟨run.order.direction, run.order.signal, tally.bytesIn, tally.bytesOut, milliseconds⟩
        { delivered with entries := earlier ++ delivered.entries } with ⟨later, concluded⟩
      rcases run.ends (ran.trans concluded) with ⟨success, after⟩
      rcases makes.delivered_file delivers with ⟨output, holds⟩
      simp only [Writes, Reports, after, out]
      refine ⟨success, holds, complaints, milliseconds, ?_⟩
      rw [Surroundings.output_emit, ← output]
      rfl

theorem refuses {refusal : Refusal}
    (failed : run.order.direction.outcome run.order.signal run.data = .error refusal)
    (told : refusal.exit.isSudden = false) :
    run.exitCode = some refusal.exit.code ∧
      run.Writes (run.order.direction.written run.order.signal run.data) ∧
      run.Complains refusal.message := by
  rcases run.ending_eq with ⟨delivered, earlier, milliseconds, delivers, ran⟩
  have makes := run.makes
  rcases makes.delivered delivers with ⟨-, complaints⟩
  rw [failed] at ran
  have ended : run.ending = some (refusal.exit, { delivered with
      entries := earlier ++ delivered.entries
      complaints := refusal.message :: delivered.complaints }) := by
    rw [ran, Session.run_bind]
    simp [Session.run, Command.exit, told]
  rcases run.ends ended with ⟨code, after⟩
  cases out : run.order.output with
  | standard =>
      rw [out] at makes delivers
      have given := makes.delivered_standard delivers
      simp only [Writes, Complains, after, out]
      exact ⟨code, given, by rw [complaints], by simp⟩
  | path path =>
      rw [out] at makes delivers
      rcases makes.delivered_file delivers with ⟨output, holds⟩
      simp only [Writes, Complains, after, out]
      exact ⟨code, holds, by rw [complaints], fun _ => output⟩

variable {run}

theorem Writes.unique {bytes others : Bytes} (writes : run.Writes bytes)
    (also : run.Writes others) : bytes = others := by
  unfold Writes at writes also
  cases out : run.order.output with
  | standard =>
      simp only [out] at writes also
      exact List.append_cancel_left (writes.symm.trans also)
  | path path =>
      simp only [out] at writes also
      exact writes.unique also

theorem decodes (direction : run.order.direction = .decode) :
    ∃ frames front, LongestFront run.order.signal run.data frames front ∧
      run.Writes (expand frames) ∧
      match RunLength.decode run.order.signal run.data with
      | .ok data => expand frames = data ∧ run.exitCode = some 0 ∧
          run.Reports run.data.length (expand frames).length
      | .error fault =>
          run.exitCode = some 60 ∧ run.Complains ("decode failed: " ++ fault.message) := by
  rcases RunLength.longestFront_split run.order.signal run.data with ⟨front, longest, -⟩
  refine ⟨_, front, longest, ?_⟩
  cases decoded : RunLength.decode run.order.signal run.data with
  | ok data =>
      have done : run.order.direction.outcome run.order.signal run.data =
          .ok ⟨run.data.length, data.length⟩ := by
        rw [direction]
        simp only [Direction.outcome, decoded]
      rcases run.finishes done with ⟨success, writes, reports⟩
      have expansion := (RunLength.decode_eq_ok_iff.mp decoded).2.2
      rw [direction] at writes
      rw [← expansion] at reports
      exact ⟨writes, expansion, success, reports⟩
  | error fault =>
      have failed : run.order.direction.outcome run.order.signal run.data =
          .error ⟨.dataInvalid, "decode failed: " ++ fault.message⟩ := by
        rw [direction]
        simp only [Direction.outcome, decoded]
      rcases run.refuses failed rfl with ⟨invalid, writes, complains⟩
      rw [direction] at writes
      exact ⟨writes, invalid, complains⟩

private def byteByByte : Cutting where
  source content := ⟨content.flatMap fun byte => [.error (.bare .interrupted), .ok [byte]]⟩
  remaining_eq content := by
    induction content with
    | nil => rfl
    | cons byte rest induction => exact congrArg (byte :: ·) induction

private def around (files : FileSystem) (terminal : Bool) : Surroundings :=
  { Surroundings.new files ⟨[]⟩ with cutting := byteByByte, terminal := terminal }

end CodecRun

end Command

end ByteStreams
