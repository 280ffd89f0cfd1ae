import ByteStreams.Proofs.Channel.Calls
import ByteStreams.Proofs.RunLength.Relaying

/-! # What a sink has of the data when its writes fail

A write that fails takes the encoder's staged frames with it, the end of a frame that
the sink has begun among them. Until the sink takes more, its whole frames still stand for
a beginning of the data. What later calls and the end of the encoder write then goes on
in the middle of that frame.
-/

namespace ByteStreams

namespace RunLength

open Channel (Call Event Sink Unbroken Whole Writing bytesTaken intact
  intact_append_of_not_whole intact_append_of_nothing intact_append_of_whole
  intact_singleton not_whole_of_mem whole_append)

/-! ## Fronts of code -/

/-- The whole frames of the code decode without error to a beginning of the data. -/
structure Shows (signal : UInt8) (data code : Bytes) : Prop where
  sound : (split signal code).fault = none
  isFront : expand (split signal code).frames <+: data

instance (signal : UInt8) (data code : Bytes) : Decidable (Shows signal data code) :=
  decidable_of_iff ((split signal code).fault = none ∧ expand (split signal code).frames <+: data)
    ⟨fun ⟨sound, isFront⟩ => ⟨sound, isFront⟩, fun ⟨sound, isFront⟩ => ⟨sound, isFront⟩⟩

theorem shows_nil (signal : UInt8) (data : Bytes) : Shows signal data [] :=
  ⟨by rw [split_nil], by rw [split_nil]; exact List.nil_prefix⟩

theorem Shows.mono {signal : UInt8} {data code : Bytes} (shows : Shows signal data code)
    (more : Bytes) : Shows signal (data ++ more) code :=
  ⟨shows.sound, shows.isFront.trans (List.prefix_append data more)⟩

theorem split_append_of_fault {signal : UInt8} {code : Bytes} {fault : Fault}
    (refused : (split signal code).fault = some fault) (more : Bytes) :
    (split signal (code ++ more)).fault = some fault := by
  induction code using (measure List.length).wf.induction with
  | h code induction =>
      cases parsed : Frame.parse signal code with
      | incomplete =>
          rw [split_of_incomplete parsed] at refused
          cases refused
      | malformed flaw =>
          rw [split_of_malformed parsed] at refused
          rw [split_of_malformed (Frame.parse_append_of_malformed parsed more)]
          exact refused
      | frame frame size rest =>
          rw [split_of_frame parsed] at refused
          rw [split_of_frame (Frame.parse_append_of_frame parsed more)]
          exact induction rest (Frame.length_lt_of_parse parsed) refused

theorem split_frames_isPrefix (signal : UInt8) (code more : Bytes) :
    (split signal code).frames <+: (split signal (code ++ more)).frames := by
  rcases spells_split signal code with ⟨whole, spells, joined⟩
  have longer := spells.split_append ((split signal code).rest ++ more)
  rw [← List.append_assoc, ← joined] at longer
  rw [longer]
  exact List.prefix_append _ _

theorem Shows.front {signal : UInt8} {data code front : Bytes} (shows : Shows signal data code)
    (isFront : front <+: code) : Shows signal data front := by
  rcases isFront with ⟨more, rfl⟩
  constructor
  · cases fault : (split signal front).fault with
    | none => rfl
    | some flaw =>
        have refused := split_append_of_fault fault more
        rw [shows.sound] at refused
        cases refused
  · rcases split_frames_isPrefix signal front more with ⟨others, joined⟩
    have larger := shows.isFront
    rw [← joined, expand_append] at larger
    exact (List.prefix_append _ _).trans larger

/-- What is carried shows, and so does every front of it and of the frame that is due. -/
theorem Carried.shows {signal : UInt8} {data code front : Bytes} {pending : Pending}
    (carried : Carried signal data code pending) (isFront : front <+: code) :
    Shows signal data front := by
  rcases carried.spells with ⟨frames, spells, expansion⟩
  have whole : Shows signal data (code ++ encode signal pending.data) := by
    have all : expand (split signal (code ++ encode signal pending.data)).frames = data := by
      rw [spells.split_eq, expansion]
    exact ⟨congrArg Split.fault spells.split_eq, [], (List.append_nil _).trans all⟩
  exact whole.front (isFront.trans (List.prefix_append _ _))

namespace Encoder

/-! ## Open encoders -/

/-- An open encoder was given the data and made these calls. Unless one of them broke off,
the bytes that it put, with those that it has staged, stand for the data. -/
structure Tracks (encoder : Encoder) (signal : UInt8) (data : Bytes) (calls : List Call) :
    Prop where
  sameSignal : encoder.signal = signal
  opened : encoder.isOpen = true
  fits : encoder.pending.Fits
  shows : Shows signal data (intact calls)
  carried : Whole calls →
    Carried signal data (intact calls ++ encoder.staged.toList) encoder.pending

/-- The same of an encoder that has cleared its stage. If that failed, a call broke off. -/
structure Cleared (encoder : Encoder) (signal : UInt8) (data : Bytes) (calls : List Call)
    (outcome : Except Failure Unit) : Prop where
  tracks : encoder.Tracks signal data calls
  unstaged : encoder.staged = #[]
  broken : outcome ≠ .ok () → ¬ Whole calls

variable {encoder after : Encoder} {signal : UInt8} {data : Bytes} {calls more : List Call}
  {outcome : Except Failure Unit}

namespace Tracks

theorem give (tracks : encoder.Tracks signal data calls) (broken : ¬ Whole calls)
    (given : Bytes) : encoder.Tracks signal (data ++ given) calls :=
  ⟨tracks.sameSignal, tracks.opened, tracks.fits, tracks.shows.mono given,
    fun whole => absurd whole broken⟩

theorem quiet (tracks : encoder.Tracks signal data calls) (nothing : intact more = []) :
    encoder.Tracks signal data (calls ++ more) := by
  have same := intact_append_of_nothing nothing calls
  refine ⟨tracks.sameSignal, tracks.opened, tracks.fits, ?_, ?_⟩
  · rw [same]
    exact tracks.shows
  · intro whole
    rw [same]
    exact tracks.carried (whole_append.mp whole).1

theorem extend (tracks : encoder.Tracks signal data calls) {run : Run} (some' : 0 < run.count) :
    ∃ middle, encoder.extend run = (.ok (), middle) ∧
      middle.Tracks signal (data ++ run.expand) calls := by
  rcases tracks.sameSignal with rfl
  rcases encoder.extend_eq tracks.fits run some' with ⟨pending, code, extended, fits, passes⟩
  refine ⟨_, extended, rfl, tracks.opened, fits, tracks.shows.mono run.expand, ?_⟩
  intro whole
  have carried := (tracks.carried whole).pass passes
  simpa [advanced, List.append_assoc] using carried

theorem stagePending (tracks : encoder.Tracks signal data calls) :
    ∃ middle, encoder.stagePending = (.ok (), middle) ∧ middle.Tracks signal data calls ∧
      middle.pending = .idle := by
  rcases tracks.sameSignal with rfl
  refine ⟨_, stagePending_eq encoder tracks.fits,
    ⟨rfl, tracks.opened, trivial, tracks.shows, ?_⟩, rfl⟩
  intro whole
  have carried := (tracks.carried whole).flush
  simpa [advanced, List.append_assoc] using carried

private theorem shows_write (tracks : encoder.Tracks signal data calls) {call : Call}
    {answer : Except Channel.Failure Unit} (writes : call.Writes encoder.staged.toList answer) :
    Shows signal data (intact (calls ++ [call])) := by
  by_cases whole : Whole calls
  · rw [intact_append_of_whole whole, intact_singleton]
    apply (tracks.carried whole).shows
    apply (List.prefix_append_right_inj _).mpr
    cases writes with
    | all => exact List.prefix_rfl
    | part joined => exact ⟨_, joined.symm⟩
  · rw [intact_append_of_not_whole whole]
    exact tracks.shows

private theorem write (tracks : encoder.Tracks signal data calls) {call : Call}
    {answer : Except Channel.Failure Unit} (writes : call.Writes encoder.staged.toList answer) :
    Cleared { encoder with staged := #[] } signal data (calls ++ [call])
      (answer.mapError Failure.channel) := by
  have shows := tracks.shows_write writes
  cases writes with
  | all =>
      refine ⟨⟨tracks.sameSignal, tracks.opened, tracks.fits, shows, ?_⟩, rfl,
        fun failed => absurd rfl failed⟩
      intro whole
      have before := (whole_append.mp whole).1
      rw [intact_append_of_whole before, intact_singleton]
      simpa [Call.taken] using tracks.carried before
  | @part taken left failure =>
      have broken : ¬ Whole (calls ++ [.cut taken left failure]) :=
        not_whole_of_mem (List.mem_append_right calls (List.mem_singleton.mpr rfl)) rfl
      exact ⟨⟨tracks.sameSignal, tracks.opened, tracks.fits, shows,
        fun whole => absurd whole broken⟩, rfl, fun _ => broken⟩

theorem passStaged (tracks : encoder.Tracks signal data calls)
    (goes : encoder.passStaged.Goes more (outcome, after)) :
    after.Cleared signal data (calls ++ more) outcome ∧ after.pending = encoder.pending := by
  unfold Encoder.passStaged at goes
  split at goes
  · rename_i nothing
    cases goes
    rw [List.append_nil]
    exact ⟨⟨tracks, Array.isEmpty_iff.mp nothing, fun failed => absurd rfl failed⟩, rfl⟩
  · rw [if_pos tracks.opened] at goes
    cases goes with
    | writeAll writes others =>
        cases others
        exact ⟨tracks.write writes, rfl⟩

theorem absorb (tracks : encoder.Tracks signal data calls) {list : List Run}
    (each : ∀ run ∈ list, 0 < run.count) (goes : (encoder.absorb list).Goes more (outcome, after)) :
    after.Cleared signal (data ++ list.flatMap Run.expand) (calls ++ more) outcome := by
  induction list generalizing encoder data calls more with
  | nil =>
      rw [List.flatMap_nil, List.append_nil]
      exact (tracks.passStaged goes).1
  | cons run rest induction =>
      have others : ∀ other ∈ rest, 0 < other.count := fun other member =>
        each other (List.mem_cons_of_mem _ member)
      rcases tracks.extend (each run (List.mem_cons_self ..)) with
        ⟨middle, extended, middleTracks⟩
      rw [Encoder.absorb, extended] at goes
      rw [List.flatMap_cons, ← List.append_assoc]
      simp only at goes
      split at goes
      · rcases goes.of_bind with ⟨first, ⟨passed, next⟩, later, rfl, firstGoes, laterGoes⟩
        have cleared := (middleTracks.passStaged firstGoes).1
        rw [← List.append_assoc]
        cases passed with
        | ok => exact induction cleared.tracks others laterGoes
        | error failure =>
            cases laterGoes
            have broken := cleared.broken (by simp)
            rw [List.append_nil]
            exact ⟨cleared.tracks.give broken _, cleared.unstaged, fun _ => broken⟩
      · exact induction middleTracks others goes

theorem encode (tracks : encoder.Tracks signal data calls) {given : Bytes}
    (goes : (encoder.encode given).Goes more (outcome, after)) :
    after.Cleared signal (data ++ given) (calls ++ more) outcome := by
  rw [Encoder.encode, if_pos tracks.opened] at goes
  have cleared := tracks.absorb (count_pos_of_mem_runs given) goes
  rwa [flatMap_expand_runs] at cleared

theorem flushRun (tracks : encoder.Tracks signal data calls)
    (goes : encoder.flushRun.Goes more (outcome, after)) :
    after.Cleared signal data (calls ++ more) outcome ∧ after.pending = .idle := by
  rcases tracks.stagePending with ⟨middle, staged, middleTracks, idle⟩
  rw [Encoder.flushRun, staged] at goes
  rcases middleTracks.passStaged goes with ⟨cleared, same⟩
  exact ⟨cleared, same.trans idle⟩

end Tracks

/-! ## Between operations -/

/-- Between operations, an encoder has nothing staged, and a closed one holds nothing back. -/
structure AtRest (encoder : Encoder) (signal : UInt8) (data : Bytes) (calls : List Call) :
    Prop where
  unstaged : encoder.staged = #[]
  shows : Shows signal data (intact calls)
  tracks : encoder.isOpen = true → encoder.Tracks signal data calls
  idle : encoder.isOpen = false → encoder.pending = .idle

theorem Cleared.atRest (cleared : encoder.Cleared signal data calls outcome) :
    encoder.AtRest signal data calls where
  unstaged := cleared.unstaged
  shows := cleared.tracks.shows
  tracks _ := cleared.tracks
  idle closed := by
    rw [cleared.tracks.opened] at closed
    cases closed

theorem atRest_new (signal : UInt8) : (new signal).AtRest signal [] [] where
  unstaged := rfl
  shows := shows_nil signal []
  tracks _ := ⟨rfl, rfl, trivial, shows_nil signal [], fun _ => carried_nil signal⟩
  idle _ := rfl

namespace AtRest

theorem quiet (rest : encoder.AtRest signal data calls) (nothing : intact more = []) :
    encoder.AtRest signal data (calls ++ more) where
  unstaged := rest.unstaged
  shows := by
    rw [intact_append_of_nothing nothing]
    exact rest.shows
  tracks opened := (rest.tracks opened).quiet nothing
  idle := rest.idle

theorem flushRun_closed (rest : encoder.AtRest signal data calls)
    (closed : encoder.isOpen = false) : encoder.flushRun = .done (.ok (), encoder) :=
  flushRun_of_nothing (rest.idle closed) rest.unstaged

theorem encode (rest : encoder.AtRest signal data calls) {given : Bytes}
    (goes : (encoder.encode given).Goes more (outcome, after)) :
    after.AtRest signal (data ++ given) (calls ++ more) := by
  cases opened : encoder.isOpen with
  | true => exact ((rest.tracks opened).encode goes).atRest
  | false =>
      rw [Encoder.encode, if_neg (by simp [opened])] at goes
      cases goes
      rw [List.append_nil]
      refine ⟨rest.unstaged, rest.shows.mono given, fun other => ?_, rest.idle⟩
      rw [opened] at other
      cases other

theorem flushRun (rest : encoder.AtRest signal data calls)
    (goes : encoder.flushRun.Goes more (outcome, after)) :
    after.AtRest signal data (calls ++ more) ∧ after.pending = .idle := by
  cases opened : encoder.isOpen with
  | true =>
      rcases (rest.tracks opened).flushRun goes with ⟨cleared, idle⟩
      exact ⟨cleared.atRest, idle⟩
  | false =>
      rw [rest.flushRun_closed opened] at goes
      cases goes
      rw [List.append_nil]
      exact ⟨rest, rest.idle opened⟩

private theorem afterFlushRun (rest : encoder.AtRest signal data calls) {α : Type}
    {andThen : Except Failure Unit × Encoder → Writing α} {result : α}
    (goes : (encoder.flushRun.bind andThen).Goes more result) :
    ∃ passed middle first later, calls ++ more = calls ++ first ++ later ∧
      middle.AtRest signal data (calls ++ first) ∧ middle.pending = .idle ∧
      (andThen (passed, middle)).Goes later result := by
  rcases goes.of_bind with ⟨first, ⟨passed, middle⟩, later, rfl, firstGoes, laterGoes⟩
  rcases rest.flushRun firstGoes with ⟨middleRest, idle⟩
  exact ⟨passed, middle, first, later, (List.append_assoc ..).symm, middleRest, idle, laterGoes⟩

theorem flush (rest : encoder.AtRest signal data calls)
    (goes : encoder.flush.Goes more (outcome, after)) :
    after.AtRest signal data (calls ++ more) := by
  rcases rest.afterFlushRun goes with ⟨passed, middle, first, later, same, middleRest, -, laterGoes⟩
  rw [same]
  cases passed with
  | error failure =>
      cases laterGoes
      exact middleRest.quiet rfl
  | ok =>
      simp only at laterGoes
      split at laterGoes
      · cases laterGoes with
        | settle answer others =>
            cases others
            exact middleRest.quiet rfl
      · cases laterGoes
        exact middleRest.quiet rfl

theorem close (rest : encoder.AtRest signal data calls)
    (goes : encoder.close.Goes more (outcome, after)) :
    after.AtRest signal data (calls ++ more) := by
  unfold Encoder.close at goes
  split at goes
  · rcases rest.afterFlushRun goes with
      ⟨passed, middle, first, later, same, middleRest, idle, laterGoes⟩
    rw [same]
    cases passed with
    | error failure =>
        cases laterGoes
        exact middleRest.quiet rfl
    | ok =>
        cases laterGoes with
        | settle answer others =>
            cases others with
            | release others =>
                cases others
                have nothing : intact [.settled answer, .released] = [] := rfl
                exact ⟨middleRest.unstaged, (middleRest.quiet nothing).shows, (nomatch ·),
                  fun _ => idle⟩
  · cases goes
    exact rest.quiet rfl

theorem drop (rest : encoder.AtRest signal data calls) (goes : encoder.drop.Goes more ()) :
    Shows signal data (intact (calls ++ more)) := by
  unfold Encoder.drop at goes
  split at goes
  · rcases rest.afterFlushRun goes with
      ⟨passed, middle, first, later, same, middleRest, -, laterGoes⟩
    rw [same]
    cases laterGoes with
    | release others =>
        cases others
        exact (middleRest.quiet rfl).shows
  · cases goes
    exact (rest.quiet rfl).shows

theorem finish (rest : encoder.AtRest signal data calls)
    (goes : encoder.finish.Goes more outcome) : Shows signal data (intact (calls ++ more)) := by
  rcases rest.afterFlushRun goes with ⟨passed, middle, first, later, same, middleRest, -, laterGoes⟩
  rw [same]
  cases passed with
  | error failure =>
      rcases Writing.Goes.of_map laterGoes with ⟨_, dropGoes, -⟩
      exact middleRest.drop dropGoes
  | ok =>
      simp only at laterGoes
      split at laterGoes
      · cases laterGoes with
        | settle answer others =>
            cases answer with
            | ok =>
                cases others
                exact (middleRest.quiet rfl).shows
            | error failure =>
                cases others with
                | release others =>
                    cases others
                    exact (middleRest.quiet rfl).shows
      · cases laterGoes
        exact (middleRest.quiet rfl).shows

theorem perform (rest : encoder.AtRest signal data calls) {operation : Operation}
    {answer : Except Channel.Failure (Option Nat)}
    (goes : (encoder.perform operation).Goes more (answer, after)) :
    after.AtRest signal (data ++ operation.data?.getD []) (calls ++ more) := by
  cases operation with
  | encode given =>
      rcases goes.of_map with ⟨⟨outcome, last⟩, encodeGoes, same⟩
      cases same
      exact rest.encode encodeGoes
  | write given =>
      rcases goes.of_bind with ⟨first, ⟨outcome, last⟩, later, rfl, encodeGoes, laterGoes⟩
      cases laterGoes
      rw [List.append_nil]
      exact rest.encode encodeGoes
  | flushRun =>
      rcases goes.of_map with ⟨⟨outcome, last⟩, flushGoes, same⟩
      cases same
      simpa [Operation.data?] using (rest.flushRun flushGoes).1
  | flush =>
      rcases goes.of_bind with ⟨first, ⟨outcome, last⟩, later, rfl, flushGoes, laterGoes⟩
      cases laterGoes
      simpa [Operation.data?] using rest.flush flushGoes

end AtRest

/-! ## The life of an encoder -/

/-- What is asked of an encoder while it has one owner. -/
inductive Request
  | operate (operation : Operation)
  | close
deriving DecidableEq, Repr

def Request.given : Request → Bytes
  | .operate operation => operation.data?.getD []
  | .close => []

inductive Ending
  | keep
  | finish
  | drop
deriving DecidableEq, Repr

def respond (encoder : Encoder) :
    Request → Writing (Except Channel.Failure (Option Nat) × Encoder)
  | .operate operation => encoder.perform operation
  | .close =>
      encoder.close.map fun (outcome, encoder) =>
        ((answer outcome).map fun _ => none, encoder)

def respondAll (encoder : Encoder) :
    List Request → Writing (List (Except Channel.Failure (Option Nat)) × Encoder)
  | [] => .done ([], encoder)
  | request :: requests =>
      (encoder.respond request).bind fun (outcome, encoder) =>
        (encoder.respondAll requests).map fun (outcomes, encoder) =>
          (outcome :: outcomes, encoder)

def endBy (encoder : Encoder) : Ending → Writing (Except Channel.Failure Unit)
  | .keep => .done (.ok ())
  | .finish => encoder.finish.map answer
  | .drop => encoder.drop.map .ok

def live (encoder : Encoder) (requests : List Request) (ending : Ending) :
    Writing (List (Except Channel.Failure (Option Nat)) × Except Channel.Failure Unit) :=
  (encoder.respondAll requests).bind fun (outcomes, encoder) =>
    (encoder.endBy ending).map fun outcome => (outcomes, outcome)

namespace AtRest

theorem respond (rest : encoder.AtRest signal data calls) {request : Request}
    {answer : Except Channel.Failure (Option Nat)}
    (goes : (encoder.respond request).Goes more (answer, after)) :
    after.AtRest signal (data ++ request.given) (calls ++ more) := by
  cases request with
  | operate operation => exact rest.perform goes
  | close =>
      rcases goes.of_map with ⟨⟨outcome, last⟩, closeGoes, same⟩
      cases same
      rw [Request.given, List.append_nil]
      exact rest.close closeGoes

theorem respondAll (requests : List Request) (rest : encoder.AtRest signal data calls)
    {answers : List (Except Channel.Failure (Option Nat))}
    (goes : (encoder.respondAll requests).Goes more (answers, after)) :
    after.AtRest signal (data ++ requests.flatMap Request.given) (calls ++ more) := by
  induction requests generalizing encoder data calls more answers with
  | nil =>
      cases goes
      simpa using rest
  | cons request requests induction =>
      rcases goes.of_bind with ⟨first, ⟨answer, middle⟩, later, rfl, firstGoes, laterGoes⟩
      rcases laterGoes.of_map with ⟨⟨others, last⟩, othersGo, same⟩
      cases same
      rw [List.flatMap_cons, ← List.append_assoc, ← List.append_assoc]
      exact induction (rest.respond firstGoes) othersGo

theorem endBy (rest : encoder.AtRest signal data calls) {ending : Ending}
    {answer : Except Channel.Failure Unit} (goes : (encoder.endBy ending).Goes more answer) :
    Shows signal data (intact (calls ++ more)) := by
  cases ending with
  | keep =>
      cases goes
      exact (rest.quiet rfl).shows
  | finish =>
      rcases goes.of_map with ⟨outcome, finishGoes, -⟩
      exact rest.finish finishGoes
  | drop =>
      rcases goes.of_map with ⟨_, dropGoes, -⟩
      exact rest.drop dropGoes

end AtRest

/-! ## Moments -/

/-- The moments in the life of an encoder: the requests made until then, and what happened at
the sink. -/
inductive Reached (signal : UInt8) (requests : List Request) (ending : Ending) (sink : Sink) :
    List Request → List Event → Prop
  | serving {begun later : List Request} {moment : List Event}
      (requests_eq : requests = begun ++ later)
      (reached : moment <+: (((new signal).respondAll begun).run sink).2.history) :
      Reached signal requests ending sink begun moment
  | ending {moment : List Event}
      (reached : moment <+: (((new signal).live requests ending).run sink).2.history) :
      Reached signal requests ending sink requests moment

/-- Until the sink takes something after an offer that broke off, what it took stands for a
beginning of what the encoder was given so far. -/
theorem live_shows {requests begun : List Request} {ending : Ending}
    {replies : List Channel.Reply} {flushReplies : List (Option Channel.Failure)}
    {moment : List Event}
    (reached : Reached signal requests ending ⟨replies, flushReplies, []⟩ begun moment)
    (unbroken : Unbroken moment) :
    Shows signal (begun.flatMap Request.given) (bytesTaken moment) := by
  cases reached with
  | serving requests_eq reached =>
      rcases ((new signal).respondAll begun).run_goes ⟨replies, flushReplies, []⟩ with
        ⟨calls, events, goes, noted, history⟩
      have shows := ((atRest_new signal).respondAll begun goes).shows
      rw [history] at reached
      exact shows.front (noted.bytesTaken_isPrefix reached unbroken)
  | ending reached =>
      rcases ((new signal).live requests ending).run_goes ⟨replies, flushReplies, []⟩ with
        ⟨calls, events, goes, noted, history⟩
      rcases goes.of_bind with ⟨first, ⟨outcomes, middle⟩, later, rfl, firstGoes, laterGoes⟩
      rcases laterGoes.of_map with ⟨outcome, endGoes, -⟩
      have shows := ((atRest_new signal).respondAll requests firstGoes).endBy endGoes
      rw [history] at reached
      exact shows.front (noted.bytesTaken_isPrefix reached unbroken)

/-- A write is cut in its second frame, and closing the encoder fails too. -/
theorem live_shows_cut_write :
    let requests : List Request := [.operate (.write [0x5A, 0x41, 0x41, 0x41, 0x42]), .close]
    let replies : List Channel.Reply :=
      [.accept 3, .refuse (.bare .timedOut), .refuse (.bare .timedOut)]
    let last := (((new 0xE2).live requests .keep).run ⟨replies, [], []⟩).2
    last.accepted = [0x5A, 0xE2, 0x03] ∧ Unbroken last.history ∧
      Shows 0xE2 (requests.flatMap Request.given) (bytesTaken last.history) := by
  intro requests replies last
  have unbroken : Unbroken last.history := by decide +kernel
  exact ⟨by decide +kernel, unbroken, live_shows (.ending List.prefix_rfl) unbroken⟩

/-- When the encoder is dropped after a write that was cut, the byte that it held back
becomes the value of the frame that was cut. -/
theorem live_drop_after_cut :
    let requests : List Request := [.operate (.write [0x41, 0x41, 0x41, 0x42])]
    let replies : List Channel.Reply := [.accept 2, .refuse (.bare .timedOut)]
    let last := (((new 0xE2).live requests .drop).run ⟨replies, [], []⟩).2
    Reached 0xE2 requests .drop ⟨replies, [], []⟩ requests last.history ∧
      bytesTaken last.history = [0xE2, 0x03, 0x42] ∧
      RunLength.decode 0xE2 (bytesTaken last.history) = .ok [0x42, 0x42, 0x42] ∧
      ¬ Shows 0xE2 (requests.flatMap Request.given) (bytesTaken last.history) := by
  intro requests replies last
  refine ⟨.ending List.prefix_rfl, ?_⟩
  decide +kernel

end Encoder

end RunLength

end ByteStreams
