import ByteStreams.Proofs.Channel.Faultless
import ByteStreams.Proofs.RunLength.RunCode
import ByteStreams.RunLength.Encoder

/-! # The streaming encoder writes what encoding the whole string gives

The encoder cuts runs when it has to, the whole-string encoder when it can. What ties
them together is a law about bytes yet to come: for any of them, the code of what the
encoder holds back and of what it is given now is what it stages now, followed by the
code of what it holds back then.
-/

namespace ByteStreams

namespace RunLength

open Channel (Reply Sink Writing)

/-! ## What is held back -/

namespace Pending

def data : Pending → Bytes
  | .idle => []
  | .holding value count => List.replicate count value

def Fits : Pending → Prop
  | .idle => True
  | .holding _ count => 0 < count ∧ count ≤ longestRun

/-- When it is given `given`, an encoder that holds back `before` puts out `code`, which is
whole frames, and then holds back `after`. -/
structure Passes (signal : UInt8) (before : Pending) (given code : Bytes) (after : Pending) :
    Prop where
  law : ∀ more,
    encode signal (before.data ++ given ++ more) = code ++ encode signal (after.data ++ more)
  whole : ∃ frames, Spells signal frames code

theorem Passes.refl (signal : UInt8) (pending : Pending) :
    Passes signal pending [] [] pending := by
  refine ⟨?_, [], .nil⟩
  intro more
  rw [List.append_nil, List.nil_append]

theorem Passes.trans {signal : UInt8} {before middle after : Pending}
    {given later code laterCode : Bytes} (first : Passes signal before given code middle)
    (second : Passes signal middle later laterCode after) :
    Passes signal before (given ++ later) (code ++ laterCode) after := by
  rcases first with ⟨law, frames, spells⟩
  rcases second with ⟨laterLaw, laterFrames, laterSpells⟩
  refine ⟨?_, frames ++ laterFrames, spells.append laterSpells⟩
  intro more
  rw [← List.append_assoc, List.append_assoc _ later more, law (later ++ more),
    ← List.append_assoc middle.data, laterLaw more, List.append_assoc]

theorem Passes.expansion {signal : UInt8} {before after : Pending} {given code : Bytes}
    (passes : Passes signal before given code after) :
    ∃ frames, Spells signal frames code ∧ before.data ++ given = expand frames ++ after.data := by
  rcases passes with ⟨law, frames, spells⟩
  rcases encode_spells signal (before.data ++ given) with ⟨all, allSpells, allExpand⟩
  rcases encode_spells signal after.data with ⟨last, lastSpells, lastExpand⟩
  have joined := law []
  simp only [List.append_nil] at joined
  rw [joined] at allSpells
  have same : frames ++ last = all :=
    congrArg Split.frames ((spells.append lastSpells).split_eq.symm.trans allSpells.split_eq)
  refine ⟨frames, spells, ?_⟩
  rw [← allExpand, ← same, expand_append, lastExpand]

end Pending

namespace Encoder

/-- The frame that is due for what an encoder holds back. -/
def pendingCode (encoder : Encoder) : Except Fault Bytes :=
  match encoder.pending with
  | .idle => .ok []
  | .holding value count => encodeRun encoder.signal value count

theorem encodeRun_eq_ok {signal value : UInt8} {count : Nat} (some' : 0 < count)
    (small : count ≤ longestRun) :
    encodeRun signal value count = .ok (shortestRun signal value count) := by
  unfold encodeRun
  rw [if_neg (by omega)]

theorem encode_replicate (signal value : UInt8) {count : Nat} (some' : 0 < count)
    (small : count ≤ longestRun) :
    RunLength.encode signal (List.replicate count value) = shortestRun signal value count := by
  have alone : RunLength.encode signal (List.replicate count value ++ []) =
      Run.encode signal ⟨value, count⟩ ++ RunLength.encode signal [] :=
    encode_replicate_append signal (by simp) count
  rwa [List.append_nil, encode_nil, List.append_nil,
    Run.encode_of_le signal value some' small] at alone

theorem pendingCode_eq (encoder : Encoder) (fits : encoder.pending.Fits) :
    encoder.pendingCode = .ok (RunLength.encode encoder.signal encoder.pending.data) := by
  unfold pendingCode
  cases pending : encoder.pending with
  | idle => rfl
  | holding value count =>
      rw [pending] at fits
      simp only [Pending.data]
      rw [encodeRun_eq_ok fits.1 fits.2, encode_replicate _ _ fits.1 fits.2]

/-! ## Staging -/

def advanced (encoder : Encoder) (pending : Pending) (code : Bytes) : Encoder :=
  { encoder with pending := pending, staged := encoder.staged ++ code }

theorem advanced_advanced (encoder : Encoder) (first second : Pending)
    (code more : Bytes) :
    (encoder.advanced first code).advanced second more =
      encoder.advanced second (code ++ more) := by
  simp only [advanced, Encoder.mk.injEq, true_and, and_true]
  apply Array.toList_inj.mp
  simp

theorem advanced_nil (encoder : Encoder) :
    encoder.advanced encoder.pending [] = encoder := by
  simp [advanced]

theorem stageRun_eq (encoder : Encoder) (value : UInt8) {count : Nat} (some' : 0 < count)
    (small : count ≤ longestRun) :
    encoder.stageRun value count =
      (.ok (), encoder.advanced encoder.pending (shortestRun encoder.signal value count)) := by
  unfold stageRun
  rw [encodeRun_eq_ok some' small]
  rfl

theorem stagePending_eq (encoder : Encoder) (fits : encoder.pending.Fits) :
    encoder.stagePending =
      (.ok (), encoder.advanced .idle
        (RunLength.encode encoder.signal encoder.pending.data)) := by
  unfold stagePending
  cases pending : encoder.pending with
  | idle =>
      have same := encoder.advanced_nil
      rw [pending] at same
      simp only [Pending.data, encode_nil]
      rw [same]
  | holding value count =>
      rw [pending] at fits
      simp only [Pending.data]
      rw [stageRun_eq _ value fits.1 fits.2, encode_replicate _ _ fits.1 fits.2]
      rfl

private theorem stageLongest_eq (encoder : Encoder) (value : UInt8) (held more : Nat)
    (heldFits : held ≤ longestRun) (some' : 0 < held + more) :
    ∃ count code, encoder.stageLongest value held more =
        (.ok (), encoder.advanced (.holding value count) code) ∧
      0 < count ∧ count ≤ longestRun ∧ (∃ frames, Spells encoder.signal frames code) ∧
      ∀ rest, RunLength.encode encoder.signal (List.replicate (held + more) value ++ rest) =
        code ++ RunLength.encode encoder.signal (List.replicate count value ++ rest) := by
  -- The recursion is on what is held and comes, which shrinks by a longest frame.
  induction total : held + more using Nat.strongRecOn generalizing encoder held more with
  | ind total induction =>
      rw [stageLongest]
      by_cases long : longestRun < held + more
      · rcases Nat.exists_eq_add_of_lt long with ⟨extra, split⟩
        have positive : 0 < longestRun := by decide
        have left : 0 + (more - (longestRun - held)) = extra + 1 := by omega
        rw [if_pos long, stageRun_eq _ value positive (Nat.le_refl _)]
        rcases induction (extra + 1) (by omega)
          (encoder.advanced encoder.pending (shortestRun encoder.signal value longestRun))
          0 (more - (longestRun - held)) (Nat.zero_le _) (by omega) left with
          ⟨count, code, run, someCount, small, ⟨others, otherSpells⟩, law⟩
        rcases shortestRun_spells encoder.signal value positive (Nat.le_refl _) with
          ⟨frames, spells, -⟩
        refine ⟨count, shortestRun encoder.signal value longestRun ++ code, ?_, someCount,
          small, ⟨_, spells.append otherSpells⟩, ?_⟩
        · simp only
          rw [run, advanced_advanced]
        · intro rest
          rw [← total, split, Nat.add_assoc, encode_longestRun_append, List.append_assoc]
          exact congrArg _ (law rest)
      · rw [if_neg long]
        refine ⟨held + more, [], ?_, some', by omega, ⟨[], .nil⟩, ?_⟩
        · simp [advanced]
        · intro rest
          rw [total]
          rfl

theorem extend_eq (encoder : Encoder) (fits : encoder.pending.Fits) (run : Run)
    (some' : 0 < run.count) :
    ∃ pending code, encoder.extend run = (.ok (), encoder.advanced pending code) ∧
      pending.Fits ∧ Pending.Passes encoder.signal encoder.pending run.expand code pending := by
  rcases run with ⟨value, more⟩
  change 0 < more at some'
  unfold extend
  cases pending : encoder.pending with
  | idle =>
      rcases encoder.stageLongest_eq value 0 more (Nat.zero_le _) (by omega) with
        ⟨count, code, staged, someCount, small, whole, law⟩
      refine ⟨.holding value count, code, staged, ⟨someCount, small⟩, ?_, whole⟩
      intro rest
      have step := law rest
      rwa [Nat.zero_add] at step
  | holding last held =>
      rw [pending] at fits
      by_cases same : last = value
      · subst same
        rcases encoder.stageLongest_eq last held more fits.2 (by omega) with
          ⟨count, code, staged, someCount, small, whole, law⟩
        refine ⟨.holding last count, code, ?_, ⟨someCount, small⟩, ?_, whole⟩
        · simp only [if_true]
          exact staged
        · intro rest
          simp only [Pending.data, Run.expand]
          rw [List.replicate_append_replicate]
          exact law rest
      · have heldFits : encoder.pending.Fits := by rw [pending]; exact fits
        rcases (encoder.advanced .idle (RunLength.encode encoder.signal
          encoder.pending.data)).stageLongest_eq value 0 more (Nat.zero_le _) (by omega) with
          ⟨count, code, staged, someCount, small, ⟨frames, spells⟩, law⟩
        rcases shortestRun_spells encoder.signal last fits.1 fits.2 with ⟨first, firstSpells, -⟩
        refine ⟨.holding value count, shortestRun encoder.signal last held ++ code, ?_,
          ⟨someCount, small⟩, ?_, _, firstSpells.append spells⟩
        · simp only [if_neg same]
          rw [stagePending_eq encoder heldFits]
          simp only
          rw [staged, advanced_advanced, pending, Pending.data,
            encode_replicate _ _ fits.1 fits.2]
        · intro rest
          have other : (List.replicate more value ++ rest).head? ≠ some last := by
            rw [← Nat.succ_pred_eq_of_pos some', List.replicate_succ]
            simpa using fun equal => same equal.symm
          have step := law rest
          rw [Nat.zero_add] at step
          simp only [Pending.data, Run.expand]
          rw [List.append_assoc, encode_replicate_append _ other,
            Run.encode_of_le _ _ fits.1 fits.2, List.append_assoc]
          exact congrArg _ step

/-! ## Writing -/

/-- Between calls, an open encoder has staged nothing. -/
structure Ready (encoder : Encoder) : Prop where
  opened : encoder.isOpen = true
  unstaged : encoder.staged = #[]
  fits : encoder.pending.Fits

theorem ready_new (signal : UInt8) : Ready (.new signal) :=
  ⟨rfl, rfl, trivial⟩

def withPending (encoder : Encoder) (pending : Pending) : Encoder :=
  { encoder with pending := pending }

theorem Ready.withPending {encoder : Encoder} (ready : encoder.Ready) {pending : Pending}
    (fits : pending.Fits) : (encoder.withPending pending).Ready :=
  ⟨ready.opened, ready.unstaged, fits⟩

theorem Ready.eq_withPending {encoder : Encoder} (ready : encoder.Ready) (pending : Pending) :
    { encoder with pending := pending, staged := #[] } = encoder.withPending pending := by
  rw [← ready.unstaged]
  rfl

theorem flushRun_of_nothing {encoder : Encoder} (idle : encoder.pending = .idle)
    (unstaged : encoder.staged = #[]) : encoder.flushRun = .done (.ok (), encoder) := by
  simp [flushRun, stagePending, idle, passStaged, unstaged]

theorem passStaged_puts (encoder : Encoder) (opened : encoder.isOpen = true) :
    encoder.passStaged.Puts encoder.staged.toList (.ok (), { encoder with staged := #[] }) := by
  rcases encoder with ⟨signal, pending, ⟨staged⟩, isOpen⟩
  cases opened
  unfold passStaged
  cases staged with
  | nil => exact .done _
  | cons first others => exact .writeLast (first :: others) _

/-- A stage that is full goes to the sink between two runs, and the sink cannot tell. -/
theorem absorb_puts (list : List Run) (each : ∀ run ∈ list, 0 < run.count) (encoder : Encoder)
    (opened : encoder.isOpen = true) (fits : encoder.pending.Fits) :
    ∃ pending code,
      (encoder.absorb list).Puts (encoder.staged.toList ++ code)
        (.ok (), { encoder with pending := pending, staged := #[] }) ∧
      pending.Fits ∧
      Pending.Passes encoder.signal encoder.pending (list.flatMap Run.expand) code pending := by
  induction list generalizing encoder with
  | nil =>
      refine ⟨encoder.pending, [], ?_, fits, Pending.Passes.refl _ _⟩
      rw [List.append_nil]
      exact encoder.passStaged_puts opened
  | cons run rest induction =>
      rcases encoder.extend_eq fits run (each run (List.mem_cons_self ..)) with
        ⟨middle, code, extended, middleFits, passes⟩
      have others : ∀ other ∈ rest, 0 < other.count := fun other member =>
        each other (List.mem_cons_of_mem _ member)
      rw [absorb, extended]
      simp only
      split
      · rcases induction others { encoder.advanced middle code with staged := #[] } opened
          middleFits with ⟨pending, later, puts, pendingFits, laterPasses⟩
        refine ⟨pending, code ++ later, ?_, pendingFits, passes.trans laterPasses⟩
        have first := (encoder.advanced middle code).passStaged_puts opened
        have joined : encoder.staged.toList ++ (code ++ later) =
            (encoder.advanced middle code).staged.toList ++ later := by simp [advanced]
        rw [joined]
        exact first.bind puts
      · rcases induction others (encoder.advanced middle code) opened middleFits with
          ⟨pending, later, puts, pendingFits, laterPasses⟩
        refine ⟨pending, code ++ later, ?_, pendingFits, passes.trans laterPasses⟩
        simpa [advanced] using puts

private theorem count_pos_of_mem_push {byte : UInt8} {list : List Run}
    (each : ∀ run ∈ list, 0 < run.count) : ∀ run ∈ Run.push byte list, 0 < run.count := by
  cases list with
  | nil => simp [Run.push]
  | cons first others =>
      by_cases same : first.value = byte
      · simpa [Run.push, same] using fun run member => each run (List.mem_cons_of_mem _ member)
      · simpa [Run.push, same] using each

theorem count_pos_of_mem_runs (data : Bytes) : ∀ run ∈ runs data, 0 < run.count := by
  induction data with
  | nil => simp [runs]
  | cons byte rest induction => exact count_pos_of_mem_push induction

theorem Ready.encode_puts {encoder : Encoder} (ready : encoder.Ready) (data : Bytes) :
    ∃ pending code,
      (encoder.encode data).Puts code (.ok (), encoder.withPending pending) ∧
      pending.Fits ∧ Pending.Passes encoder.signal encoder.pending data code pending := by
  rcases encoder.absorb_puts (runs data) (count_pos_of_mem_runs data) ready.opened
    ready.fits with ⟨pending, code, puts, fits, passes⟩
  refine ⟨pending, code, ?_, fits, ?_⟩
  · rw [Encoder.encode, if_pos ready.opened, ← ready.eq_withPending]
    simpa [ready.unstaged] using puts
  · rwa [flatMap_expand_runs] at passes

theorem Ready.flushRun_puts {encoder : Encoder} (ready : encoder.Ready) :
    encoder.flushRun.Puts (RunLength.encode encoder.signal encoder.pending.data)
      (.ok (), encoder.withPending .idle) := by
  rw [flushRun, stagePending_eq encoder ready.fits, ← ready.eq_withPending]
  have puts := (encoder.advanced .idle
    (RunLength.encode encoder.signal encoder.pending.data)).passStaged_puts ready.opened
  simpa [advanced, ready.unstaged] using puts

theorem Ready.flush_puts {encoder : Encoder} (ready : encoder.Ready) :
    encoder.flush.Puts (RunLength.encode encoder.signal encoder.pending.data)
      (.ok (), encoder.withPending .idle) := by
  apply ready.flushRun_puts.conclude
  have opened : (encoder.withPending .idle).isOpen = true := ready.opened
  simp only [opened, if_true]
  exact .settle (.done _)

theorem Ready.finish_puts {encoder : Encoder} (ready : encoder.Ready) :
    encoder.finish.Puts (RunLength.encode encoder.signal encoder.pending.data) (.ok ()) := by
  apply ready.flushRun_puts.conclude
  have opened : (encoder.withPending .idle).isOpen = true := ready.opened
  simp only [opened, if_true]
  exact .settle (.done _)

/-! ## Sequences of calls -/

inductive Operation
  | encode (data : Bytes)
  /-- Encode as the sink of another layer does. -/
  | write (data : Bytes)
  | flushRun
  | flush
deriving DecidableEq, Repr

def Operation.data? : Operation → Option Bytes
  | .encode data | .write data => some data
  | .flushRun | .flush => none

def Operation.count? : Operation → Option Nat
  | .write data => some data.length
  | .encode _ | .flushRun | .flush => none

def perform (encoder : Encoder) :
    Operation → Writing (Except Channel.Failure (Option Nat) × Encoder)
  | .encode data =>
      (encoder.encode data).map fun (outcome, encoder) =>
        ((answer outcome).map fun _ => none, encoder)
  | .write data => relay (.write data fun reply => .done (reply.map some)) encoder
  | .flushRun =>
      encoder.flushRun.map fun (outcome, encoder) =>
        ((answer outcome).map fun _ => none, encoder)
  | .flush => relay (.flush fun reply => .done (reply.map fun _ => none)) encoder

def performAll (encoder : Encoder) :
    List Operation → Writing (List (Except Channel.Failure (Option Nat)) × Encoder)
  | [] => .done ([], encoder)
  | operation :: operations =>
      (encoder.perform operation).bind fun (outcome, encoder) =>
        (encoder.performAll operations).map fun (outcomes, encoder) =>
          (outcome :: outcomes, encoder)

/-- The data of the segments between flushes, when the first has begun already. -/
def segmentsAfter (begun : Bytes) : List Operation → List Bytes
  | [] => [begun]
  | operation :: operations =>
      match operation.data? with
      | some data => segmentsAfter (begun ++ data) operations
      | none => begun :: segmentsAfter [] operations

def segments (operations : List Operation) : List Bytes := segmentsAfter [] operations

theorem Ready.perform_data {encoder : Encoder} (ready : encoder.Ready) {operation : Operation}
    {data : Bytes} (brings : operation.data? = some data) :
    ∃ pending code,
      (encoder.perform operation).Puts code
        (.ok operation.count?, encoder.withPending pending) ∧
      pending.Fits ∧ Pending.Passes encoder.signal encoder.pending data code pending := by
  cases operation with
  | encode data =>
      cases brings
      rcases ready.encode_puts data with ⟨pending, code, puts, fits, passes⟩
      exact ⟨pending, code, puts.map _, fits, passes⟩
  | write data =>
      cases brings
      rcases ready.encode_puts data with ⟨pending, code, puts, fits, passes⟩
      exact ⟨pending, code, puts.conclude (.done _), fits, passes⟩
  | flushRun => cases brings
  | flush => cases brings

theorem Ready.perform_flush {encoder : Encoder} (ready : encoder.Ready) {operation : Operation}
    (brings : operation.data? = none) :
    (encoder.perform operation).Puts (RunLength.encode encoder.signal encoder.pending.data)
      (.ok operation.count?, encoder.withPending .idle) := by
  cases operation with
  | encode data => cases brings
  | write data => cases brings
  | flushRun => exact ready.flushRun_puts.map _
  | flush => exact ready.flush_puts.conclude (.done _)

/-- After `coded` was put for the data `begun` that is not held back, operations put the code of
the segments, but for what is held back in the end. -/
theorem Ready.performAll_puts (operations : List Operation) {encoder : Encoder}
    (ready : encoder.Ready) {begun coded : Bytes}
    (passed : Pending.Passes encoder.signal .idle begun coded encoder.pending) :
    ∃ pending code,
      (encoder.performAll operations).Puts code
        (operations.map fun operation => .ok operation.count?, encoder.withPending pending) ∧
      pending.Fits ∧
      coded ++ code ++ RunLength.encode encoder.signal pending.data =
        (segmentsAfter begun operations).flatMap (RunLength.encode encoder.signal) := by
  induction operations generalizing encoder begun coded with
  | nil =>
      refine ⟨encoder.pending, [], .done _, ready.fits, ?_⟩
      have whole := passed.law []
      simp only [List.append_nil] at whole
      simp only [segmentsAfter, List.append_nil, List.flatMap_singleton]
      exact whole.symm
  | cons operation operations induction =>
      cases brings : operation.data? with
      | some data =>
          rcases ready.perform_data brings with ⟨middle, first, firstPuts, fits, passes⟩
          rcases induction (ready.withPending fits) (passed.trans passes) with
            ⟨pending, later, laterPuts, pendingFits, whole⟩
          refine ⟨pending, first ++ later, firstPuts.bind (laterPuts.map _), pendingFits, ?_⟩
          rw [segmentsAfter, brings, ← List.append_assoc]
          exact whole
      | none =>
          have idle : (encoder.withPending .idle).Ready := ready.withPending trivial
          rcases induction idle (Pending.Passes.refl _ _) with
            ⟨pending, later, laterPuts, pendingFits, whole⟩
          refine ⟨pending, _ ++ later, (ready.perform_flush brings).bind (laterPuts.map _),
            pendingFits, ?_⟩
          have begunCode := passed.law []
          have laterCode : later ++ RunLength.encode encoder.signal pending.data =
              (segmentsAfter [] operations).flatMap (RunLength.encode encoder.signal) := whole
          simp only [List.append_nil] at begunCode
          rw [segmentsAfter, brings, List.flatMap_cons, ← laterCode, List.append_assoc,
            List.append_assoc, ← List.append_assoc coded, ← begunCode]
          rfl

theorem segmentsAfter_of_data (operations : List Operation)
    (bring : ∀ operation ∈ operations, operation.data? ≠ none) (begun : Bytes) :
    segmentsAfter begun operations =
      [begun ++ operations.flatMap fun operation => operation.data?.getD []] := by
  induction operations generalizing begun with
  | nil => simp [segmentsAfter]
  | cons operation operations induction =>
      cases brings : operation.data? with
      | none => exact absurd brings (bring operation (List.mem_cons_self ..))
      | some data =>
          have others := induction
            (fun other member => bring other (List.mem_cons_of_mem _ member)) (begun ++ data)
          rw [segmentsAfter, brings]
          simpa [brings] using others

/-- On a faultless sink, every call of an encoder succeeds. After any calls, what the sink took
and the frame that is due are the code of the segments, and an encoder that is finished has put
all of it: without a flush, the code of all the data. -/
theorem performAll_encodes (signal : UInt8) (operations : List Operation) {sink : Sink}
    (faultless : sink.Faultless) :
    ∃ encoder after code last,
      ((Encoder.new signal).performAll operations).run sink =
        ((operations.map fun operation => .ok operation.count?, encoder), after) ∧
      encoder.pendingCode = .ok code ∧
      after.accepted ++ code =
        sink.accepted ++ (segments operations).flatMap (RunLength.encode signal) ∧
      encoder.finish.run after = (.ok (), last) ∧
      last.accepted =
        sink.accepted ++ (segments operations).flatMap (RunLength.encode signal) ∧
      ((∀ operation ∈ operations, operation.data? ≠ none) →
        last.accepted = sink.accepted ++
          RunLength.encode signal
            (operations.flatMap fun operation => operation.data?.getD [])) := by
  rcases (ready_new signal).performAll_puts operations (Pending.Passes.refl signal .idle) with
    ⟨pending, code, puts, fits, whole⟩
  have ready := (ready_new signal).withPending fits
  rcases puts.run faultless with ⟨after, run, afterFaultless, accepted⟩
  rcases ready.finish_puts.run afterFaultless with ⟨last, finished, -, lastAccepted⟩
  have total : after.accepted ++ RunLength.encode signal pending.data =
      sink.accepted ++ (segments operations).flatMap (RunLength.encode signal) := by
    rw [accepted, List.append_assoc]
    exact congrArg _ whole
  have allAccepted := lastAccepted.trans total
  refine ⟨_, after, _, last, run, pendingCode_eq _ fits, total, finished, allAccepted, ?_⟩
  intro bring
  rw [allAccepted, segments, segmentsAfter_of_data operations bring, List.flatMap_singleton,
    List.nil_append]

/-- A run is cut by a flush and by the sink. -/
theorem performAll_encodes_interrupted :
    let sink : Sink := ⟨[.accept 1, .refuse (.bare .interrupted), .accept 2],
      [some (.bare .interrupted)], []⟩
    ∃ encoder after last,
      ((Encoder.new 0xE2).performAll [.encode [0x41, 0x41], .write [], .write [0x41, 0xE2],
        .flush, .write [0xE2]]).run sink =
          (([.ok none, .ok (some 0), .ok (some 2), .ok none, .ok (some 1)], encoder), after) ∧
      encoder.finish.run after = (.ok (), last) ∧
      last.accepted = [0xE2, 0x03, 0x41, 0xE2, 0xFF, 0xE2, 0xFF] := by
  intro sink
  have faultless : sink.Faultless := by
    constructor <;> simp [sink, Reply.Faultless, Channel.Failure.isInterruption,
      Channel.Failure.kind]
  rcases performAll_encodes 0xE2 [.encode [0x41, 0x41], .write [], .write [0x41, 0xE2], .flush,
    .write [0xE2]] faultless with ⟨encoder, after, code, last, run, -, -, finished, total, -⟩
  refine ⟨encoder, after, last, run, finished, total.trans ?_⟩
  decide +kernel

end Encoder

end RunLength

end ByteStreams
