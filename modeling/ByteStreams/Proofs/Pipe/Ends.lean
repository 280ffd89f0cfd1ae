import ByteStreams.Pipe.Ends
import ByteStreams.Proofs.Channel.Pulls
import ByteStreams.Proofs.Pipe.Stretches

/-! # Reading from a pipe while nobody writes

A receive that finds bytes in the pipe answers with some of them, whatever its time limit is.
So a program whose calls all find bytes comes to its end without waiting.
-/

namespace ByteStreams

namespace PipeEnds

open Channel (Reading)

variable {α β : Type}

def NeverDry : Reading α → PipeEnds → Prop
  | .done _, _ => True
  | .read limit next, ends | .pull limit next, ends =>
      0 < ends.pipe.available ∧ ∀ answer left, ends.receive limit = some (answer, left) →
        NeverDry (next (answer.mapError .pipe)) left

/-- Every call of the program finds bytes in the pipe and gets some, and it comes to this end. -/
def Fed (after : α → PipeEnds → Prop) : Reading α → PipeEnds → Prop
  | .done result, ends => after result ends
  | .read limit next, ends | .pull limit next, ends =>
      0 < ends.pipe.available ∧ ∃ piece left, ends.receive limit = some (.ok piece, left) ∧
        Fed after (next (.ok piece)) left

variable {ends left : PipeEnds}

theorem Fed.neverDry {after : α → PipeEnds → Prop} {program : Reading α}
    (fed : Fed after program ends) : NeverDry program ends := by
  induction program generalizing ends with
  | done result => trivial
  | read limit next induction | pull limit next induction =>
      rcases fed with ⟨holds, piece, left, received, later⟩
      refine ⟨holds, fun answer other answered => ?_⟩
      cases received.symm.trans answered
      exact induction _ later

theorem Fed.run {after : α → PipeEnds → Prop} {program : Reading α}
    (fed : Fed after program ends) :
    ∃ result left, ends.runReading program = some (result, left) ∧ after result left := by
  induction program generalizing ends with
  | done result => exact ⟨result, ends, rfl, fed⟩
  | read limit next induction | pull limit next induction =>
      rcases fed with ⟨-, piece, left, received, later⟩
      rw [runReading, Reading.toReceiving, runReceiving, received]
      exact induction _ later

theorem Fed.mono {weak strong : α → PipeEnds → Prop}
    (weaken : ∀ result left, strong result left → weak result left) {program : Reading α}
    (fed : Fed strong program ends) : Fed weak program ends := by
  induction program generalizing ends with
  | done result => exact weaken result ends fed
  | read limit next induction | pull limit next induction =>
      rcases fed with ⟨holds, piece, left, received, later⟩
      exact ⟨holds, piece, left, received, induction _ later⟩

theorem Fed.bind {middle : α → PipeEnds → Prop} {after : β → PipeEnds → Prop}
    {program : Reading α} {andThen : α → Reading β} (first : Fed middle program ends)
    (second : ∀ result left, middle result left → Fed after (andThen result) left) :
    Fed after (program.bind andThen) ends := by
  induction program generalizing ends with
  | done result => exact second result ends first
  | read limit next induction | pull limit next induction =>
      rcases first with ⟨holds, piece, left, received, later⟩
      exact ⟨holds, piece, left, received, induction _ later⟩

theorem runReading_bind (program : Reading α) (andThen : α → Reading β) (ends : PipeEnds) :
    ends.runReading (program.bind andThen) =
      (ends.runReading program).bind fun (result, left) => left.runReading (andThen result) := by
  induction program generalizing ends with
  | done result => rfl
  | read limit next induction | pull limit next induction =>
      simp only [runReading, Reading.bind, Reading.toReceiving, runReceiving] at induction ⊢
      split
      · exact induction _ _
      · rfl

/-! ## Receives -/

theorem receive_of_content (sound : ends.pipe.Sound) (some' : ends.pipe.content ≠ [])
    {limit : Nat} (asked : limit ≠ 0) :
    0 < ends.pipe.available ∧ ∃ byte more left,
      ends.receive limit = some (.ok (byte :: more), { ends with pipe := left }) ∧
        ends.pipe.Loses (byte :: more) left := by
  have held : 0 < ends.pipe.available := by
    rw [sound.counted]
    exact List.length_pos_iff.mpr some'
  refine ⟨held, ?_⟩
  have outcome := Pipe.receiveStretch_outcome sound limit ends.receiveLimit
    (Pipe.mayExpire ends.receiveLimit)
  unfold receive
  generalize ends.pipe.receiveStretch limit ends.receiveLimit
    (Pipe.mayExpire ends.receiveLimit) = stretch at outcome ⊢
  cases outcome with
  | @gives piece after loses count nothing =>
      cases piece with
      | nil =>
          rcases nothing rfl with none' | ⟨empty, -⟩
          · exact absurd none' asked
          · exact absurd empty some'
      | cons byte more => exact ⟨byte, more, after, rfl, loses⟩
  | expires _ empty => exact absurd empty some'
  | waits _ empty => exact absurd empty some'

theorem receive_of_empty (sound : ends.pipe.Sound) (empty : ends.pipe.content = [])
    (opened : ends.pipe.closed = false) {span : Span} (patience : ends.receiveLimit = some span)
    (expires : Pipe.mayExpire (some span) = true) {limit : Nat} (asked : limit ≠ 0) :
    ends.receive limit = some (.error (.timeout span), ends) := by
  have nothing : ends.pipe.available = 0 := by
    rw [sound.counted, empty, List.length_nil]
  simp only [receive, Pipe.receiveStretch, asked, nothing, opened, patience, expires, if_true,
    if_false, Bool.false_eq_true, Option.getD_some]
  rw [← patience]

end PipeEnds

end ByteStreams
