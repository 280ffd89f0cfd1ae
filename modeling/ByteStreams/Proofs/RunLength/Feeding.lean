import ByteStreams.Proofs.RunLength.Splitting
import ByteStreams.RunLength.Buffer

/-! # Code that arrives in pieces

Bytes that arrive after a whole frame, or after code that is refused, change nothing
about it. So a buffer that is fed piece by piece, and emptied of its whole frames after
each piece, gives the frames and the fault of the whole code, wherever it is cut.
-/

namespace ByteStreams

namespace RunLength

variable {signal : UInt8} {buffer rest code : Bytes} {frame : Frame} {fault : Fault}

/-! ## One frame -/

theorem Frame.Spelled.length_code (spelled : frame.Spelled signal code) :
    1 ≤ code.length ∧ code.length ≤ 5 := by
  cases spelled with
  | plain => simp
  | escaped => simp
  | @run indicator extension value announced some' =>
      have few := extensionLength?_le_two announced
      simp only [List.length_cons, List.length_append, List.length_nil]
      omega

theorem Frame.Spelled.length_pos (spelled : frame.Spelled signal code) : 1 ≤ frame.length := by
  cases spelled with
  | plain => exact Nat.le_refl 1
  | escaped => exact Nat.le_refl 1
  | run value announced some' => exact Nat.pos_of_ne_zero some'

theorem parse_of_takeFrame (taken : takeFrame signal buffer = (.ok (some frame), rest)) :
    ∃ size, Frame.parse signal buffer = .frame frame size rest := by
  unfold takeFrame at taken
  split at taken <;> cases taken
  exact ⟨_, by assumption⟩

theorem incomplete_of_takeFrame (open' : takeFrame signal buffer = (.ok none, rest)) :
    Frame.parse signal buffer = .incomplete ∧ rest = buffer := by
  unfold takeFrame at open'
  split at open' <;> cases open'
  exact ⟨by assumption, rfl⟩

theorem malformed_of_takeFrame (refused : takeFrame signal buffer = (.error fault, rest)) :
    Frame.parse signal buffer = .malformed fault ∧ rest = buffer := by
  unfold takeFrame at refused
  split at refused <;> cases refused
  exact ⟨by assumption, rfl⟩

theorem Frame.Spelled.takeFrame_append (spelled : frame.Spelled signal code) (more : Bytes) :
    takeFrame signal (code ++ more) = (.ok (some frame), more) := by
  rw [takeFrame, spelled.parse_append more]

theorem spelled_of_takeFrame (taken : takeFrame signal buffer = (.ok (some frame), rest)) :
    ∃ code, frame.Spelled signal code ∧ buffer = code ++ rest := by
  rcases parse_of_takeFrame taken with ⟨size, parsed⟩
  rcases Frame.spelled_of_parse parsed with ⟨code, spelled, joined, -⟩
  exact ⟨code, spelled, joined⟩

theorem takeFrame_append_of_frame (taken : takeFrame signal buffer = (.ok (some frame), rest))
    (more : Bytes) : takeFrame signal (buffer ++ more) = (.ok (some frame), rest ++ more) := by
  rcases spelled_of_takeFrame taken with ⟨code, spelled, rfl⟩
  rw [List.append_assoc]
  exact spelled.takeFrame_append (rest ++ more)

theorem takeFrame_append_of_fault (refused : takeFrame signal buffer = (.error fault, rest))
    (more : Bytes) : takeFrame signal (buffer ++ more) = (.error fault, buffer ++ more) := by
  have parsed := Frame.parse_append_of_malformed (malformed_of_takeFrame refused).1 more
  rw [takeFrame, parsed]

/-! ## All whole frames -/

/-- Take frames off a buffer until it has no whole frame at its front, or is refused. -/
def takeFrames (signal : UInt8) (buffer : Bytes) : Split :=
  match _taken : takeFrame signal buffer with
  | (.ok (some frame), rest) => (takeFrames signal rest).prepend [frame]
  | (.ok none, rest) => ⟨[], rest, none⟩
  | (.error fault, rest) => ⟨[], rest, some fault⟩
termination_by buffer.length
decreasing_by
  rcases parse_of_takeFrame _taken with ⟨size, parsed⟩
  exact Frame.length_lt_of_parse parsed

theorem takeFrames_of_frame (taken : takeFrame signal buffer = (.ok (some frame), rest)) :
    takeFrames signal buffer = (takeFrames signal rest).prepend [frame] := by
  rw [takeFrames]
  split <;> simp_all

theorem takeFrames_of_none (open' : takeFrame signal buffer = (.ok none, rest)) :
    takeFrames signal buffer = ⟨[], rest, none⟩ := by
  rw [takeFrames]
  split <;> simp_all

theorem takeFrames_of_fault (refused : takeFrame signal buffer = (.error fault, rest)) :
    takeFrames signal buffer = ⟨[], rest, some fault⟩ := by
  rw [takeFrames]
  split <;> simp_all

theorem takeFrames_eq_split (signal : UInt8) (buffer : Bytes) :
    takeFrames signal buffer = split signal buffer := by
  induction buffer using takeFrames.induct signal with
  | case1 buffer frame rest taken induction =>
      rcases parse_of_takeFrame taken with ⟨size, parsed⟩
      rw [takeFrames_of_frame taken, split_of_frame parsed, induction]
  | case2 buffer rest open' =>
      rcases incomplete_of_takeFrame open' with ⟨parsed, rfl⟩
      rw [takeFrames_of_none open', split_of_incomplete parsed]
  | case3 buffer fault rest refused =>
      rcases malformed_of_takeFrame refused with ⟨parsed, rfl⟩
      rw [takeFrames_of_fault refused, split_of_malformed parsed]

theorem takeFrames_append (signal : UInt8) (code more : Bytes) :
    takeFrames signal (code ++ more) =
      (takeFrames signal ((takeFrames signal code).rest ++ more)).prepend
        (takeFrames signal code).frames := by
  simp only [takeFrames_eq_split]
  rcases spells_split signal code with ⟨whole, spells, joined⟩
  calc split signal (code ++ more)
      = split signal (whole ++ ((split signal code).rest ++ more)) := by
        rw [← List.append_assoc, ← joined]
    _ = (split signal ((split signal code).rest ++ more)).prepend (split signal code).frames :=
        spells.split_append _

theorem takeFrame_rest_of_fault (refused : (takeFrames signal code).fault = some fault) :
    takeFrame signal (takeFrames signal code).rest =
      (.error fault, (takeFrames signal code).rest) := by
  induction code using takeFrames.induct signal with
  | case1 code frame rest taken induction =>
      rw [takeFrames_of_frame taken] at refused ⊢
      exact induction refused
  | case2 code rest open' =>
      rw [takeFrames_of_none open'] at refused
      cases refused
  | case3 code flaw rest flawed =>
      rcases malformed_of_takeFrame flawed with ⟨-, rfl⟩
      rw [takeFrames_of_fault flawed] at refused ⊢
      cases refused
      exact flawed

theorem takeFrames_append_of_fault (refused : (takeFrames signal code).fault = some fault)
    (more : Bytes) :
    takeFrames signal (code ++ more) =
      ⟨(takeFrames signal code).frames, (takeFrames signal code).rest ++ more, some fault⟩ := by
  have again := takeFrame_append_of_fault (takeFrame_rest_of_fault refused) more
  rw [takeFrames_append, takeFrames_of_fault again, Split.prepend, List.append_nil]

/-! ## Feeding -/

/-- Add a piece of code to what is left of the code before it, and take frames off. -/
def feed (signal : UInt8) (cut : Split) (piece : Bytes) : Split :=
  (takeFrames signal (cut.rest ++ piece)).prepend cut.frames

def feedAll (signal : UInt8) (pieces : List Bytes) : Split :=
  pieces.foldl (feed signal) ⟨[], [], none⟩

theorem foldl_feed (signal : UInt8) (code : Bytes) (pieces : List Bytes) :
    pieces.foldl (feed signal) (takeFrames signal code) =
      takeFrames signal (code ++ pieces.flatten) := by
  induction pieces generalizing code with
  | nil => rw [List.foldl_nil, List.flatten_nil, List.append_nil]
  | cons piece pieces induction =>
      rw [List.foldl_cons, feed, ← takeFrames_append, induction, List.flatten_cons,
        List.append_assoc]

theorem feedAll_eq_takeFrames (signal : UInt8) (pieces : List Bytes) :
    feedAll signal pieces = takeFrames signal pieces.flatten := by
  have empty : takeFrames signal [] = ⟨[], [], none⟩ := takeFrames_of_none rfl
  rw [feedAll, ← empty, foldl_feed, List.nil_append]

/-- Code that is decoded as it arrives, in pieces of any sizes, gives the frames that it
gives as a whole, and is refused for the same fault, if at all: a frame that was taken, or
a fault that was found, stands whatever comes after it, and where neither is there yet,
fewer than five bytes wait. -/
theorem feeding_gives_frames_of_whole (signal : UInt8) :
    (∀ (buffer rest more : Bytes) (frame : Frame),
      takeFrame signal buffer = (.ok (some frame), rest) →
        takeFrame signal (buffer ++ more) = (.ok (some frame), rest ++ more) ∧
        (∃ code : Bytes, buffer = code ++ rest ∧ 1 ≤ code.length ∧ code.length ≤ 5) ∧
        1 ≤ frame.length) ∧
    (∀ (buffer rest more : Bytes) (fault : Fault),
      takeFrame signal buffer = (.error fault, rest) →
        rest = buffer ∧ takeFrame signal (buffer ++ more) = (.error fault, buffer ++ more)) ∧
    (∀ buffer rest : Bytes, takeFrame signal buffer = (.ok none, rest) →
      rest = buffer ∧ buffer.length < 5) ∧
    (∀ pieces : List Bytes, feedAll signal pieces = takeFrames signal pieces.flatten) ∧
    ∀ (pieces others : List Bytes) (fault : Fault),
      (feedAll signal pieces).fault = some fault →
        (feedAll signal (pieces ++ others)).frames = (feedAll signal pieces).frames ∧
        (feedAll signal (pieces ++ others)).fault = some fault := by
  refine ⟨?_, ?_, ?_, feedAll_eq_takeFrames signal, ?_⟩
  · intro buffer rest more frame taken
    rcases spelled_of_takeFrame taken with ⟨code, spelled, joined⟩
    exact ⟨takeFrame_append_of_frame taken more, ⟨code, joined, spelled.length_code⟩,
      spelled.length_pos⟩
  · intro buffer rest more fault refused
    exact ⟨(malformed_of_takeFrame refused).2, takeFrame_append_of_fault refused more⟩
  · intro buffer rest open'
    rcases incomplete_of_takeFrame open' with ⟨parsed, same⟩
    exact ⟨same, Frame.length_lt_of_parse_incomplete parsed⟩
  · intro pieces others fault refused
    rw [feedAll_eq_takeFrames] at refused
    rw [feedAll_eq_takeFrames, feedAll_eq_takeFrames, List.flatten_append,
      takeFrames_append_of_fault refused]
    exact ⟨rfl, rfl⟩

/-- A frame that comes in three pieces, one that is whole, and a signal whose indicator
is refused when it arrives. -/
theorem feeding_gives_frames_through_cut_header :
    takeFrame 0xE2 [0xE2, 0x02, 0x41, 0x10] = (.ok (some (.run 0x41 2)), [0x10]) ∧
    takeFrame 0xE2 ([0xE2, 0x02, 0x41, 0x10] ++ [0xE2]) =
      (.ok (some (.run 0x41 2)), [0x10] ++ [0xE2]) ∧
    feedAll 0xE2 [[0xE2], [0x02], [0x41, 0x10, 0xE2], [0xC0]] =
      ⟨[.run 0x41 2, .literal 0x10], [0xE2, 0xC0], some (.reservedIndicator 0xC0)⟩ ∧
    (feedAll 0xE2 ([[0xE2], [0x02], [0x41, 0x10, 0xE2], [0xC0]] ++ [[0xFF]])).frames =
      (feedAll 0xE2 [[0xE2], [0x02], [0x41, 0x10, 0xE2], [0xC0]]).frames := by
  rcases feeding_gives_frames_of_whole 0xE2 with ⟨whole, -, -, feeding, final⟩
  have taken : takeFrame 0xE2 [0xE2, 0x02, 0x41, 0x10] =
      (.ok (some (.run 0x41 2)), [0x10]) := by cbv
  have fed : feedAll 0xE2 [[0xE2], [0x02], [0x41, 0x10, 0xE2], [0xC0]] =
      ⟨[.run 0x41 2, .literal 0x10], [0xE2, 0xC0], some (.reservedIndicator 0xC0)⟩ := by
    rw [feeding]
    cbv
  exact ⟨taken, (whole _ _ [0xE2] _ taken).1, fed, (final _ [[0xFF]] _ (by rw [fed])).1⟩

end RunLength

end ByteStreams
