import ByteStreams.RunLength.Whole

/-! # Code as a sequence of frames

The grammar of frames, apart from the parser, and what cutting code into frames
means in terms of it: the frames found spell the longest front of the code that is
a sequence of frames, and code after whole frames is cut as if it stood alone.
-/

namespace ByteStreams

namespace RunLength

open LittleEndian (weight weight_zero weight_succ)

/-! ## The grammar of one frame -/

namespace Frame

inductive Spelled (signal : UInt8) : Frame → Bytes → Prop
  | plain {byte : UInt8} (other : byte ≠ signal) : Spelled signal (.literal byte) [byte]
  | escaped : Spelled signal (.literal signal) [signal, escape]
  | run {indicator : UInt8} {extension : Bytes} (value : UInt8)
      (announced : extensionLength? indicator = some extension.length)
      (some' : runLength indicator extension ≠ 0) :
      Spelled signal (.run value (runLength indicator extension))
        (signal :: indicator :: (extension ++ [value]))

/-- Code that begins with no frame, whatever bytes follow. -/
inductive Flawed (signal : UInt8) : Fault → Bytes → Prop
  | reserved {indicator : UInt8} (body : Bytes) (plain : indicator ≠ escape)
      (refused : extensionLength? indicator = none) :
      Flawed signal (.reservedIndicator indicator) (signal :: indicator :: body)
  | empty {indicator : UInt8} {extension : Bytes} (value : UInt8) (rest : Bytes)
      (announced : extensionLength? indicator = some extension.length)
      (none' : runLength indicator extension = 0) :
      Flawed signal .emptyRun (signal :: indicator :: (extension ++ value :: rest))

theorem extensionLength?_escape : extensionLength? escape = none := by
  decide

theorem ne_escape_of_announced {indicator : UInt8} {extension : Nat}
    (announced : extensionLength? indicator = some extension) : indicator ≠ escape := by
  intro same
  rw [same, extensionLength?_escape] at announced
  cases announced

theorem parse_signal_indicator {signal indicator : UInt8} (plain : indicator ≠ escape)
    {body : Bytes} {extension : Nat}
    (announced : extensionLength? indicator = some extension) :
    parse signal (signal :: indicator :: body) =
      match body.drop extension with
      | [] => .incomplete
      | value :: rest =>
          if runLength indicator (body.take extension) = 0 then .malformed .emptyRun
          else .frame (.run value (runLength indicator (body.take extension)))
            (3 + extension) rest := by
  rw [parse, if_neg (fun other => other rfl), if_neg plain]
  cases left : body.drop extension with
  | nil => simp only [announced, left]
  | cons value rest => simp only [announced, left]

theorem Spelled.parse_append {signal : UInt8} {frame : Frame} {code : Bytes}
    (spelled : Spelled signal frame code) (more : Bytes) :
    parse signal (code ++ more) = .frame frame code.length more := by
  cases spelled with
  | plain other => simp [parse, other]
  | escaped => simp [parse]
  | @run indicator extension value announced some' =>
      have body : signal :: indicator :: (extension ++ [value]) ++ more =
          signal :: indicator :: (extension ++ value :: more) := by simp
      rw [body, parse_signal_indicator (ne_escape_of_announced announced) announced,
        List.drop_left, List.take_left]
      simp only [some', if_false, List.length_cons, List.length_append, List.length_nil]
      congr 1
      omega

theorem Flawed.parse_append {signal : UInt8} {fault : Fault} {code : Bytes}
    (flawed : Flawed signal fault code) (more : Bytes) :
    parse signal (code ++ more) = .malformed fault := by
  cases flawed with
  | reserved body plain refused => simp [parse, plain, refused]
  | @empty indicator extension value rest announced none' =>
      have body : signal :: indicator :: (extension ++ value :: rest) ++ more =
          signal :: indicator :: (extension ++ value :: (rest ++ more)) := by simp
      rw [body, parse_signal_indicator (ne_escape_of_announced announced) announced,
        List.drop_left, List.take_left]
      simp [none']

private theorem exists_append_of_drop {count : Nat} {bytes rest : Bytes} {byte : UInt8}
    (dropped : bytes.drop count = byte :: rest) :
    ∃ before : Bytes, before.length = count ∧ bytes = before ++ byte :: rest := by
  refine ⟨bytes.take count, ?_, ?_⟩
  · have lengths := congrArg List.length dropped
    simp only [List.length_drop, List.length_cons] at lengths
    rw [List.length_take]
    omega
  · rw [← dropped, List.take_append_drop]

theorem spelled_of_parse {signal : UInt8} {buffer rest : Bytes} {frame : Frame} {size : Nat}
    (whole : parse signal buffer = .frame frame size rest) :
    ∃ code, Spelled signal frame code ∧ buffer = code ++ rest ∧ size = code.length := by
  cases buffer with
  | nil => cases whole
  | cons first body =>
      by_cases other : first = signal
      · subst other
        cases body with
        | nil => simp [parse] at whole
        | cons indicator body =>
            by_cases escapes : indicator = escape
            · subst escapes
              simp only [parse, ne_eq, not_true_eq_false, if_false, if_true] at whole
              cases whole
              exact ⟨_, .escaped, rfl, rfl⟩
            · cases announced : extensionLength? indicator with
              | none => simp [parse, escapes, announced] at whole
              | some count =>
                  rw [parse_signal_indicator escapes announced] at whole
                  split at whole
                  · cases whole
                  · rename_i value after dropped
                    rcases exists_append_of_drop dropped with ⟨extension, rfl, rfl⟩
                    rw [List.take_left] at whole
                    split at whole
                    · cases whole
                    · rename_i some'
                      cases whole
                      refine ⟨_, .run value announced some', by simp, ?_⟩
                      simp only [List.length_cons, List.length_append, List.length_nil]
                      omega
      · simp only [parse, ne_eq, other, not_false_eq_true, if_true] at whole
        cases whole
        exact ⟨_, .plain other, rfl, rfl⟩

theorem flawed_of_parse {signal : UInt8} {buffer : Bytes} {fault : Fault}
    (refused : parse signal buffer = .malformed fault) : Flawed signal fault buffer := by
  cases buffer with
  | nil => cases refused
  | cons first body =>
      by_cases other : first = signal
      · subst other
        cases body with
        | nil => simp [parse] at refused
        | cons indicator body =>
            by_cases escapes : indicator = escape
            · simp [parse, escapes] at refused
            · cases announced : extensionLength? indicator with
              | none =>
                  simp only [parse, ne_eq, not_true_eq_false, if_false, escapes, announced]
                    at refused
                  cases refused
                  exact .reserved body escapes announced
              | some count =>
                  rw [parse_signal_indicator escapes announced] at refused
                  split at refused
                  · cases refused
                  · rename_i value after dropped
                    rcases exists_append_of_drop dropped with ⟨extension, rfl, rfl⟩
                    rw [List.take_left] at refused
                    split at refused
                    · rename_i none'
                      cases refused
                      exact .empty value after announced none'
                    · cases refused
      · simp [parse, other] at refused

theorem parse_append_of_frame {signal : UInt8} {buffer rest : Bytes} {frame : Frame} {size : Nat}
    (whole : parse signal buffer = .frame frame size rest) (more : Bytes) :
    parse signal (buffer ++ more) = .frame frame size (rest ++ more) := by
  rcases spelled_of_parse whole with ⟨code, spelled, rfl, rfl⟩
  rw [List.append_assoc]
  exact spelled.parse_append (rest ++ more)

theorem parse_append_of_malformed {signal : UInt8} {buffer : Bytes} {fault : Fault}
    (refused : parse signal buffer = .malformed fault) (more : Bytes) :
    parse signal (buffer ++ more) = .malformed fault :=
  (flawed_of_parse refused).parse_append more

end Frame

/-! ## Sequences of frames -/

/-- The bytes that are whole frames, one after another. -/
inductive Spells (signal : UInt8) : List Frame → Bytes → Prop
  | nil : Spells signal [] []
  | cons {frame : Frame} {frames : List Frame} {code rest : Bytes}
      (first : frame.Spelled signal code) (others : Spells signal frames rest) :
      Spells signal (frame :: frames) (code ++ rest)

theorem Spells.append {signal : UInt8} {frames others : List Frame} {code rest : Bytes}
    (first : Spells signal frames code) (second : Spells signal others rest) :
    Spells signal (frames ++ others) (code ++ rest) := by
  induction first with
  | nil => exact second
  | cons first _ induction =>
      rw [List.append_assoc]
      exact .cons first induction

theorem Spells.singleton {signal : UInt8} {frame : Frame} {code : Bytes}
    (spelled : frame.Spelled signal code) : Spells signal [frame] code := by
  have joined := Spells.cons spelled .nil
  rwa [List.append_nil] at joined

def Split.prepend (frames : List Frame) (cut : Split) : Split :=
  { cut with frames := frames ++ cut.frames }

@[simp] theorem Split.frames_prepend (frames : List Frame) (cut : Split) :
    (cut.prepend frames).frames = frames ++ cut.frames := rfl

@[simp] theorem Split.rest_prepend (frames : List Frame) (cut : Split) :
    (cut.prepend frames).rest = cut.rest := rfl

@[simp] theorem Split.fault_prepend (frames : List Frame) (cut : Split) :
    (cut.prepend frames).fault = cut.fault := rfl

private theorem splitAfter_eq_prepend (signal : UInt8) (found : List Frame) (code : Bytes) :
    splitAfter signal found code = (split signal code).prepend found.reverse := by
  unfold split
  induction code using (measure List.length).wf.induction generalizing found with
  | h code induction =>
      rw [splitAfter, splitAfter]
      split
      · rename_i frame size rest whole
        have shorter := Frame.length_lt_of_parse whole
        rw [induction rest shorter (frame :: found), induction rest shorter [frame]]
        simp [Split.prepend]
      · simp [Split.prepend]
      · simp [Split.prepend]

theorem split_of_frame {signal : UInt8} {code rest : Bytes} {frame : Frame} {size : Nat}
    (whole : Frame.parse signal code = .frame frame size rest) :
    split signal code = (split signal rest).prepend [frame] := by
  rw [split, splitAfter]
  split
  · rename_i same
    rw [whole] at same
    cases same
    exact splitAfter_eq_prepend signal [frame] rest
  · simp_all
  · simp_all

theorem split_of_incomplete {signal : UInt8} {code : Bytes}
    (open' : Frame.parse signal code = .incomplete) :
    split signal code = ⟨[], code, none⟩ := by
  rw [split, splitAfter]
  split <;> simp_all

theorem split_of_malformed {signal : UInt8} {code : Bytes} {fault : Fault}
    (refused : Frame.parse signal code = .malformed fault) :
    split signal code = ⟨[], code, some fault⟩ := by
  rw [split, splitAfter]
  split <;> simp_all

@[simp] theorem split_nil (signal : UInt8) : split signal [] = ⟨[], [], none⟩ :=
  split_of_incomplete rfl

theorem Spells.split_append {signal : UInt8} {frames : List Frame} {code : Bytes}
    (spells : Spells signal frames code) (more : Bytes) :
    split signal (code ++ more) = (split signal more).prepend frames := by
  induction spells with
  | nil => rfl
  | @cons frame frames code rest first _ induction =>
      rw [List.append_assoc, split_of_frame (first.parse_append (rest ++ more)), induction]
      rfl

theorem Spells.split_eq {signal : UInt8} {frames : List Frame} {code : Bytes}
    (spells : Spells signal frames code) : split signal code = ⟨frames, [], none⟩ := by
  have cut := spells.split_append []
  rw [List.append_nil, split_nil] at cut
  simpa [Split.prepend] using cut

theorem spells_split (signal : UInt8) (code : Bytes) :
    ∃ whole, Spells signal (split signal code).frames whole ∧
      code = whole ++ (split signal code).rest := by
  induction code using (measure List.length).wf.induction with
  | h code induction =>
      cases parsed : Frame.parse signal code with
      | incomplete => exact ⟨[], by rw [split_of_incomplete parsed]; exact ⟨.nil, rfl⟩⟩
      | malformed fault => exact ⟨[], by rw [split_of_malformed parsed]; exact ⟨.nil, rfl⟩⟩
      | frame frame size rest =>
          rcases induction rest (Frame.length_lt_of_parse parsed) with ⟨whole, spells, joined⟩
          rcases Frame.spelled_of_parse parsed with ⟨first, spelled, rfl, -⟩
          rw [split_of_frame parsed]
          refine ⟨first ++ whole, .cons spelled spells, ?_⟩
          rw [Split.rest_prepend, List.append_assoc, ← joined]

/-- These frames spell the longest front of some code that is whole frames. -/
structure LongestFront (signal : UInt8) (code : Bytes) (frames : List Frame)
    (front : Bytes) : Prop where
  spells : Spells signal frames front
  isFront : front <+: code
  longest : ∀ {others : List Frame} {other : Bytes},
    Spells signal others other → other <+: code → other <+: front

theorem longestFront_split (signal : UInt8) (code : Bytes) :
    ∃ front, LongestFront signal code (split signal code).frames front ∧
      code = front ++ (split signal code).rest := by
  rcases spells_split signal code with ⟨front, spells, joined⟩
  refine ⟨front, ⟨spells, ⟨_, joined.symm⟩, ?_⟩, joined⟩
  intro others other otherSpells isFront
  rcases isFront with ⟨more, rfl⟩
  rcases spells_split signal more with ⟨after, -, moreJoined⟩
  have sameRest : (split signal (other ++ more)).rest = (split signal more).rest := by
    rw [otherSpells.split_append, Split.rest_prepend]
  have whole : (other ++ after) ++ (split signal more).rest =
      front ++ (split signal more).rest := by
    rw [List.append_assoc, ← moreJoined, ← sameRest]
    exact joined
  exact ⟨after, List.append_cancel_right whole⟩

theorem LongestFront.frames_eq {signal : UInt8} {code front : Bytes} {frames : List Frame}
    (longest : LongestFront signal code frames front) : frames = (split signal code).frames := by
  rcases longestFront_split signal code with ⟨other, otherLongest, -⟩
  have within : front <+: other := otherLongest.longest longest.spells longest.isFront
  have same : front = other :=
    within.eq_of_length_le (longest.longest otherLongest.spells otherLongest.isFront).length_le
  have cut := longest.spells.split_eq
  rw [same, otherLongest.spells.split_eq] at cut
  exact (congrArg Split.frames cut).symm

/-! ## Expansion -/

@[simp] theorem expand_nil : expand [] = [] := rfl

@[simp] theorem expand_cons (frame : Frame) (frames : List Frame) :
    expand (frame :: frames) = frame.expand ++ expand frames := rfl

@[simp] theorem expand_append (frames others : List Frame) :
    expand (frames ++ others) = expand frames ++ expand others :=
  List.flatMap_append

theorem Spells.eq_nil_of_expand {signal : UInt8} {frames : List Frame} {code : Bytes}
    (spells : Spells signal frames code) (nothing : expand frames = []) : code = [] := by
  cases spells with
  | nil => rfl
  | cons first others =>
      rw [expand_cons, List.append_eq_nil_iff] at nothing
      cases first with
      | plain => cases nothing.1
      | escaped => cases nothing.1
      | run value announced some' =>
          rw [Frame.expand, List.replicate_eq_nil_iff] at nothing
          exact absurd nothing.1 some'

/-- Code is accepted just if nothing is left after its whole frames, and then stands for
what they stand for. -/
theorem decode_eq_ok_iff {signal : UInt8} {code data : Bytes} :
    decode signal code = .ok data ↔
      (split signal code).fault = none ∧ (split signal code).rest = [] ∧
        expand (split signal code).frames = data := by
  unfold decode
  cases fault : (split signal code).fault with
  | some fault => simp [fault]
  | none =>
      by_cases nothing : (split signal code).rest = []
      · simp [fault, nothing]
      · simp [fault, nothing]

theorem Spells.decode_eq {signal : UInt8} {frames : List Frame} {code : Bytes}
    (spells : Spells signal frames code) : decode signal code = .ok (expand frames) := by
  rw [decode_eq_ok_iff, spells.split_eq]
  exact ⟨rfl, rfl, rfl⟩

end RunLength

end ByteStreams
