import ByteStreams.Proofs.Channel.Supplies
import ByteStreams.Proofs.RunLength.FailingSources
import ByteStreams.RunLength.Progress

/-! # How far a decoder looks ahead

A frame has at most five bytes. So a decoder that has five of them buffered need not ask for
more, and until then every read that brings something brings it closer. What one read brings
is all that the buffer ever holds beyond a frame that is not whole.
-/

namespace ByteStreams

namespace Channel

def Pull.brings (pull : Pull) : Bool := !(brought pull.answer).isEmpty

theorem filter_brings_eq_nil {pulls : List Pull} (vain : ∀ pull ∈ pulls, brought pull.answer = []) :
    pulls.filter Pull.brings = [] := by
  rw [List.filter_eq_nil_iff]
  intro pull member
  simp [Pull.brings, vain pull member]

theorem pulled_eq_nil {pulls : List Pull} (vain : ∀ pull ∈ pulls, brought pull.answer = []) :
    pulled pulls = [] :=
  List.flatMap_eq_nil_iff.mpr vain

end Channel

namespace RunLength

open Channel (Pull Reading Source Supply brought filter_brings_eq_nil pulled pulled_eq_nil)

namespace Decoder

def buffering (decoder : Decoder) (code : Bytes) : Decoder :=
  { decoder with buffered := decoder.buffered ++ code }

/-- Where a call for so many bytes is when it has made these reads. -/
inductive Moment (want : Nat) (decoder : Decoder) (reads : List Pull) :
    Reading (Except Failure Bytes × Decoder) → Prop
  /-- It is about to read. All it did is buffer what it read before, and it goes on as a call
  does that begins with this buffer. No byte is owed and no frame is whole. -/
  | reading {next : Except Channel.Failure Bytes → Reading (Except Failure Bytes × Decoder)}
      (goesOn : (decoder.buffering (pulled reads)).decode want = .pull pullLimit next)
      (pays : decoder.owed = 0)
      (unfinished :
        Frame.parse decoder.signal (decoder.buffered ++ pulled reads) = .incomplete)
      (few : (decoder.buffered ++ pulled reads).length < 5) :
      Moment want decoder reads (.pull pullLimit next)
  /-- It is over. If it was to hand something out, and neither does so nor fails, no byte of
  code came. -/
  | ended {outcome : Except Failure Bytes} {after : Decoder}
      (noLonger : after.buffered.length ≤ (decoder.buffered ++ pulled reads).length)
      (vain : outcome = .ok [] → want = 0 ∨ decoder.buffered ++ pulled reads = []) :
      Moment want decoder reads (.done (outcome, after))

/-- A call comes to its end, and at every moment until then it keeps to its bounds. -/
structure LooksAhead {σ : Type} (decoder : Decoder) (supply : Supply σ) (want : Nat) (state : σ) :
    Prop where
  ends : supply.Ends (decoder.decode want) state
  moments : ∀ reads left between,
    supply.Reaches (decoder.decode want) state reads left between →
      Moment want decoder reads left ∧
        (reads.filter Pull.brings).length ≤ 5 - decoder.buffered.length ∧
        (decoder.buffered ++ pulled reads).length ≤ pullLimit + 4

/-! ## One call -/

variable {σ : Type} {supply : Supply σ} {want : Nat} {decoder after : Decoder} {state between : σ}
  {reads : List Pull} {left : Reading (Except Failure Bytes × Decoder)}

theorem drain_moment (asked : want ≠ 0) (has : decoder.HasData) :
    Moment want decoder [] (.done (decoder.drain want)) := by
  have shorter := (decoder.drainAfter_measure [] want).1
  rcases decoder.drainAfter_spec [] want with ⟨piece, after, run, -, some', -⟩
  rw [run] at shorter
  rw [drain, run]
  refine .ended (by simpa using shorter) fun nothing => ?_
  exact absurd (Except.ok.inj nothing) (some' (Nat.pos_of_ne_zero asked) has)

theorem atEnd_moment (wanted : Nat) (decoder : Decoder) (vain : pulled reads = []) :
    Moment wanted decoder reads (.done (decoder.atEnd, decoder)) := by
  refine .ended (by simp [vain]) fun nothing => .inr ?_
  unfold atEnd at nothing
  split at nothing
  · rename_i empty
    rw [vain, List.append_nil]
    exact List.isEmpty_iff.mp empty
  · cases nothing

theorem Moment.afterRead {earlier later : List Pull} {limit : Nat} {piece : Bytes}
    (vain : pulled earlier = []) (moment : Moment want (decoder.buffering piece) later left) :
    Moment want decoder (earlier ++ ⟨limit, .ok piece⟩ :: later) left := by
  have same : decoder.buffered ++ pulled (earlier ++ ⟨limit, .ok piece⟩ :: later) =
      (decoder.buffering piece).buffered ++ pulled later := by
    simp [vain, buffering]
  cases moment with
  | reading goesOn pays unfinished few =>
      refine .reading ?_ pays (same ▸ unfinished) (same ▸ few)
      rwa [buffering, same]
  | ended noLonger vain' =>
      exact .ended (same ▸ noLonger) (same ▸ vain')

theorem decode_of_incomplete (asked : want ≠ 0) (pays : ¬ 0 < decoder.owed)
    (unfinished : Frame.parse decoder.signal decoder.buffered = .incomplete) :
    decoder.decode want = .pull pullLimit fun
      | .error failure => .done (.error (.channel failure), decoder)
      | .ok [] => .done (decoder.atEnd, decoder)
      | .ok (byte :: more) => (decoder.buffering (byte :: more)).decode want := by
  rw [decode, if_neg asked, if_neg pays]
  split
  · simp_all
  · simp_all
  · rfl

theorem bounded_of_vain (vain : ∀ read ∈ reads, brought read.answer = [])
    (fits : decoder.buffered.length ≤ pullLimit + 4) :
    (reads.filter Pull.brings).length ≤ 5 - decoder.buffered.length ∧
      (decoder.buffered ++ pulled reads).length ≤ pullLimit + 4 := by
  rw [filter_brings_eq_nil vain, pulled_eq_nil vain, List.append_nil]
  exact ⟨Nat.zero_le _, fits⟩

theorem decode_moments (decoder : Decoder) (fits : decoder.buffered.length ≤ pullLimit + 4)
    (reaches : supply.Reaches (decoder.decode want) state reads left between) :
    Moment want decoder reads left ∧
      (reads.filter Pull.brings).length ≤ 5 - decoder.buffered.length ∧
      (decoder.buffered ++ pulled reads).length ≤ pullLimit + 4 := by
  induction decoder using decode.induct want generalizing state reads with
  | case1 decoder none' =>
      rw [decode, if_pos none'] at reaches
      cases reaches
      exact ⟨.ended (by simp) fun _ => .inl none', bounded_of_vain (List.forall_mem_nil _) fits⟩
  | case2 decoder asked owes =>
      rw [decode, if_neg asked, if_pos owes] at reaches
      cases reaches
      exact ⟨drain_moment asked (.inl owes), bounded_of_vain (List.forall_mem_nil _) fits⟩
  | case3 decoder asked pays frame size rest whole =>
      rw [decode, if_neg asked, if_neg pays] at reaches
      split at reaches
      · cases reaches
        exact ⟨drain_moment asked (.inr ⟨frame, size, rest, whole⟩),
          bounded_of_vain (List.forall_mem_nil _) fits⟩
      · simp_all
      · simp_all
  | case4 decoder asked pays fault refused =>
      rw [decode, if_neg asked, if_neg pays] at reaches
      split at reaches
      · simp_all
      · cases reaches
        exact ⟨.ended (by simp) (by simp), bounded_of_vain (List.forall_mem_nil _) fits⟩
      · simp_all
  | case5 decoder asked pays unfinished induction =>
      have few := Frame.length_lt_of_parse_incomplete unfinished
      rw [decode_of_incomplete asked pays unfinished] at reaches
      rcases reaches.of_pull with
        ⟨vain, rfl⟩ | ⟨earlier, answer, middle, later, rfl, vain, pieceFits, others⟩
      · have same : decoder.buffered ++ pulled reads = decoder.buffered := by
          rw [pulled_eq_nil vain, List.append_nil]
        refine ⟨.reading ?_ (Nat.eq_zero_of_not_pos pays) ?_ ?_, bounded_of_vain vain fits⟩
        · rw [buffering, same]
          exact decode_of_incomplete asked pays unfinished
        · rwa [same]
        · rwa [same]
      · have allVain (nothing : brought answer = []) :
            ∀ read ∈ earlier ++ [⟨pullLimit, answer⟩], brought read.answer = [] :=
          List.forall_mem_append.mpr ⟨vain, List.forall_mem_singleton.mpr nothing⟩
        rcases answer with failure | (_ | ⟨byte, more⟩)
        · cases others
          exact ⟨.ended (by simp) (by simp), bounded_of_vain (allVain rfl) fits⟩
        · cases others
          exact ⟨atEnd_moment want decoder (pulled_eq_nil (allVain rfl)),
            bounded_of_vain (allVain rfl) fits⟩
        · have some' : Pull.brings ⟨pullLimit, .ok (byte :: more)⟩ = true := rfl
          have grown := pieceFits _ rfl
          have length : (decoder.buffered ++ byte :: more).length =
              decoder.buffered.length + (more.length + 1) := List.length_append
          rw [List.length_cons] at grown
          rcases induction byte more (by simp only [length]; omega) others with
            ⟨moment, brings, bounded⟩
          refine ⟨moment.afterRead (pulled_eq_nil vain), ?_, ?_⟩
          · rw [List.filter_append, filter_brings_eq_nil vain, List.nil_append,
              List.filter_cons_of_pos some', List.length_cons]
            simp only [length] at brings
            omega
          · simpa [pulled_eq_nil vain] using bounded

/-! ## Sequences of calls -/

theorem Moment.after_fits {outcome : Except Failure Bytes}
    (moment : Moment want decoder reads (.done (outcome, after)))
    (bounded : (decoder.buffered ++ pulled reads).length ≤ pullLimit + 4) :
    after.buffered.length ≤ pullLimit + 4 := by
  cases moment with
  | ended noLonger => exact Nat.le_trans noLonger bounded

theorem decodeAll_fits (wants : List Nat) {outcomes : List (Except Failure Bytes)}
    (fits : decoder.buffered.length ≤ pullLimit + 4)
    (reaches : supply.Reaches (decoder.decodeAll wants) state reads (.done (outcomes, after))
      between) :
    after.buffered.length ≤ pullLimit + 4 := by
  induction wants generalizing decoder state reads outcomes with
  | nil =>
      cases reaches
      exact fits
  | cons want wants induction =>
      rcases reaches.of_bind with
        ⟨first, ⟨outcome, middle⟩, next, later, rfl, firstReaches, laterReaches⟩
      rcases laterReaches.of_bind with ⟨others, ⟨rest, last⟩, end', none', rfl, reached, same⟩
      cases same
      rcases decode_moments decoder fits firstReaches with ⟨moment, -, bounded⟩
      exact induction (moment.after_fits bounded) reached

/-- Whatever a decoder was asked for before, and whatever its source answers: it has never more
than a part of a frame and one read in its buffer. Every call comes to its end. It reads only
when it owes nothing and its buffer is no whole frame, before it hands anything out, and no more
than five reads bring it bytes. -/
theorem decode_looks_ahead {σ : Type} (supply : Supply σ) (signal : UInt8) (wants : List Nat)
    {start state : σ} {reads : List Pull} {outcomes : List (Except Failure Bytes)}
    {decoder : Decoder}
    (reached : supply.Reaches ((new signal).decodeAll wants) start reads
      (.done (outcomes, decoder)) state) (want : Nat) :
    decoder.buffered.length ≤ pullLimit + 4 ∧ decoder.LooksAhead supply want state := by
  have fits := decodeAll_fits wants (Nat.zero_le _) reached
  exact ⟨fits, supply.ends _ state, fun reads left between => decode_moments decoder fits⟩

/-- A frame of five bytes comes one by one and with interruptions, after a byte that was asked
for alone. -/
theorem decode_looks_ahead_single_bytes :
    let others : List (Except Channel.Failure Bytes) := [.ok [0xE2], .error (.bare .interrupted),
      .ok [0x80], .ok [0x00], .error (.bare .interrupted), .ok [0x02], .ok [0x41]]
    let decoder : Decoder := ⟨0xE2, [], 0, 0, 1⟩
    ∃ reads, Source.supply.Reaches ((new 0xE2).decodeAll [1]) ⟨.ok [0x7A] :: others⟩ reads
        (.done ([.ok [0x7A]], decoder)) ⟨others⟩ ∧
      ((decoder.decode 2).run ⟨others⟩).1.1 = .ok [0x41, 0x41] ∧
      decoder.LooksAhead Source.supply 2 ⟨others⟩ := by
  intro others decoder
  rcases Source.supply_reaches ((new 0xE2).decodeAll [1]) ⟨.ok [0x7A] :: others⟩ with
    ⟨reads, reached⟩
  have ran : ((new 0xE2).decodeAll [1]).run ⟨.ok [0x7A] :: others⟩ =
      (([.ok [0x7A]], decoder), ⟨others⟩) := by
    simp only [others, decoder]
    cbv
  have handed : ((decoder.decode 2).run ⟨others⟩).1.1 = .ok [0x41, 0x41] := by decide +kernel
  rw [ran] at reached
  exact ⟨reads, reached, handed, (decode_looks_ahead Source.supply 0xE2 [1] reached 2).2⟩

end Decoder

end RunLength

end ByteStreams
