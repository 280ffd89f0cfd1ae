import ByteStreams.Pipe.Basic

/-! # Stretches of calls

What one stretch of a send or a receive may come to. A stretch only adds bytes at the
back of a pipe or takes bytes from its front, and a call waits only when that is not
possible.
-/

namespace ByteStreams

namespace Pipe

def content (pipe : Pipe) : Bytes := pipe.chunks.toBytes

def Full (pipe : Pipe) : Prop := pipe.capacity = some pipe.available

/-- A pipe that counts its bytes, holds no more than it may and may hold some. -/
structure Sound (pipe : Pipe) : Prop where
  counted : pipe.available = pipe.content.length
  within : ∀ capacity, pipe.capacity = some capacity → pipe.available ≤ capacity
  usable : pipe.capacity ≠ some 0

@[simp] theorem available_push (pipe : Pipe) (data : Bytes) :
    (pipe.push data).available = pipe.available + data.length := by
  unfold push compact
  split <;> rfl

@[simp] theorem capacity_push (pipe : Pipe) (data : Bytes) :
    (pipe.push data).capacity = pipe.capacity := by
  unfold push compact
  split <;> rfl

@[simp] theorem closed_push (pipe : Pipe) (data : Bytes) :
    (pipe.push data).closed = pipe.closed := by
  unfold push compact
  split <;> rfl

@[simp] theorem content_push (pipe : Pipe) (data : Bytes) :
    (pipe.push data).content = pipe.content ++ data := by
  unfold push compact
  split <;> simp [content]

theorem Full.content_ne_nil {pipe : Pipe} (full : pipe.Full) (sound : pipe.Sound) :
    pipe.content ≠ [] := by
  intro nothing
  have counted := sound.counted
  rw [nothing, List.length_nil] at counted
  rw [Full, counted] at full
  exact sound.usable full

theorem Sound.close {pipe : Pipe} (sound : pipe.Sound) : pipe.close.Sound :=
  ⟨sound.counted, sound.within, sound.usable⟩

theorem create_of_usable {capacity : Option Nat} (usable : capacity ≠ some 0) :
    create capacity = .ok (empty capacity) :=
  if_neg usable

theorem sound_empty {capacity : Option Nat} (usable : capacity ≠ some 0) :
    (empty capacity).Sound := by
  refine ⟨rfl, ?_, usable⟩
  intro limit _
  exact Nat.zero_le _

/-! ## Bytes move -/

/-- Bytes went into the pipe at its back. -/
structure Gains (before : Pipe) (data : Bytes) (after : Pipe) : Prop where
  content_eq : after.content = before.content ++ data
  sound : after.Sound
  capacity_eq : after.capacity = before.capacity
  closed_eq : after.closed = before.closed

structure Loses (before : Pipe) (data : Bytes) (after : Pipe) : Prop where
  content_eq : before.content = data ++ after.content
  sound : after.Sound
  capacity_eq : after.capacity = before.capacity
  closed_eq : after.closed = before.closed

theorem Sound.gains_nothing {pipe : Pipe} (sound : pipe.Sound) : pipe.Gains [] pipe :=
  ⟨(List.append_nil _).symm, sound, rfl, rfl⟩

theorem Sound.loses_nothing {pipe : Pipe} (sound : pipe.Sound) : pipe.Loses [] pipe :=
  ⟨rfl, sound, rfl, rfl⟩

theorem Sound.push_fit {pipe : Pipe} (sound : pipe.Sound) {data part rest : Bytes}
    (fits : pipe.fit data = (part, rest)) :
    data = part ++ rest ∧ pipe.Gains part (pipe.push part) ∧
      (rest ≠ [] → (pipe.push part).Full) := by
  have counted : (pipe.push part).available = (pipe.push part).content.length := by
    simp [sound.counted]
  unfold fit at fits
  cases capacity : pipe.capacity with
  | none =>
      rw [capacity] at fits
      cases fits
      refine ⟨(List.append_nil _).symm, ⟨content_push .., ⟨counted, ?_, ?_⟩, capacity_push ..,
        closed_push ..⟩, ?_⟩
      · intro limit same
        rw [capacity_push, capacity] at same
        cases same
      · rw [capacity_push]
        exact sound.usable
      · intro some'
        exact absurd rfl some'
  | some limit =>
      have within := sound.within limit capacity
      rw [capacity] at fits
      simp only [List.splitAt_eq, Prod.mk.injEq] at fits
      rcases fits with ⟨rfl, rfl⟩
      refine ⟨(List.take_append_drop ..).symm, ⟨content_push .., ⟨counted, ?_, ?_⟩,
        capacity_push .., closed_push ..⟩, ?_⟩
      · intro limit' same
        rw [capacity_push, capacity] at same
        cases same
        rw [available_push, List.length_take]
        omega
      · rw [capacity_push]
        exact sound.usable
      · intro some'
        rw [ne_eq, List.drop_eq_nil_iff] at some'
        have room : pipe.available + min (limit - pipe.available) data.length = limit := by omega
        rw [Full, capacity_push, available_push, List.length_take, capacity, room]

theorem Sound.loses_drain {pipe : Pipe} (sound : pipe.Sound) (limit : Nat) :
    pipe.Loses (pipe.content.take limit) (pipe.drain limit).2 ∧
      (pipe.drain limit).1 = pipe.content.take limit := by
  have taken := ChunkQueue.take_fst pipe.chunks limit
  have kept := ChunkQueue.toBytes_take_snd pipe.chunks limit
  have counted := sound.counted
  refine ⟨⟨?_, ⟨?_, ?_, sound.usable⟩, rfl, rfl⟩, taken⟩
  · simp only [drain, content, kept, List.take_append_drop]
  · simp only [drain, content, kept, taken, List.length_take, List.length_drop]
    rw [content] at counted
    omega
  · intro capacity same
    have within := sound.within capacity same
    simp only [drain]
    omega

/-! ## What stretches come to -/

/-- What a stretch of a send may come to. -/
inductive SendOutcome (pipe : Pipe) (left : Bytes) (queued : Nat) (limit : Option Span)
    (expired : Bool) : SendStretch → Prop
  | whole {after : Pipe} (gains : pipe.Gains left after) :
      SendOutcome pipe left queued limit expired
        ⟨after, left, .answers (.ok (queued + left.length))⟩
  | refused (some' : left ≠ []) (closed : pipe.closed = true) :
      SendOutcome pipe left queued limit expired ⟨pipe, [], .answers (.error .closed)⟩
  | stuck {part rest : Bytes} {after : Pipe} (split : left = part ++ rest) (more : rest ≠ [])
      (opened : pipe.closed = false) (gains : pipe.Gains part after) (full : after.Full) :
      SendOutcome pipe left queued limit expired
        ⟨after, part, awaitRoom rest (queued + part.length) limit expired⟩

theorem sendStretch_outcome {pipe : Pipe} (sound : pipe.Sound) (left : Bytes) (queued : Nat)
    (limit : Option Span) (expired : Bool) :
    SendOutcome pipe left queued limit expired
      (pipe.sendStretch left queued limit expired) := by
  unfold sendStretch
  by_cases nothing : left = []
  · subst nothing
    exact .whole sound.gains_nothing
  · rw [if_neg (by simpa using nothing)]
    by_cases closed : pipe.closed = true
    · rw [if_pos closed]
      exact .refused nothing closed
    · rw [if_neg closed]
      rw [Bool.not_eq_true] at closed
      rcases fits : pipe.fit left with ⟨part, rest⟩
      rcases sound.push_fit fits with ⟨rfl, gains, full⟩
      simp only
      by_cases noPart : part = []
      · subst noPart
        rw [List.nil_append] at nothing
        have stillFull : pipe.Full := by simpa [Full] using full nothing
        exact .stuck rfl nothing closed sound.gains_nothing stillFull
      · rw [if_neg (by simpa using noPart)]
        by_cases noRest : rest = []
        · subst noRest
          simp only [List.append_nil]
          exact .whole gains
        · rw [if_neg (by simpa using noRest)]
          exact .stuck rfl noRest closed gains (full noRest)

inductive ReceiveOutcome (pipe : Pipe) (wanted : Nat) (limit : Option Span) (expired : Bool) :
    ReceiveStretch → Prop
  | gives {piece : Bytes} {after : Pipe} (loses : pipe.Loses piece after)
      (count : piece.length = min wanted pipe.available)
      (nothing : piece = [] → wanted = 0 ∨ pipe.content = [] ∧ pipe.closed = true) :
      ReceiveOutcome pipe wanted limit expired ⟨after, piece, .answers (.ok piece)⟩
  | expires (asked : wanted ≠ 0) (empty : pipe.content = []) (opened : pipe.closed = false)
      (expiry : expired = true) :
      ReceiveOutcome pipe wanted limit expired
        ⟨pipe, [], .answers (.error (.timeout (limit.getD ⟨0⟩)))⟩
  | waits (asked : wanted ≠ 0) (empty : pipe.content = []) (opened : pipe.closed = false)
      (inTime : expired = false) :
      ReceiveOutcome pipe wanted limit expired ⟨pipe, [], .waits⟩

theorem receiveStretch_outcome {pipe : Pipe} (sound : pipe.Sound) (wanted : Nat)
    (limit : Option Span) (expired : Bool) :
    ReceiveOutcome pipe wanted limit expired (pipe.receiveStretch wanted limit expired) := by
  unfold receiveStretch
  by_cases none' : wanted = 0
  · rw [if_pos none']
    have count : 0 = min wanted pipe.available := by omega
    exact .gives sound.loses_nothing count fun _ => .inl none'
  · rw [if_neg none']
    by_cases empty : pipe.available = 0
    · have nothing : pipe.content = [] :=
        List.eq_nil_of_length_eq_zero (sound.counted.symm.trans empty)
      rw [if_pos empty]
      by_cases closed : pipe.closed = true
      · rw [if_pos closed]
        have count : 0 = min wanted pipe.available := by omega
        exact .gives sound.loses_nothing count fun _ => .inr ⟨nothing, closed⟩
      · rw [if_neg closed]
        rw [Bool.not_eq_true] at closed
        cases expired with
        | true => exact .expires none' nothing closed rfl
        | false => exact .waits none' nothing closed rfl
    · rw [if_neg empty]
      rcases sound.loses_drain wanted with ⟨loses, taken⟩
      simp only [taken]
      refine .gives loses (by rw [List.length_take, sound.counted]) ?_
      intro nothing
      rw [List.take_eq_nil_iff] at nothing
      rcases nothing with none'' | nothing
      · exact absurd none'' none'
      · rw [sound.counted, nothing] at empty
        exact absurd rfl empty

end Pipe

end ByteStreams
