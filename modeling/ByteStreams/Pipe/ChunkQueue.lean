import ByteStreams.Bytes

/-!
Queues of byte chunks.

Chunks come in at the back as they were given, and bytes are taken from the front
without regard to where one chunk ends. Many chunks can be merged into one. All that
can be observed of a queue is the byte string that its chunks make up.
-/

namespace ByteStreams

structure ChunkQueue where
  /-- The chunks to be taken first, in order. -/
  front : List Bytes
  /-- The chunks after them, last one first. -/
  back : List Bytes
deriving DecidableEq, Repr

namespace ChunkQueue

def empty : ChunkQueue := ⟨[], []⟩

def toBytes (queue : ChunkQueue) : Bytes := (queue.front ++ queue.back.reverse).flatten

def push (queue : ChunkQueue) (chunk : Bytes) : ChunkQueue :=
  { queue with back := chunk :: queue.back }

def count (queue : ChunkQueue) : Nat := queue.front.length + queue.back.length

def merge (queue : ChunkQueue) : ChunkQueue := ⟨[queue.toBytes], []⟩

structure Taken where
  /-- The pieces taken, last one first. -/
  pieces : List Bytes
  /-- How many bytes more were asked for. -/
  missing : Nat
  /-- The chunks that are left. -/
  left : List Bytes

/-- Take up to `missing` bytes from the front of some chunks; `pieces` were taken
before, last one first. -/
def takeFrom (missing : Nat) (pieces : List Bytes) : List Bytes → Taken
  | [] => ⟨pieces, missing, []⟩
  | chunk :: rest =>
      if missing = 0 then
        ⟨pieces, 0, chunk :: rest⟩
      else
        let (piece, kept) := chunk.splitAt missing
        if kept.isEmpty then
          takeFrom (missing - piece.length) (piece :: pieces) rest
        else
          ⟨piece :: pieces, 0, kept :: rest⟩

def take (queue : ChunkQueue) (limit : Nat) : Bytes × ChunkQueue :=
  let first := takeFrom limit [] queue.front
  if first.missing = 0 then
    (Bytes.join first.pieces, ⟨first.left, queue.back⟩)
  else
    let second := takeFrom first.missing first.pieces queue.back.reverse
    (Bytes.join second.pieces, ⟨second.left, []⟩)

example : ((empty.push [1, 2]).push [3, 4, 5]).take 3 = ([1, 2, 3], ⟨[[4, 5]], []⟩) := by
  decide

@[simp] theorem toBytes_empty : empty.toBytes = [] := rfl

@[simp] theorem toBytes_push (queue : ChunkQueue) (chunk : Bytes) :
    (queue.push chunk).toBytes = queue.toBytes ++ chunk := by
  simp [push, toBytes]

@[simp] theorem toBytes_merge (queue : ChunkQueue) : queue.merge.toBytes = queue.toBytes := by
  simp [merge, toBytes]

/-- Taking from chunks neither loses nor moves a byte, leaves nothing behind that
was asked for, and takes no more. -/
theorem takeFrom_cuts (missing : Nat) (pieces chunks : List Bytes) :
    let taken := takeFrom missing pieces chunks
    taken.pieces.reverse.flatten = pieces.reverse.flatten ++ chunks.flatten.take missing ∧
      taken.left.flatten = chunks.flatten.drop missing ∧
      taken.missing = missing - chunks.flatten.length ∧
      (taken.missing ≠ 0 → taken.left = []) := by
  induction chunks generalizing missing pieces with
  | nil => simp [takeFrom]
  | cons chunk rest induction =>
      unfold takeFrom
      by_cases none : missing = 0
      · simp [none]
      · simp only [none, if_false, List.splitAt_eq]
        by_cases whole : chunk.length ≤ missing
        · have kept : (chunk.drop missing).isEmpty = true := by
            simp [List.drop_eq_nil_of_le whole]
          have piece : chunk.take missing = chunk := List.take_of_length_le whole
          simp only [kept, if_true, piece]
          have step := induction (missing - chunk.length) (chunk :: pieces)
          refine ⟨?_, ?_, ?_, step.2.2.2⟩
          · rw [step.1]
            simp [List.take_append, piece]
          · rw [step.2.1]
            simp [List.drop_append, List.drop_eq_nil_of_le whole]
          · rw [step.2.2.1]
            simp only [List.flatten_cons, List.length_append]
            omega
        · have kept : (chunk.drop missing).isEmpty = false := by
            simp only [List.isEmpty_eq_false_iff, ne_eq, List.drop_eq_nil_iff]
            omega
          have before : missing - chunk.length = 0 := by omega
          simp only [kept, Bool.false_eq_true, if_false]
          refine ⟨?_, ?_, ?_, by simp⟩
          · simp [List.take_append, before]
          · simp [List.drop_append, before]
          · simp only [List.flatten_cons, List.length_append]
            omega

theorem take_fst (queue : ChunkQueue) (limit : Nat) :
    (queue.take limit).1 = queue.toBytes.take limit := by
  have first := takeFrom_cuts limit [] queue.front
  unfold take toBytes
  by_cases done : (takeFrom limit [] queue.front).missing = 0
  · simp only [done, if_true]
    rw [Bytes.join_eq, first.1]
    have enough : limit - queue.front.flatten.length = 0 := by rw [← first.2.2.1]; exact done
    simp [-List.length_flatten, List.take_append, enough]
  · simp only [done, if_false]
    have second := takeFrom_cuts (takeFrom limit [] queue.front).missing
      (takeFrom limit [] queue.front).pieces queue.back.reverse
    rw [Bytes.join_eq, second.1, first.1, first.2.2.1]
    simp [-List.length_flatten, List.take_append]

theorem toBytes_take_snd (queue : ChunkQueue) (limit : Nat) :
    (queue.take limit).2.toBytes = queue.toBytes.drop limit := by
  have first := takeFrom_cuts limit [] queue.front
  unfold take
  by_cases done : (takeFrom limit [] queue.front).missing = 0
  · simp only [done, if_true, toBytes]
    have enough : limit - queue.front.flatten.length = 0 := by rw [← first.2.2.1]; exact done
    simp [-List.length_flatten, List.drop_append, first.2.1, enough]
  · simp only [done, if_false, toBytes]
    have second := takeFrom_cuts (takeFrom limit [] queue.front).missing
      (takeFrom limit [] queue.front).pieces queue.back.reverse
    have beyond : queue.front.flatten.length ≤ limit := by
      have missing := first.2.2.1
      omega
    rw [List.flatten_append, List.flatten_append, List.drop_append,
      List.drop_eq_nil_of_le beyond, List.reverse_nil, List.flatten_nil, List.append_nil,
      second.2.1, first.2.2.1, List.nil_append]

end ChunkQueue

end ByteStreams
