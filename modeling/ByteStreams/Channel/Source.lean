import ByteStreams.Channel.Reading

/-!
Sources that follow a script.

A script is a list of chunks and failures. A read takes from the first chunk only.
An empty chunk reads as the end of the source, once; so a source may end early and
go on.
-/

namespace ByteStreams

namespace Channel

/-- A source with a script of what it still has to give. -/
structure Source where
  script : List (Except Failure Bytes)

namespace Source

def ofBytes (data : Bytes) : Source := ⟨if data.isEmpty then [] else [.ok data]⟩

/-- The data that the source has still to give, its failures left out. -/
def remaining (source : Source) : Bytes :=
  source.script.flatMap fun
    | .ok chunk => chunk
    | .error _ => []

theorem remaining_ofBytes (data : Bytes) : (ofBytes data).remaining = data := by
  cases data with
  | nil => rfl
  | cons byte rest => exact List.append_nil _

def size : Except Failure Bytes → Nat
  | .ok chunk => chunk.length
  | .error _ => 0

def left (source : Source) : Nat := source.script.foldr (fun item total => size item + total) 0

def take (limit : Nat) (chunk : Bytes) (script : List (Except Failure Bytes)) :
    Bytes × Source :=
  let (taken, kept) := chunk.splitAt limit
  if kept.isEmpty then (taken, ⟨script⟩) else (taken, ⟨.ok kept :: script⟩)

/-- Ask once for at most `limit` bytes. Asking for none takes nothing from the
script. -/
def read (source : Source) (limit : Nat) : Except Failure Bytes × Source :=
  if limit = 0 then
    (.ok [], source)
  else
    match source.script with
    | [] => (.ok [], source)
    | .error failure :: script => (.error failure, ⟨script⟩)
    | .ok chunk :: script =>
        let (taken, source) := take limit chunk script
        (.ok taken, source)

def pullFrom (limit : Nat) : List (Except Failure Bytes) → Except Failure Bytes × Source
  | [] => (.ok [], ⟨[]⟩)
  | .error failure :: script =>
      if failure.isInterruption then pullFrom limit script else (.error failure, ⟨script⟩)
  | .ok chunk :: script =>
      let (taken, source) := take limit chunk script
      (.ok taken, source)

/-- Ask for at most `limit` bytes, again after every interruption. -/
def pull (source : Source) (limit : Nat) : Except Failure Bytes × Source :=
  if limit = 0 then (.ok [], source) else pullFrom limit source.script

theorem left_eq (source : Source) : source.left = source.remaining.length := by
  obtain ⟨script⟩ := source
  induction script with
  | nil => rfl
  | cons item script induction =>
      simp only [left, remaining, List.foldr_cons, List.flatMap_cons, List.length_append]
        at induction ⊢
      rw [induction]
      cases item <;> rfl

/-! ## Counting

What a source gives it does not give again. -/

theorem left_take (limit : Nat) (chunk : Bytes) (script : List (Except Failure Bytes)) :
    (take limit chunk script).1.length + (take limit chunk script).2.left =
      chunk.length + left ⟨script⟩ := by
  unfold take
  simp only [List.splitAt_eq]
  split
  · rename_i nothing
    have short := List.drop_eq_nil_iff.mp (List.isEmpty_iff.mp nothing)
    simp [left, List.take_of_length_le short]
  · simp only [left, List.foldr_cons, size, List.length_take, List.length_drop]
    omega

theorem left_pullFrom (limit : Nat) (script : List (Except Failure Bytes)) {bytes : Bytes}
    {rest : Source} (answered : pullFrom limit script = (.ok bytes, rest)) :
    bytes.length + rest.left = left ⟨script⟩ := by
  induction script with
  | nil =>
      cases answered
      rfl
  | cons item script induction =>
      cases item with
      | error failure =>
          simp only [pullFrom] at answered
          split at answered
          · simpa [left, size] using induction answered
          · cases answered
      | ok chunk =>
          have counted := left_take limit chunk script
          simp only [pullFrom] at answered
          cases answered
          simpa [left, size] using counted

theorem left_pull (source : Source) (limit : Nat) {bytes : Bytes} {rest : Source}
    (answered : source.pull limit = (.ok bytes, rest)) :
    bytes.length + rest.left = source.left := by
  unfold pull at answered
  split at answered
  · cases answered
    simp
  · exact left_pullFrom limit source.script answered

end Source

def Reading.run {α : Type} : Reading α → Source → α × Source
  | .done result, source => (result, source)
  | .read limit next, source =>
      let (answer, source) := source.read limit
      (next answer).run source
  | .pull limit next, source =>
      let (answer, source) := source.pull limit
      (next answer).run source

theorem Reading.run_bind {α β : Type} (program : Reading α) (andThen : α → Reading β)
    (source : Source) :
    (program.bind andThen).run source =
      (andThen (program.run source).1).run (program.run source).2 := by
  induction program generalizing source with
  | done => rfl
  | read limit next induction => simp [Reading.bind, Reading.run, induction]
  | pull limit next induction => simp [Reading.bind, Reading.run, induction]

end Channel

end ByteStreams
