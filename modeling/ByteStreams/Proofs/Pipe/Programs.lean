import ByteStreams.Proofs.Pipe.Passage

/-! # Programs on the two ends of a pipe

What a program does on channels that do not fail, it does on the ends of a pipe.
-/

namespace ByteStreams

namespace Pipe

open Channel (Reading Writing)
open Channel.Reading (Always)

variable {α β : Type}

def Sending.Ends (result : α) (program : Sending α) : Prop := program.result? = some result

def Receiving.Ends (good : α → Prop) (program : Receiving α) : Prop :=
  ∃ result, program.result? = some result ∧ good result

/-! ## Writing -/

theorem sendAll_nil (next : Except Channel.Failure Unit → Sending α) :
    sendAll [] next = next (.ok ()) := by
  rw [sendAll]
  rfl

private theorem sends_sendAll {data bytes : Bytes} {result : α} {calls : Nat}
    {next : Except Channel.Failure Unit → Sending α}
    (later : Sends (Sending.Ends result) calls (next (.ok ())) bytes) :
    ∃ calls, Sends (Sending.Ends result) calls (sendAll data next) (data ++ bytes) := by
  cases data with
  | nil =>
      rw [sendAll_nil]
      exact ⟨calls, later⟩
  | cons byte others =>
      refine ⟨calls + 1, ?_⟩
      rw [sendAll, if_neg (by simp)]
      apply Sends.send rfl
      rw [List.length_cons]
      simp only
      rw [List.drop_succ_cons, List.drop_length, sendAll_nil]
      exact later

theorem Delivers.sends {program : Writing α} {bytes : Bytes} {result : α}
    (delivers : program.Delivers bytes result) :
    ∃ calls, Sends (Sending.Ends result) calls program.toSending bytes := by
  induction delivers with
  | done => exact ⟨1, .done rfl rfl⟩
  | writeAll _ induction =>
      rcases induction with ⟨calls, sends⟩
      exact sends_sendAll sends
  | settle _ induction => exact induction
  | release _ induction =>
      rcases induction with ⟨calls, sends⟩
      exact ⟨calls + 1, .close rfl sends⟩

/-! ## Reading -/

theorem Always.receives {program : Reading α} {bytes : Bytes} {good : α → Prop}
    (always : Always (fun result rest => rest = [] ∧ good result) program bytes) :
    Receives (Receiving.Ends good) program.toReceiving bytes := by
  induction program generalizing bytes with
  | done result =>
      rcases always with ⟨rfl, holds⟩
      exact .done rfl ⟨result, rfl, holds⟩
  | pull limit next induction =>
      apply Receives.receive rfl
      intro piece rest served
      exact induction (.ok piece) (always piece rest served)
  | read limit next induction =>
      apply Receives.receive rfl
      intro piece rest served
      exact induction (.ok piece) (always.1 piece rest served)

/-! ## Both -/

theorem fits_start {pipe : Pipe} {writer : Sending α} {reader : Receiving β} {result : α}
    {good : β → Prop} {bytes : Bytes} {calls : Nat} (sound : pipe.Sound)
    (empty : pipe.content = []) (opened : pipe.closed = false)
    (sends : Sends (Sending.Ends result) calls writer bytes)
    (receives : Receives (Receiving.Ends good) reader bytes) :
    (Exchange.start pipe none none writer reader).Fits (Sending.Ends result)
      (Receiving.Ends good) (2 * calls) bytes := by
  refine ⟨Exchange.sound_start sound .., rfl, rfl, ⟨calls, rfl, sends⟩, ?_, ?_⟩
  · simp only [Exchange.start, empty, List.nil_append]
    exact receives
  · intro closed
    exact absurd (opened.symm.trans closed) Bool.false_ne_true

/-- What every schedule of two programs that fit comes to. -/
theorem passes {pipe : Pipe} {writer : Sending α} {reader : Receiving β} {result : α}
    {good : β → Prop} {bytes : Bytes} {calls : Nat} (sound : pipe.Sound)
    (empty : pipe.content = []) (opened : pipe.closed = false)
    (sends : Sends (Sending.Ends result) calls writer bytes)
    (receives : Receives (Receiving.Ends good) reader bytes) {events : List Exchange.Event}
    {last : Exchange.Stepped (Sending α) (Receiving β)}
    (followed : (Exchange.start pipe none none writer reader).follow? events = some last) :
    last.queued <+: bytes ∧
      (∀ task, last.exchange.sender.finished? = some task →
        last.queued = bytes ∧ task.result? = some result) ∧
      (∀ task, last.exchange.receiver.finished? = some task →
        last.queued = bytes ∧ last.delivered = bytes ∧
          ∃ answer, task.result? = some answer ∧ good answer) ∧
      last.exchange.Completes := by
  have fits := fits_start sound empty opened sends receives
  rcases fits.follow events followed with ⟨work, unsent, fitsLast, rfl⟩
  have moved := (fits.sound.follow events followed).conserved
  simp only [Exchange.start, empty, List.nil_append] at moved
  refine ⟨List.prefix_append .., ?_, ?_, fitsLast.completes⟩
  · intro task finished
    have owes := fitsLast.owes
    cases state : last.exchange.sender with
    | finished done =>
        rw [state] at owes finished
        cases finished
        rcases owes with ⟨-, rfl, holds⟩
        exact ⟨(List.append_nil _).symm, holds⟩
    | _ =>
        rw [state] at finished
        cases finished
  · intro task finished
    have awaits := fitsLast.awaits
    cases state : last.exchange.receiver with
    | finished done =>
        rw [state] at awaits finished
        cases finished
        -- A receiver that has finished left nothing in the pipe and wants nothing more.
        rcases awaits with ⟨nothing, answer⟩
        rcases List.append_eq_nil_iff.mp nothing with ⟨noContent, rfl⟩
        rw [noContent, List.append_nil] at moved
        rw [List.append_nil]
        exact ⟨rfl, moved.symm, answer⟩
    | _ =>
        rw [state] at finished
        cases finished

end Pipe

end ByteStreams
