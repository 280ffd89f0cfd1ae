import ByteStreams.Proofs.Channel.Reporting
import ByteStreams.Proofs.RunLength.EncoderInvariant
import ByteStreams.Proofs.RunLength.FailingRelays
import ByteStreams.Proofs.RunLength.LookAhead

/-! # What the run-length layer says of the channel below it

An operation of an encoder makes no call after one that failed, and fails as that call did. A
call of a decoder makes no pull after one that failed. It finds fault with the code only if
decoding all that was pulled so far does, and says that the data is at its end only if that
gives just what was handed out.
-/

namespace ByteStreams

namespace RunLength

open Channel (Call Fruitful Pull Reports Writing fruitful_nil pulled)

namespace Encoder

variable {encoder after : Encoder} {calls : List Call} {outcome : Except Failure Unit}

/-! ## Encoding -/

structure StaysOpen (calls : List Call) (outcome : Except Failure Unit) (after : Encoder) :
    Prop where
  reports : Reports Failure.channel calls outcome
  orderly : after.Orderly
  opened : after.isOpen = true

theorem passStaged_staysOpen (opened : encoder.isOpen = true) (fits : encoder.pending.Fits)
    (goes : encoder.passStaged.Goes calls (outcome, after)) : StaysOpen calls outcome after := by
  rcases passStaged_endsWell opened fits goes with ⟨endsWell, afterOpened, -⟩
  refine ⟨?_, endsWell.orderly, afterOpened⟩
  rw [passStaged, if_pos opened] at goes
  split at goes
  · cases goes
    exact .nothing _
  · cases goes with
    | writeAll writes others =>
        cases others
        exact .of_writes writes _

theorem absorb_staysOpen {list : List Run} (each : ∀ run ∈ list, 0 < run.count)
    (opened : encoder.isOpen = true) (fits : encoder.pending.Fits)
    (goes : (encoder.absorb list).Goes calls (outcome, after)) :
    StaysOpen calls outcome after := by
  induction list generalizing encoder calls with
  | nil => exact passStaged_staysOpen opened fits goes
  | cons run rest induction =>
      have others : ∀ other ∈ rest, 0 < other.count := fun other member =>
        each other (List.mem_cons_of_mem _ member)
      rcases encoder.extend_eq fits run (each run (List.mem_cons_self ..)) with
        ⟨pending, code, extended, middleFits, -⟩
      have middleOpened : (encoder.advanced pending code).isOpen = true := opened
      rw [absorb, extended] at goes
      simp only at goes
      split at goes
      · rcases goes.of_bind with ⟨first, ⟨passed, middle⟩, later, rfl, firstGoes, laterGoes⟩
        have stays := passStaged_staysOpen middleOpened middleFits firstGoes
        cases passed with
        | ok =>
            have rest := induction others stays.opened stays.orderly.fits laterGoes
            exact ⟨rest.reports.after stays.reports.unfailed, rest.orderly, rest.opened⟩
        | error failure =>
            cases laterGoes
            rw [List.append_nil]
            exact stays
      · exact induction others middleOpened middleFits goes

namespace Orderly

theorem encode_staysOpen (orderly : encoder.Orderly) (opened : encoder.isOpen = true)
    {data : Bytes} (goes : (encoder.encode data).Goes calls (outcome, after)) :
    StaysOpen calls outcome after := by
  rw [Encoder.encode, if_pos opened] at goes
  exact absorb_staysOpen (count_pos_of_mem_runs data) opened orderly.fits goes

theorem flushRun_staysOpen (orderly : encoder.Orderly) (opened : encoder.isOpen = true)
    (goes : encoder.flushRun.Goes calls (outcome, after)) : StaysOpen calls outcome after := by
  have middleOpened : (encoder.advanced .idle
    (RunLength.encode encoder.signal encoder.pending.data)).isOpen = true := opened
  rw [Encoder.flushRun, stagePending_eq encoder orderly.fits] at goes
  exact passStaged_staysOpen middleOpened trivial goes

theorem flush_staysOpen (orderly : encoder.Orderly) (opened : encoder.isOpen = true)
    (goes : encoder.flush.Goes calls (outcome, after)) : StaysOpen calls outcome after := by
  rcases goes.of_bind with ⟨first, ⟨passed, middle⟩, later, rfl, firstGoes, laterGoes⟩
  have stays := orderly.flushRun_staysOpen opened firstGoes
  cases passed with
  | error failure =>
      cases laterGoes
      rw [List.append_nil]
      exact stays
  | ok =>
      simp only [stays.opened, if_true] at laterGoes
      cases laterGoes with
      | settle answer others =>
          cases others
          exact ⟨(Reports.of_settled answer _).after stays.reports.unfailed, stays.orderly,
            stays.opened⟩

theorem close_reports (orderly : encoder.Orderly) (opened : encoder.isOpen = true)
    (goes : encoder.close.Goes calls (outcome, after))
    (settles : ∀ failure, .settled (.error failure) ∉ calls) :
    Reports Failure.channel calls outcome ∧ after.Orderly ∧
      (outcome = .ok () → after.isOpen = false) ∧ (outcome ≠ .ok () → after.isOpen = true) := by
  have endsWell := orderly.close goes
  rw [Encoder.close, if_pos opened] at goes
  rcases goes.of_bind with ⟨first, ⟨passed, middle⟩, later, rfl, firstGoes, laterGoes⟩
  have stays := orderly.flushRun_staysOpen opened firstGoes
  cases passed with
  | error failure =>
      cases laterGoes
      rw [List.append_nil]
      refine ⟨stays.reports, stays.orderly, ?_, fun _ => stays.opened⟩
      intro succeeded
      cases succeeded
  | ok =>
      cases laterGoes with
      | settle answer others =>
          cases others with
          | release others =>
              cases others
              cases answer with
              | error failure => exact absurd (by simp) (settles failure)
              | ok =>
                  have given : Reports Failure.channel [.settled (.ok ()), .released] (.ok ()) := by
                    refine .succeeds fun call member => ?_
                    rcases List.mem_pair.mp member with rfl | rfl <;> rfl
                  exact ⟨given.after stays.reports.unfailed, endsWell.orderly, fun _ => rfl,
                    fun failed => absurd rfl failed⟩

theorem flush_of_closed (orderly : encoder.Orderly) (closed : encoder.isOpen = false) :
    encoder.flush = .done (.error (.fault .closed), encoder) := by
  rw [Encoder.flush, flushRun_of_nothing (orderly.idle closed) orderly.unstaged, Writing.bind]
  simp only [closed, Bool.false_eq_true, if_false]

end Orderly

end Encoder

/-! ## Decoding -/

namespace Decoder

variable {decoder after : Decoder} {want : Nat} {pulls upper : List Pull}
  {outcome : Except Failure Bytes} {signal : UInt8} {code data : Bytes}

/-- What a call comes to that was asked for bytes, by what it pulled. -/
inductive Tells : List Pull → Except Failure Bytes → Decoder → Prop
  | hands {pulls : List Pull} {piece : Bytes} {after : Decoder} (fruitful : Fruitful pulls)
      (some' : piece ≠ []) : Tells pulls (.ok piece) after
  | ended {pulls : List Pull} {after : Decoder} (fruitful : Fruitful pulls)
      (none' : (after.outlook []).data = []) (whole : (after.outlook []).ending = .ok []) :
      Tells (pulls ++ [⟨pullLimit, .ok []⟩]) (.ok []) after
  | cut {pulls : List Pull} {part : Part} {offset : Nat} {after : Decoder}
      (fruitful : Fruitful pulls)
      (met : (after.outlook []).ending = .error (.fault (.truncated part offset))) :
      Tells (pulls ++ [⟨pullLimit, .ok []⟩]) (.error (.fault (.truncated part offset))) after
  | malformed {pulls : List Pull} {fault : Fault} {after : Decoder} (fruitful : Fruitful pulls)
      (invalid : Channel.kindOfRunLength fault = .invalidData)
      (met : ∀ wire, (after.outlook wire).ending = .error (.fault fault)) :
      Tells pulls (.error (.fault fault)) after
  | failed {pulls : List Pull} {failure : Channel.Failure} {after : Decoder}
      (fruitful : Fruitful pulls) :
      Tells (pulls ++ [⟨pullLimit, .error failure⟩]) (.error (.channel failure)) after

theorem Tells.cons (tells : Tells pulls outcome after) (limit : Nat) (byte : UInt8)
    (more : Bytes) : Tells (⟨limit, .ok (byte :: more)⟩ :: pulls) outcome after := by
  cases tells with
  | hands fruitful some' => exact .hands (fruitful.cons limit byte more) some'
  | ended fruitful none' whole => exact .ended (fruitful.cons limit byte more) none' whole
  | cut fruitful met => exact .cut (fruitful.cons limit byte more) met
  | malformed fruitful invalid met => exact .malformed (fruitful.cons limit byte more) invalid met
  | failed fruitful => exact .failed (fruitful.cons limit byte more)

theorem Frame.invalidData_of_malformed {buffer : Bytes} {fault : Fault}
    (refused : Frame.parse signal buffer = .malformed fault) :
    Channel.kindOfRunLength fault = .invalidData := by
  cases Frame.flawed_of_parse refused <;> rfl

theorem drain_tells (asked : want ≠ 0) (has : decoder.HasData) :
    Tells [] (decoder.drain want).1 (decoder.drain want).2 := by
  rcases decoder.drainAfter_spec [] want with ⟨piece, after, run, -, some', -⟩
  rw [drain, run]
  exact .hands fruitful_nil (some' (Nat.pos_of_ne_zero asked) has)

theorem atEnd_tells (none' : (decoder.outlook []).data = [])
    (ending : (decoder.outlook []).ending = decoder.atEnd) :
    Tells [⟨pullLimit, .ok []⟩] decoder.atEnd decoder := by
  unfold atEnd at ending ⊢
  split at ending
  · rename_i nothing
    rw [if_pos nothing]
    exact .ended fruitful_nil none' ending
  · rename_i some'
    rw [if_neg some']
    exact .cut fruitful_nil ending

theorem decode_tells (asked : want ≠ 0) (decoder : Decoder)
    (goes : (decoder.decode want).Goes pulls (outcome, after)) : Tells pulls outcome after := by
  induction decoder using decode.induct want generalizing pulls with
  | case1 decoder none' => exact absurd none' asked
  | case2 decoder _ owes =>
      rw [decode, if_neg asked, if_pos owes] at goes
      cases goes
      exact drain_tells asked (.inl owes)
  | case3 decoder _ pays frame size rest whole =>
      rw [decode, if_neg asked, if_neg pays] at goes
      split at goes
      · cases goes
        exact drain_tells asked (.inr ⟨frame, size, rest, whole⟩)
      · simp_all
      · simp_all
  | case4 decoder _ pays fault refused =>
      have ahead := decoder.outlook_malformed (Nat.eq_zero_of_not_pos pays) refused
      rw [decode, if_neg asked, if_neg pays] at goes
      split at goes
      · simp_all
      · rename_i parsed
        cases refused.symm.trans parsed
        cases goes
        exact .malformed fruitful_nil (Frame.invalidData_of_malformed refused) fun wire =>
          (ahead wire).2
      · simp_all
  | case5 decoder _ pays unfinished induction =>
      have ended := decoder.outlook_atEnd (Nat.eq_zero_of_not_pos pays) unfinished
      rw [decode_of_incomplete asked pays unfinished] at goes
      cases goes with
      | pull answer others =>
          rcases answer with failure | (_ | ⟨byte, more⟩)
          · cases others
            exact .failed fruitful_nil
          · cases others
            exact atEnd_tells ended.1 ended.2
          · exact (induction byte more others).cons _ byte more

/-- A decoder that has pulled `code` and handed out `data`. -/
def Stands (signal : UInt8) (code data : Bytes) (decoder : Decoder) : Prop :=
  ∀ wire, (new signal).outlook (code ++ wire) = (decoder.outlook wire).prepend data

theorem stands_new (signal : UInt8) : Stands signal [] [] (new signal) := fun _ => rfl

namespace Stands

theorem serves (stands : Stands signal code data decoder)
    (serves : Serves decoder upper pulls after) :
    Stands signal (code ++ pulled pulls) (data ++ pulled upper) after := by
  intro wire
  rw [List.append_assoc, stands, serves.step, Outlook.prepend_prepend]

theorem front (stands : Stands signal code data decoder) :
    data <+: expand (split signal code).frames := by
  have ahead := congrArg Outlook.data (stands [])
  rw [List.append_nil] at ahead
  exact ⟨_, ahead.symm⟩

theorem fault (stands : Stands signal code data decoder) {fault : Fault} (wire : Bytes)
    (met : (decoder.outlook wire).ending = .error (.fault fault)) :
    RunLength.decode signal (code ++ wire) = .error fault := by
  have ending := ending_outlook_new signal (code ++ wire)
  rw [stands, Outlook.ending_prepend, met] at ending
  cases decoded : RunLength.decode signal (code ++ wire) with
  | ok whole =>
      rw [decoded] at ending
      cases ending
  | error other =>
      rw [decoded] at ending
      cases ending
      rfl

theorem whole (stands : Stands signal code data decoder)
    (sound : (decoder.outlook []).ending = .ok []) (none' : (decoder.outlook []).data = []) :
    RunLength.decode signal code = .ok data := by
  have ending := ending_outlook_new signal code
  have ahead := stands []
  rw [List.append_nil] at ahead
  rw [ahead, Outlook.ending_prepend, sound] at ending
  cases decoded : RunLength.decode signal code with
  | error fault =>
      rw [decoded] at ending
      cases ending
  | ok whole =>
      have expansion : expand (split signal code).frames = data ++ (decoder.outlook []).data :=
        congrArg Outlook.data ahead
      rw [none', List.append_nil] at expansion
      rw [← (decode_eq_ok_iff.mp decoded).2.2, expansion]

end Stands

/-! ## Calls one after another -/

namespace Serves

theorem of_append {more : List Pull} (serves : Serves decoder (upper ++ more) pulls after) :
    ∃ first later middle, pulls = first ++ later ∧ Serves decoder upper first middle ∧
      Serves middle more later after := by
  induction upper generalizing decoder pulls with
  | nil => exact ⟨[], pulls, decoder, rfl, .nil decoder, serves⟩
  | cons pull upper induction =>
      cases serves with
      | cons call others =>
          rcases induction others with ⟨first, later, middle, rfl, serves, laterServes⟩
          exact ⟨_, later, middle, (List.append_assoc ..).symm, .cons call serves, laterServes⟩

theorem of_concat {limit : Nat} {answer : Except Channel.Failure Bytes}
    (serves : Serves decoder (upper ++ [⟨limit, answer⟩]) pulls after) :
    ∃ first later middle outcome, pulls = first ++ later ∧ Serves decoder upper first middle ∧
      (middle.decode limit).Goes later (outcome, after) ∧
      answer = outcome.mapError Failure.toChannel := by
  rcases serves.of_append with ⟨first, later, middle, rfl, earlier, last⟩
  cases last with
  | cons call none' =>
      cases none'
      exact ⟨first, _, middle, _, by rw [List.append_nil], earlier, call, rfl⟩

theorem fruitful (serves : Serves decoder upper pulls after) (fruitful : Fruitful upper) :
    Fruitful pulls := by
  induction serves with
  | nil decoder => exact fruitful_nil
  | @cons _ middle _ limit _ _ _ outcome call others induction =>
      rcases List.forall_mem_cons.mp fruitful with ⟨⟨byte, more, handed⟩, rest⟩
      have asked : limit ≠ 0 := by
        rintro rfl
        rw [decode, if_pos rfl] at call
        cases call
        cases handed
      refine Fruitful.append ?_ (induction rest)
      cases decode_tells asked _ call with
      | hands firstFruitful some' => exact firstFruitful
      | ended fruitful none' whole => cases handed
      | cut fruitful met => cases handed
      | malformed fruitful invalid met => cases handed
      | failed fruitful => cases handed

end Serves

end Decoder

end RunLength

end ByteStreams
