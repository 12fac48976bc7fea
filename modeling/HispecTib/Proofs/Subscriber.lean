import HispecTib.Base.Scan
import HispecTib.Proofs.Liveness
import HispecTib.Proofs.ReplyTexts
import HispecTib.Proofs.Telemetry

/-!
# What a subscriber reads

A subscriber sees only what is published, and a reply goes to whatever topic its request names, so
the topic does not tell a sample from a reply. The payload does: a sample is scanned back
(`sample_scanned`) to numbers that no other reading has (`Reading.numbers_injective`), and no reply
starts as a sample does (`reply_not_scanned`).

* `telemetry_readings`: in every run of the main loop and the threads, the payloads that can be
  scanned give the readings of the published samples, in order.
-/

open CLib

namespace Tib

/-! ## Samples -/

/-- One pair of samples, with its time. -/
structure Reading where
  yj : Int16
  hk : Int16
  time : Int64

def Reading.msg (r : Reading) : OutMsg := photodiodeMsg r.yj r.hk r.time

def Reading.numbers (r : Reading) : List Int := [r.yj.toInt, r.hk.toInt, r.time.toInt]

theorem Reading.numbers_injective : Function.Injective Reading.numbers := by
  rintro ⟨yj, hk, time⟩ ⟨yj', hk', time'⟩ h
  simpa [Reading.numbers, Int16.toInt_inj, Int64.toInt_inj] using h

/-- The format of the print in `photodiode_thread`. -/
def sampleFormat : List Piece := [.text (str "\x7b\"yj\":"), .int, .text (str ", \"hk\":"), .int,
  .text (str ", \"time\":"), .int, .text (str "\x7d")]

/-- What is published of a message is its text up to the NUL. -/
theorem Publishable.payload_eq {om : OutMsg} (h : Publishable om) :
    om.payload.data.take om.payloadLen = om.payload.cstr := by
  rw [h.payloadLen_eq]
  exact take_strlen _

/-- The numbers in a payload that is published. -/
def OutMsg.scanned (om : OutMsg) : Option (List Int) :=
  scanInts sampleFormat (om.payload.data.take om.payloadLen)

theorem sample_scanned (r : Reading) : r.msg.scanned = some r.numbers := by
  have htext : photodiodeText r.yj r.hk r.time = printInts sampleFormat r.numbers := by
    simp [photodiodeText, sampleFormat, Reading.numbers, printInts]
  have hcstr : r.msg.payload.cstr = photodiodeText r.yj r.hk r.time :=
    cstr_print (zero_notMem_photodiodeText _ _ _) (photodiodeText_length _ _ _)
  have hpub : Publishable r.msg := photodiodeMsg_publishable _ _ _
  rw [OutMsg.scanned, hpub.payload_eq, hcstr, htext]
  exact scanInts_printInts (by decide) rfl

/-! ## Replies -/

theorem yj_foreign : Foreign (str "yj") := ⟨by decide, by decide, by decide⟩

theorem reply_not_scanned {cmd : Command} {om : OutMsg} (h : Tells cmd om) :
    om.scanned = none := by
  obtain ⟨typ, text, htext, rfl⟩ := h
  have hpub := msgBuilder_publishable cmd typ htext.fits
  refine Option.eq_none_iff_forall_ne_some.mpr fun is hscan => ?_
  rw [OutMsg.scanned, hpub.payload_eq, msgBuilder_payload cmd typ htext.fits] at hscan
  have hstart := prefix_of_scanInts hscan
  have hmember : member (str "yj") = str "\x7b\"yj\":" := by decide
  rw [← hmember] at hstart
  exact htext.not_opening yj_foreign (hstart.trans (List.takeWhile_prefix _))

/-- Every message from another loop than the photodiode's is a reply. -/
structure Told (s : Firmware) : Prop where
  sent : ∀ m ∈ s.sent, m.1 ≠ .photodiode → ∃ cmd, Tells cmd m.2
  pending : ∀ om ∈ s.executor.pending, ∃ cmd, Tells cmd om
  rejection : ∀ om ∈ s.rejection, ∃ cmd, Tells cmd om

section Runs

variable {env : Env} {w : World} {s t : Firmware} {l : Label}

theorem Told.boot : Told (.boot w) :=
  ⟨fun _ h => absurd h List.not_mem_nil, fun _ h => absurd h List.not_mem_nil,
    fun _ h => absurd h (Option.not_mem_none _)⟩

/-- **Steps.** -/
theorem Told.step (h : Told s) (hst : Step env s l t) : Told t := by
  have hput {m : Sender × OutMsg} {ms : List (Sender × OutMsg)} (hms : m ∈ s.taken ++ ms)
      (hnew : m ∈ ms → m ∈ s.outbound.items ∨ (m.1 ≠ .photodiode → ∃ cmd, Tells cmd m.2))
      (hm : m.1 ≠ .photodiode) : ∃ cmd, Tells cmd m.2 := by
    rcases List.mem_append.mp hms with hmem | hmem
    · exact h.sent m (List.mem_append_left _ hmem) hm
    · rcases hnew hmem with hold | hnew
      · exact h.sent m (List.mem_append_right _ hold) hm
      · exact hnew hm
  cases hst with
  | receive pub _ => exact ⟨h.sent, h.pending, fun om hom => rejection_text hom⟩
  | reject hr =>
    refine ⟨fun m hm => hput hm fun hmem => ?_, h.pending,
      fun _ hom => absurd hom (Option.not_mem_none _)⟩
    refine (mem_offer hmem).imp_right ?_
    rintro rfl -
    exact h.rejection _ hr
  | take _ hget =>
    refine ⟨fun m hm => h.sent m ?_, h.pending, h.rejection⟩
    simpa [Firmware.sent, MsgQueue.get?_items hget] using hm
  | fetch _ _ => exact ⟨h.sent, fun _ hom => absurd hom List.not_mem_nil, h.rejection⟩
  | dispatch _ =>
    refine ⟨h.sent, fun om hom => ?_, h.rejection⟩
    obtain rfl := List.mem_singleton.mp hom
    exact ⟨_, dispatch_text env _ _⟩
  | deliver he hq =>
    refine ⟨fun m hm => hput hm fun hmem => ?_,
      fun _ hom => absurd hom List.not_mem_nil, h.rejection⟩
    rw [MsgQueue.put?_items hq, List.mem_append, List.mem_singleton] at hmem
    refine hmem.imp_right ?_
    rintro rfl -
    exact h.pending _ (by rw [he]; exact List.mem_cons_self)
  | forward _ =>
    refine ⟨fun m hm => hput hm fun hmem => ?_, h.pending, h.rejection⟩
    refine (mem_offer hmem).imp_right ?_
    rintro rfl hne
    exact absurd rfl hne
  | _ => exact ⟨h.sent, h.pending, h.rejection⟩

theorem told_of_reachable (h : (firmware env w).Reachable s) : Told s := by
  refine h.of_steps ?_ fun s l t hs hst => hs.step hst
  rintro s rfl
  exact .boot

/-! ## Readings -/

/-- The reading that a step takes. -/
def readings (_ : Firmware) : Label → List Reading
  | .measure yj hk time => [⟨yj, hk, time⟩]
  | _ => []

theorem samples_readings (s : Firmware) (l : Label) :
    samples (producerEvents s l) = (readings s l).map Reading.msg := by
  cases l with
  | measure yj hk time => rfl
  | store | full => cases hp : s.photodiode <;> simp [producerEvents, readings, samples,
      Photodiode.held, hp]
  | _ => rfl

theorem Step.readings (hst : Step env s l t) :
    t.telemetry.Sublist (s.telemetry ++ (readings s l).map Reading.msg) := by
  rw [← samples_readings]
  exact hst.telemetry

/-- The main loop with the record of the readings. -/
def readingLoop (env : Env) (w : World) : Sys :=
  (mainLoop env w).logged fun b l => l.firmware.elim [] (readings b.fw)

theorem telemetry_sublist {rs : List Reading}
    (h : ((firmware env w).logged readings).Reachable (s, rs)) :
    s.telemetry.Sublist (rs.map Reading.msg) := by
  refine h.of_steps (P := fun (x : Firmware × List Reading) =>
    x.1.telemetry.Sublist (x.2.map Reading.msg)) ?_ ?_
  · rintro ⟨s, rs⟩ ⟨hs, hrs⟩
    obtain rfl : s = .boot w := hs
    exact List.nil_sublist _
  · rintro ⟨s, rs⟩ l ⟨t, rs'⟩ hsub ⟨hst, hlog⟩
    obtain rfl : rs' = rs ++ readings s l := hlog
    have hst : Step env s l t := hst
    rw [List.map_append]
    exact hst.readings.trans (hsub.append_right _)

/-- The payloads of the calls are those of the messages published. -/
theorem published_payloads {b : MainLoop} (h : Sequenced b) :
    b.calls.filterMap (fun call => scanInts sampleFormat call.param.header.payload) =
      b.published.filterMap fun m => m.2.scanned := by
  have hscan (ms : List (Sender × OutMsg)) (id : Nat → UInt16) :
      (ms.mapIdx fun i m => m.2.publishParam (id i)).filterMap
        (fun param => scanInts sampleFormat param.header.payload) =
      ms.filterMap fun m => m.2.scanned := by
    induction ms generalizing id with
    | nil => rfl
    | cons m ms ih =>
      rw [List.mapIdx_cons, List.filterMap_cons, List.filterMap_cons, ih fun i => id (i + 1)]
      rfl
  rw [← hscan b.published fun i => UInt16.ofNat (i + 1), ← h.published, List.filterMap_map]
  rfl

/-- **What a subscriber reads.** In every run of the main loop and the threads, the payloads that
have the format of a sample, whatever their topic, give the readings of the samples published, in
order and with none left out; and those are a sublist of all readings taken. -/
theorem telemetry_readings {b : MainLoop} {rs : List Reading}
    (h : (readingLoop env w).Reachable (b, rs)) :
    ∃ got : List Reading, got.Sublist rs ∧
      b.published.filterMap fromPhotodiode = got.map Reading.msg ∧
      b.calls.filterMap (fun call => scanInts sampleFormat call.param.header.payload) =
        got.map Reading.numbers := by
  have hb : (mainLoop env w).Reachable b := (Sys.logged_refines (mainLoop env w) _).reachable h
  have hfw : ((firmware env w).logged readings).Reachable (b.fw, rs) :=
    ((mainLoop_refines env w).logged readings).reachable h
  have htold := told_of_reachable ((mainLoop_refines env w).reachable hb)
  have hsub : (b.published.filterMap fromPhotodiode).Sublist (rs.map Reading.msg) :=
    (((List.take_sublist _ _).filterMap _).trans (List.sublist_append_left _ _)).trans
      (telemetry_sublist hfw)
  obtain ⟨got, hgot, heq⟩ := List.sublist_map_iff.mp hsub
  refine ⟨got, hgot, heq, ?_⟩
  have hscan : ∀ m ∈ b.published, m.2.scanned = (fromPhotodiode m).bind OutMsg.scanned := by
    rintro ⟨sender, om⟩ hm
    by_cases hsender : sender = .photodiode
    · rw [hsender]
      rfl
    · obtain ⟨cmd, htells⟩ :=
        htold.sent _ (List.mem_append_left _ (List.mem_of_mem_take hm)) hsender
      rw [reply_not_scanned htells, fromPhotodiode, if_neg hsender]
      rfl
  calc b.calls.filterMap (fun call => scanInts sampleFormat call.param.header.payload)
      = b.published.filterMap fun m => m.2.scanned := published_payloads (sequenced_of_reachable hb)
    _ = b.published.filterMap fun m => (fromPhotodiode m).bind OutMsg.scanned :=
      List.filterMap_congr hscan
    _ = (got.map Reading.msg).filterMap OutMsg.scanned := by rw [← List.filterMap_filterMap, heq]
    _ = got.map Reading.numbers := by
      rw [List.filterMap_map, ← List.filterMap_eq_map]
      exact congrFun (congrArg List.filterMap (funext sample_scanned)) got

/-- Two samples, published and read in order. -/
theorem sample_read : ∃ (b : MainLoop) (rs got : List Reading), got.Sublist rs ∧
    got.map Reading.msg = [photodiodeMsg 1 2 3, photodiodeMsg 4 5 6] ∧
    b.calls.filterMap (fun call => scanInts sampleFormat call.param.header.payload) =
      got.map Reading.numbers := by
  have hrun := drained_sample (drained_sample drained_start 1 2 3) 4 5 6
  obtain ⟨rs, h⟩ := hrun.logged fun (b : MainLoop) (l : MainLabel) =>
    l.firmware.elim [] (readings b.fw)
  obtain ⟨got, hsub, heq, hread⟩ := telemetry_readings h
  exact ⟨_, rs, got, hsub, heq.symm, hread⟩

end Runs

end Tib
