import HispecTib.Proofs.Publishing

/-!
# Telemetry

The samples pass through two bounded queues: the photodiode thread purges a full `photodiode_queue`,
and `photodiode_publish_handler` drops a sample that finds `outbound_queue` full. The record of the
producer (`ProducerEvent`) is what its loop has done so far.

* **Order** (`Firmware.telemetry`): what was published, and what is on its way, is a sublist of the
  samples.
* **Iterations** (`Iterating`): only the producer puts on `photodiode_queue`, so the put after a
  purge succeeds.
* `telemetry_in_order`: both, for every run of the main loop and the threads.
-/

open CLib

namespace Tib

/-! ## What the producer does -/

inductive ProducerEvent where
  | sample (m : OutMsg)
  | put (m : OutMsg) (accepted : Bool)
  | purge

/-- What a step of the firmware is for the producer. -/
def producerEvents (s : Firmware) : Label → List ProducerEvent
  | .measure yj hk time => [.sample (photodiodeMsg yj hk time)]
  | .store => s.photodiode.held.map fun m => .put m true
  | .full => s.photodiode.held.map fun m => .put m false
  | .purge => [.purge]
  | _ => []

/-- The samples produced, in order. -/
def samples (es : List ProducerEvent) : List OutMsg :=
  es.filterMap fun
    | .sample m => some m
    | _ => none

/-- A whole iteration of the producer, for the sample `m`: its put is accepted, at once or after a
purge. -/
inductive Iteration (m : OutMsg) : List ProducerEvent → Prop
  | direct : Iteration m [.sample m, .put m true]
  | purged : Iteration m [.sample m, .put m false, .purge, .put m true]

/-- The labels of the photodiode thread. -/
def Label.isProducer : Label → Bool
  | .measure _ _ _ | .store | .full | .purge => true
  | _ => false

section Telemetry

variable {env : Env} {w : World} {s t : Firmware} {l : Label}

theorem samples_append (es es' : List ProducerEvent) :
    samples (es ++ es') = samples es ++ samples es' := List.filterMap_append

/-! ## Order -/

/-- The message, if it is a sample. -/
def fromPhotodiode (m : Sender × OutMsg) : Option OutMsg :=
  if m.1 = .photodiode then some m.2 else none

/-- The samples that were published, and those on their way, from the oldest to the newest. -/
def Firmware.telemetry (s : Firmware) : List OutMsg :=
  s.taken.filterMap fromPhotodiode ++ (s.outbound.items.filterMap fromPhotodiode ++
    (s.sample.toList ++ (s.photodiodeQueue.items ++ s.photodiode.held)))

@[simp] theorem fromPhotodiode_sample (m : OutMsg) :
    fromPhotodiode (.photodiode, m) = some m := rfl

/-- A step moves samples on, takes in a new one at the end, or drops some. -/
theorem Step.telemetry (hst : Step env s l t) :
    t.telemetry.Sublist (s.telemetry ++ samples (producerEvents s l)) := by
  -- All steps but two keep the list, or add the new sample to it.
  have heq {xs ys : List OutMsg} (h : xs = ys) : xs.Sublist ys := h ▸ List.Sublist.refl _
  cases hst with
  | measure yj hk time hs =>
    exact heq (by simp [Firmware.telemetry, hs, Photodiode.held, producerEvents, samples])
  | store hs hput =>
    exact heq (by simp [Firmware.telemetry, hs, Photodiode.held, producerEvents, samples,
      MsgQueue.put?_items hput])
  | full hs _ =>
    exact heq (by simp [Firmware.telemetry, hs, Photodiode.held, producerEvents, samples])
  | purge hs =>
    simp only [Firmware.telemetry, hs, Photodiode.held, producerEvents, samples,
      MsgQueue.empty_items, List.filterMap_cons_none, List.filterMap_nil, List.append_nil,
      List.nil_append]
    refine List.Sublist.append_left (List.Sublist.append_left (List.Sublist.append_left ?_ _) _) _
    exact List.sublist_append_right _ _
  | collect hs hget =>
    exact heq (by simp [Firmware.telemetry, hs, producerEvents, samples,
      MsgQueue.get?_items hget])
  | forward hs =>
    rename_i r
    simp only [Firmware.telemetry, hs, producerEvents, samples, List.filterMap_nil,
      List.append_nil, Option.toList_none, Option.toList_some, List.nil_append]
    refine List.Sublist.append_left ?_ _
    rcases s.outbound.offer_items (.photodiode, r) with hq | hq
    · exact heq (by simp [hq])
    · rw [hq]
      exact List.Sublist.append_left (List.sublist_append_right _ _) _
  | take _ hget =>
    refine heq ?_
    simp only [Firmware.telemetry, MsgQueue.get?_items hget, producerEvents, samples,
      List.filterMap_append, List.filterMap_nil, List.append_nil, List.append_assoc]
    rw [← List.append_assoc ([_].filterMap _), ← List.filterMap_append, List.singleton_append]
  | reject _ =>
    exact heq (by simp [Firmware.telemetry, producerEvents, samples,
      MsgQueue.offer_filterMap (f := fromPhotodiode) (a := (.commandHandler, _)) rfl])
  | deliver _ hput =>
    exact heq (by simp [Firmware.telemetry, producerEvents, samples, MsgQueue.put?_items hput,
      fromPhotodiode])
  | _ => exact heq (List.append_nil _).symm

/-! ## Iterations -/

/-- What the producer has done in the iteration under way. After a purge the queue is empty. -/
def Photodiode.Progress (queue : List OutMsg) : Photodiode → List ProducerEvent → Prop
  | .sampling, es => es = []
  | .storing m, es => es = [.sample m] ∨ es = [.sample m, .put m false, .purge] ∧ queue = []
  | .purging m, es => es = [.sample m, .put m false]

/-- The invariant: whole iterations, and then what was done in the one under way. -/
def Iterating (s : Firmware) (es : List ProducerEvent) : Prop :=
  ∃ its last, es = List.flatten its ++ last ∧ (∀ it ∈ its, ∃ m, Iteration m it) ∧
    s.photodiode.Progress s.photodiodeQueue.items last

theorem Iterating.boot : Iterating (.boot w) [] := ⟨[], [], rfl, nofun, rfl⟩

/-- The iteration under way goes on. -/
theorem Iterating.goOn {es es' : List ProducerEvent} (h : Iterating s es)
    (hp : ∀ last, s.photodiode.Progress s.photodiodeQueue.items last →
      t.photodiode.Progress t.photodiodeQueue.items (last ++ es')) :
    Iterating t (es ++ es') := by
  obtain ⟨its, last, rfl, hits, hlast⟩ := h
  exact ⟨its, last ++ es', List.append_assoc _ _ _, hits, hp last hlast⟩

/-- The iteration under way ends. -/
theorem Iterating.finish {es es' : List ProducerEvent} (h : Iterating s es)
    (ht : t.photodiode = .sampling)
    (hp : ∀ last, s.photodiode.Progress s.photodiodeQueue.items last →
      ∃ m, Iteration m (last ++ es')) : Iterating t (es ++ es') := by
  obtain ⟨its, last, rfl, hits, hlast⟩ := h
  refine ⟨its ++ [last ++ es'], [], by simp, fun it hit => ?_, by rw [ht]; rfl⟩
  rcases List.mem_append.mp hit with hit | hit
  · exact hits it hit
  · exact List.mem_singleton.mp hit ▸ hp last hlast

/-- No other step touches the producer, or adds to `photodiode_queue`. -/
theorem Step.producer_other (hst : Step env s l t) (hl : l.isProducer = false) :
    t.photodiode = s.photodiode ∧ producerEvents s l = [] ∧
      (s.photodiodeQueue.items = [] → t.photodiodeQueue.items = []) := by
  cases hst with
  | measure yj hk time _ => cases hl
  | store _ _ => cases hl
  | full _ _ => cases hl
  | purge _ => cases hl
  | collect _ hget =>
    refine ⟨rfl, rfl, fun hempty => ?_⟩
    rw [MsgQueue.get?_items hget] at hempty
    cases hempty
  | _ => exact ⟨rfl, rfl, id⟩

theorem Photodiode.Progress.of_queue {p : Photodiode} {queue queue' : List OutMsg}
    {es : List ProducerEvent} (h : p.Progress queue es) (hq : queue = [] → queue' = []) :
    p.Progress queue' es := by
  cases p with
  | sampling => exact h
  | storing m => exact h.imp_right fun ⟨hes, hempty⟩ => ⟨hes, hq hempty⟩
  | purging m => exact h

/-- **Steps.** -/
theorem Iterating.step {es : List ProducerEvent} (h : Iterating s es) (hst : Step env s l t) :
    Iterating t (es ++ producerEvents s l) := by
  by_cases hl : l.isProducer = false
  · obtain ⟨hp, hevents, hqueue⟩ := hst.producer_other hl
    rw [hevents]
    refine h.goOn fun last hlast => ?_
    rw [hp, List.append_nil]
    exact hlast.of_queue hqueue
  · cases hst with
    | measure yj hk time hs =>
      refine h.goOn fun last hlast => ?_
      rw [hs] at hlast
      exact Or.inl (by rw [show last = [] from hlast]; rfl)
    | store hs hput =>
      rename_i m _
      refine h.finish rfl fun last hlast => ⟨m, ?_⟩
      rw [hs] at hlast
      simp only [producerEvents, hs, Photodiode.held]
      rcases hlast with rfl | ⟨rfl, -⟩
      · exact .direct
      · exact .purged
    | full hs hput =>
      refine h.goOn fun last hlast => ?_
      rw [hs] at hlast
      simp only [producerEvents, hs, Photodiode.held]
      rcases hlast with rfl | ⟨-, hempty⟩
      · rfl
      · -- An empty queue is not full.
        have hfull := MsgQueue.put?_eq_none.mp hput
        rw [hempty] at hfull
        cases hfull
    | purge hs =>
      refine h.goOn fun last hlast => Or.inr ⟨?_, rfl⟩
      rw [hs] at hlast
      rw [show last = _ from hlast]
      rfl
    | _ => exact absurd rfl hl

/-- The producer always has a next step: it never waits. -/
theorem producer_enabled (env : Env) (s : Firmware) :
    ∃ l t, l.isProducer = true ∧ Step env s l t := by
  cases hs : s.photodiode with
  | sampling => exact ⟨_, _, rfl, .measure 0 0 0 hs⟩
  | purging m => exact ⟨_, _, rfl, .purge hs⟩
  | storing m =>
    cases hput : s.photodiodeQueue.put? m with
    | none => exact ⟨_, _, rfl, .full hs hput⟩
    | some q => exact ⟨_, _, rfl, .store hs hput⟩

/-! ## Runs -/

/-- The firmware with the record of the producer. -/
def telemetryFirmware (env : Env) (w : World) : Sys := (firmware env w).logged producerEvents

theorem telemetryFirmware_invariant {es : List ProducerEvent}
    (h : (telemetryFirmware env w).Reachable (s, es)) :
    s.telemetry.Sublist (samples es) ∧ Iterating s es := by
  refine h.of_steps (P := fun (x : Firmware × List ProducerEvent) =>
    x.1.telemetry.Sublist (samples x.2) ∧ Iterating x.1 x.2) ?_ ?_
  · rintro ⟨s, es⟩ ⟨hs, hes⟩
    obtain rfl : s = .boot w := hs
    obtain rfl : es = [] := hes
    exact ⟨List.Sublist.refl _, .boot⟩
  · rintro ⟨s, es⟩ l ⟨t, es'⟩ ⟨hsub, hit⟩ ⟨hst, hlog⟩
    obtain rfl : es' = es ++ producerEvents s l := hlog
    have hst : Step env s l t := hst
    refine ⟨?_, hit.step hst⟩
    rw [samples_append]
    exact hst.telemetry.trans (hsub.append_right _)

/-- The main loop with the record of the producer. -/
def telemetryLoop (env : Env) (w : World) : Sys :=
  (mainLoop env w).logged fun b l => l.firmware.elim [] (producerEvents b.fw)

/-- **Telemetry.** In every run of the main loop and the threads, the samples published are a
sublist of the samples produced; every iteration of the producer that is over has had its own
message accepted, with at most two puts, and the one under way is the start of such an iteration
and can go on. -/
theorem telemetry_in_order {b : MainLoop} {es : List ProducerEvent}
    (h : (telemetryLoop env w).Reachable (b, es)) :
    (b.fw.taken.filterMap fromPhotodiode).Sublist (samples es) ∧
      b.calls.map PublishCall.param <+:
        b.fw.taken.mapIdx (fun i m => m.2.publishParam (UInt16.ofNat (i + 1))) ∧
      (∃ its last, es = List.flatten its ++ last ∧ (∀ it ∈ its, ∃ m, Iteration m it) ∧
        ∃ m it, Iteration m it ∧ last <+: it ∧ last ≠ it) ∧
      ∃ l t, l.isProducer = true ∧ MainStep env b (.thread l) t := by
  have hb : (mainLoop env w).Reachable b := (Sys.logged_refines (mainLoop env w) _).reachable h
  have hfw : (telemetryFirmware env w).Reachable (b.fw, es) :=
    ((mainLoop_refines env w).logged producerEvents).reachable h
  obtain ⟨hsub, its, last, hes, hits, hlast⟩ := telemetryFirmware_invariant hfw
  refine ⟨(List.sublist_append_left _ _).trans hsub, ?_, ⟨its, last, hes, hits, ?_⟩, ?_⟩
  · rw [← (sequenced_of_reachable hb).params_eq]
    exact List.prefix_append _ _
  · cases hp : b.fw.photodiode with
    | sampling =>
      rw [hp] at hlast
      obtain rfl : last = [] := hlast
      exact ⟨photodiodeMsg 0 0 0, _, .direct, List.nil_prefix, nofun⟩
    | storing m =>
      rw [hp] at hlast
      rcases hlast with rfl | ⟨rfl, -⟩
      · exact ⟨m, _, .direct, ⟨[.put m true], rfl⟩, by simp⟩
      · exact ⟨m, _, .purged, ⟨[.put m true], rfl⟩, by simp⟩
    | purging m =>
      rw [hp] at hlast
      obtain rfl : last = _ := hlast
      exact ⟨m, _, .purged, ⟨[.purge, .put m true], rfl⟩, by simp⟩
  · obtain ⟨l, fw, hl, hst⟩ := producer_enabled env b.fw
    refine ⟨l, _, hl, .thread ?_ hst⟩
    cases l <;> first | exact trivial | cases hl

/-- Two samples, published in order. -/
theorem sample_published : ∃ b es, (telemetryLoop setEnv .boot).Reachable (b, es) ∧
    b.fw.taken.filterMap fromPhotodiode = [photodiodeMsg 1 2 3, photodiodeMsg 4 5 6] ∧
    [photodiodeMsg 1 2 3, photodiodeMsg 4 5 6].Sublist (samples es) := by
  have hrun := drained_sample (drained_sample drained_start 1 2 3) 4 5 6
  obtain ⟨es, h⟩ := hrun.logged fun (b : MainLoop) (l : MainLabel) =>
    l.firmware.elim [] (producerEvents b.fw)
  exact ⟨_, es, h, rfl, (telemetry_in_order h).1⟩

end Telemetry

end Tib
