import HispecTib.App.MainThread
import HispecTib.Proofs.Publishing

/-!
# The main thread runs the main loop

* `mqttEventHandler_connected`: what an event does to `mqtt_connected` in the main thread is what
  the event handler does.
* `mainThread_refines`: the steps of the main thread are steps of the main loop, or the loop does
  not see them. So what holds in every state of `mainLoop` holds with the clock and the watchdog,
  too (`mainLoop_reachable`).
-/

open CLib

namespace Tib

section MainThread

variable {env : Env} {w : World} {b t : MainThread} {l : MainThreadLabel}

/-- What the event handler leaves in `mqtt_connected`. -/
theorem mqttEventHandler_connected {η : Type} (lib : MqttLib) (evt : MqttEvt η) (c : Client η) :
    (mqttEventHandler lib evt c).mqttConnected = evt.connectedAfter c.mqttConnected := by
  cases evt with
  | connack result =>
    simp only [mqttEventHandler, MqttEvt.connectedAfter, onMqttConnect]
    split <;> rfl
  | pubrec result messageId | pubrel result messageId =>
    simp only [mqttEventHandler, MqttEvt.connectedAfter, Client.record]
    split <;> rfl
  | publish param =>
    simp only [mqttEventHandler, MqttEvt.connectedAfter, acknowledge, onMqttPublish,
      mqttReadPublishPayload, Client.record]
    split_ifs <;> rfl
  | _ => rfl

/-! ## The main loop inside -/

/-- The step of the main loop that a step of the main thread is. -/
def MainThreadLabel.loop : MainThreadLabel → Option MainLabel
  | .thread l => some (.thread l)
  | .event (.connack result) => if result ≠ 0 then none else some .connack
  | .event (.disconnect _) => some .disconnected
  | .connected => some .connected
  | .subscribed rc => some (.subscribed rc)
  | .enter => some .enter
  | .take => some .take
  | .publish rc => some (.publish rc)
  | .process => some .empty
  | .processed rc => some (.process rc)
  | .leave => some .leave
  | .disconnect rc => some (.disconnect rc)
  | _ => none

theorem MainPc.Allows.loop {pc : MainPc} {l : Label} (h : pc.Allows l) : pc.phase.Allows l := by
  cases l with
  | take => exact h
  | receive pub | reject => cases pc <;> first | rfl | cases h
  | _ => trivial

theorem MainPc.readsInput_loop {pc : MainPc} (h : pc.readsInput) : pc.phase.readsInput := by
  cases pc <;> first | rfl | cases h

theorem MainPc.inLibrary_loop {pc : MainPc} (h : pc.inLibrary) : pc.phase.inLibrary := by
  cases pc <;> first | rfl | cases h

/-- Outside `mqtt_input` there is no rejection to put, and before the loop there is no
connection. -/
structure MainThread.Settled (b : MainThread) : Prop where
  rejection : b.pc.readsInput = false → b.fw.rejection = none
  fresh : b.pc.inLoop = false → b.mqttConnected = false

theorem pollNext_inLoop (rc : Int) (revents : Revents) : (pollNext rc revents).inLoop = true := by
  unfold pollNext
  split_ifs <;> rfl

theorem MainPc.readsInput_inLibrary {pc : MainPc} (h : pc.readsInput) : pc.inLibrary := by
  cases pc <;> first | rfl | cases h

/-- Events come in library calls. -/
theorem MainPc.Delivers.inLibrary {pc : MainPc} {evt : MqttEvt Unit} (h : pc.Delivers evt) :
    pc.inLibrary := by
  cases evt with
  | disconnect result => exact h
  | _ => exact MainPc.readsInput_inLibrary h

/-- There are no library calls before the loop. -/
theorem MainPc.inLibrary_inLoop {pc : MainPc} (h : pc.inLibrary) : pc.inLoop = true := by
  cases pc <;> first | rfl | cases h

theorem MainThreadStep.settled (hst : MainThreadStep env b l t) (hb : b.Settled) : t.Settled := by
  cases hst with
  | thread hallows hfw =>
    refine ⟨fun hpc => hfw.rejection_eq ?_ (hb.rejection hpc), hb.fresh⟩
    rintro pub rfl
    exact Bool.false_ne_true (hpc.symm.trans hallows)
  | networkEvent online _ _ => exact ⟨hb.rejection, hb.fresh⟩
  | event evt hdel =>
    refine ⟨hb.rejection, fun hpc => ?_⟩
    exact absurd (hpc.symm.trans (MainPc.inLibrary_inLoop hdel.inLibrary)) Bool.false_ne_true
  | watchdogInit ok h | setup iface h | networkReady h _ | initFailed rc h _ =>
    exact ⟨fun _ => hb.rejection (by rw [h]; rfl), fun _ => hb.fresh (by rw [h]; rfl)⟩
  | networkSleep d _ _ _ => exact ⟨hb.rejection, hb.fresh⟩
  | initialized h => exact ⟨fun _ => hb.rejection (by rw [h]; rfl), fun _ => rfl⟩
  | connackInput rc _ hnone | input rc _ hnone => exact ⟨fun _ => hnone, nofun⟩
  | connect rc h | connackPoll d rc h _ | processed h =>
    refine ⟨fun _ => hb.rejection (by rw [h]; rfl), fun hpc => ?_⟩
    dsimp only at hpc
    split_ifs at hpc <;> cases hpc
  | poll d rc revents h _ _ =>
    refine ⟨fun _ => hb.rejection (by rw [h]; rfl), fun hpc => ?_⟩
    exact absurd (hpc.symm.trans (pollNext_inLoop rc revents)) Bool.false_ne_true
  | attempt h _ | retrySleep d h _ | keep h _ | abort h _ | aborted h | connected h _
    | subscribed rc h | enter h _ | watchdog h | take h _ | publish rc h | process h _ | live rc h
    | leave h _ | disconnect rc h =>
    exact ⟨fun _ => hb.rejection (by rw [h]; rfl), nofun⟩

theorem mainThread_settled (h : (mainThread env w).Reachable b) : b.Settled := by
  refine h.of_steps (P := MainThread.Settled) ?_ fun b l t hb hst => MainThreadStep.settled hst hb
  rintro b ⟨t, rfl⟩
  exact ⟨fun _ => rfl, fun _ => rfl⟩

/-- A step with no label of the main loop is not seen there. -/
theorem MainThread.loop_eq (hfw : t.fw = b.fw) (hphase : t.pc.phase = b.pc.phase)
    (hflag : t.mqttConnected = b.mqttConnected) (hid : t.msgId = b.msgId)
    (hcalls : t.calls = b.calls) : t.loop = b.loop := by
  simp only [MainThread.loop, hfw, hphase, hflag, hid, hcalls]

theorem pollNext_phase (rc : Int) (revents : Revents) :
    (pollNext rc revents).phase = .processing := by
  unfold pollNext
  split_ifs <;> rfl

/-- **Steps.** -/
theorem MainThreadStep.loop (hst : MainThreadStep env b l t) (hb : b.Settled) :
    (mainLoop env w).StepOrStay b.loop l.loop t.loop := by
  cases hst with
  | thread hallows hfw => exact MainStep.thread hallows.loop hfw
  | event evt hdel =>
    cases evt with
    | connack result =>
      by_cases hres : result = 0
      · subst hres
        exact MainStep.connack (MainPc.readsInput_loop hdel)
      · simp only [MainThreadLabel.loop, MqttEvt.connectedAfter, if_pos hres]
        rfl
    | disconnect result => exact MainStep.disconnected (MainPc.inLibrary_loop hdel)
    | _ => rfl
  | connected h hflag =>
    exact MainStep.connected (congrArg MainPc.phase h) (hb.rejection (by rw [h]; rfl)) hflag
  | subscribed rc h => exact MainStep.subscribed rc (congrArg MainPc.phase h)
  | enter h hflag => exact MainStep.enter (congrArg MainPc.phase h) hflag
  | take h hq => exact MainStep.take (congrArg MainPc.phase h) hq
  | publish rc h => exact MainStep.publish rc (congrArg MainPc.phase h)
  | process h hq => exact MainStep.empty (congrArg MainPc.phase h) hq
  | processed h =>
    rename_i rc
    have hnext : (if rc ≠ 0 then MainPc.disconnecting else .testing).phase =
        if rc ≠ 0 then .disconnecting else .testing := apply_ite ..
    have hprocess : MainStep env b.loop (.process rc)
        { b.loop with phase := if rc ≠ 0 then .disconnecting else .testing } :=
      .process rc (congrArg MainPc.phase h) (hb.rejection (by rw [h]; rfl))
    rw [← hnext] at hprocess
    exact hprocess
  | leave h hflag => exact MainStep.leave (congrArg MainPc.phase h) hflag
  | disconnect rc h => exact MainStep.disconnect rc (congrArg MainPc.phase h)
  | initialized h =>
    exact MainThread.loop_eq rfl (by rw [h]; rfl) (hb.fresh (by rw [h]; rfl)).symm rfl rfl
  | setup iface h | connect rc h | connackPoll d rc h _ =>
    refine MainThread.loop_eq rfl ?_ rfl rfl rfl
    rw [h]
    dsimp only
    split_ifs <;> rfl
  | poll d rc revents h _ _ =>
    exact MainThread.loop_eq rfl (by rw [h]; exact pollNext_phase rc revents) rfl rfl rfl
  | networkEvent online _ _ | networkSleep d _ _ _ => rfl
  | watchdogInit ok h | networkReady h _ | initFailed rc h _ | connackInput rc h _ | input rc h _
    | attempt h _ | retrySleep d h _ | keep h _ | abort h _ | aborted h | watchdog h
    | live rc h =>
    exact MainThread.loop_eq rfl (by rw [h]; rfl) rfl rfl rfl

/-- **The main loop inside the main thread.** -/
theorem mainThread_refines (env : Env) (w : World) :
    (mainThread env w).Refines (mainLoop env w) MainThread.loop fun _ l => l.loop := by
  refine ⟨?_, fun b l t hr hst => MainThreadStep.loop hst (mainThread_settled hr)⟩
  rintro b ⟨t, rfl⟩
  rfl

/-- What holds in every state of `mainLoop` holds here. -/
theorem mainLoop_reachable (h : (mainThread env w).Reachable b) :
    (mainLoop env w).Reachable b.loop :=
  (mainThread_refines env w).reachable h

end MainThread

end Tib
