import HispecTib.Proofs.Lasers
import HispecTib.Proofs.Routes

/-!
# What a success reply says about the hardware

The writes that a request needs are those that its handler makes when every call succeeds
(`requiredWrites`). A handler is honest in a run if it replies with the success text only when all of
these were issued and succeeded. `honest_iff` says for each of the six set handlers, in terms of
the outcomes of the calls, when that is so; the ignored return codes are what makes the difference.
-/

open CLib

namespace Tib

/-! ## Writes -/

/-- The calls that change something behind the driver. -/
def HwCall.isWrite : HwCall → Bool
  | .gpioPinConfigure _ | .gpioPinSet _ _ | .dacChannelSetup _ | .dacWriteValue _ _
  | .modbusWriteHoldingRegs _ _ _ => true
  | .deviceIsReady _ | .gpioPinGet _ | .modbusReadHoldingRegs _ _ => false

/-- The writes that returned 0, in order. -/
def succeededWrites (es : List Event) : List HwCall :=
  es.filterMap fun
    | .call c rc => if c.isWrite ∧ rc = 0 then some c else none
    | .sleep _ => none

/-- The same environment with hardware on which every call succeeds. -/
def Env.succeeding (env : Env) : Env := { env with answer := fun _ _ => 0 }

/-- The six set handlers. -/
inductive SetHandler where
  | memsroute
  | mems
  | laser
  | atten
  | power
  | sleep
deriving DecidableEq

def SetHandler.func : SetHandler → DispatchFunc
  | .memsroute => .memsrouteSet
  | .mems => .memsSet
  | .laser => .laserSettingSet
  | .atten => .attenSettingSet
  | .power => .powerSet
  | .sleep => .sleepSet

/-- What `x` does to the outside from `w`. -/
def eventsOf {α : Type} (x : Prog World α) (w : World) : List Event :=
  (x w).post.trace.drop w.trace.length

/-- The writes that the request needs: those of a run in which every call succeeds. -/
def requiredWrites (env : Env) (h : SetHandler) (cmd : Command) (w : World) : List HwCall :=
  succeededWrites (eventsOf (h.func.run env.succeeding cmd) w)

/-- The payload array of a success reply. -/
def okPayload : Buf maxPayloadLen := (Buf.zero _).strncpy okText (maxPayloadLen - 1)

/-- The success text is sent only if every write that the request needs was issued and succeeded,
in order. -/
def Honest (env : Env) (h : SetHandler) (cmd : Command) (w : World) : Prop :=
  (h.func.run env cmd w).val.payload = okPayload →
    (requiredWrites env h cmd w).Sublist (succeededWrites (eventsOf (h.func.run env cmd) w))

/-! ## Replies -/

section Payloads

variable {cmd : Command}

/-- A reply whose text starts as every error text does. -/
def ErrorReply (cmd : Command) (om : OutMsg) : Prop :=
  ∃ typ rest, om = msgBuilder cmd typ (str "\x7b\"error\":\"" ++ rest)

/-- `x` from `w` ends with an error reply, and does nothing. -/
structure Refuses (cmd : Command) (x : Prog World OutMsg) (w : World) : Prop where
  reply : ∃ s, (x w).val = errorReply cmd s
  post_eq : (x w).post = w

theorem errorReply_error (s : String) : ErrorReply cmd (errorReply cmd s) :=
  ⟨.respError, str s ++ str "\"\x7d", by rw [errorReply, errorText, List.append_assoc]⟩

theorem refuses_pure (s : String) (w : World) : Refuses cmd (pure (errorReply cmd s)) w :=
  ⟨⟨s, rfl⟩, rfl⟩

theorem Refuses.error {x : Prog World OutMsg} {w : World} (h : Refuses cmd x w) :
    ErrorReply cmd (x w).val := by
  obtain ⟨s, hs⟩ := h.reply
  rw [hs]
  exact errorReply_error s

/-- A print into the reply's buffer keeps a literal that it starts with. -/
theorem snprintf_append {a : List Byte} (hlen : a.length ≤ maxPayloadLen - 1) (text : List Byte) :
    snprintf maxPayloadLen (a ++ text) = a ++ text.take (maxPayloadLen - 1 - a.length) := by
  rw [snprintf, List.take_append, List.take_of_length_le hlen]

/-- The payload starts as the text does. -/
theorem msgBuilder_prefix {a : List Byte} (h0 : (0 : Byte) ∉ a)
    (hlen : a.length ≤ maxPayloadLen - 1) (typ : MsgType) (text : List Byte) :
    (msgBuilder cmd typ (a ++ text)).payload.data.take a.length = a := by
  have htake (b : List Byte) : (a ++ b).take (maxPayloadLen - 1) =
      a ++ b.take (maxPayloadLen - 1 - a.length) := by
    rw [List.take_append, List.take_of_length_le hlen]
  simp only [msgBuilder]
  rw [Buf.strncpy_data _ _ (Nat.sub_le _ _), cstr_append h0, htake, List.append_assoc,
    List.append_assoc, List.take_left]

/-- A bounded print keeps the start of an error text. -/
theorem snprintf_error (typ : MsgType) {text : List Byte}
    (h : str "\x7b\"error\":\"" <+: text) :
    ErrorReply cmd (msgBuilder cmd typ (snprintf maxPayloadLen text)) := by
  obtain ⟨rest, rfl⟩ := h
  have hle : (str "\x7b\"error\":\"").length ≤ maxPayloadLen - 1 := by decide
  exact ⟨typ, _, by rw [snprintf_append hle]⟩

theorem ErrorReply.payload_ne {om : OutMsg} (h : ErrorReply cmd om) : om.payload ≠ okPayload := by
  obtain ⟨typ, rest, rfl⟩ := h
  intro heq
  have hpre : (0 : Byte) ∉ str "\x7b\"error\":\"" ∧
      (str "\x7b\"error\":\"").length ≤ maxPayloadLen - 1 := by decide
  have hleft : (msgBuilder cmd typ _).payload.data.take _ = _ :=
    msgBuilder_prefix hpre.1 hpre.2 typ rest
  rw [heq] at hleft
  exact absurd hleft (by decide)

end Payloads

/-! ## Honesty from one run -/

section Honest

variable {env : Env} {h : SetHandler} {cmd : Command} {w : World}

/-- `x` from `w` emits `es`. -/
def Emits {α : Type} (x : Prog World α) (w : World) (es : List Event) : Prop :=
  (x w).post.trace = w.trace ++ es

theorem Emits.eventsOf_eq {α : Type} {x : Prog World α} {es : List Event} (hx : Emits x w es) :
    eventsOf x w = es := by
  rw [eventsOf, hx, List.drop_left]

theorem Emits.length {α : Type} {x : Prog World α} {es : List Event} (hx : Emits x w es) :
    (x w).post.trace.length = w.trace.length + es.length := by
  rw [hx, List.length_append]

theorem Emits.bind {α β : Type} {x : Prog World α} {f : α → Prog World β} {es es' : List Event}
    (hx : Emits x w es) (hf : Emits (f (x w).val) (x w).post es') :
    Emits (x >>= f) w (es ++ es') := by
  unfold Emits at *
  rw [Prog.bind_run, hf, hx, List.append_assoc]

/-- A refused request is answered honestly. -/
theorem honest_of_error (he : ErrorReply cmd (h.func.run env cmd w).val) : Honest env h cmd w :=
  fun hok => absurd hok he.payload_ne

/-- With the success text sent, honesty is a matter of the events of the run and of those of the
run in which every call succeeds. -/
theorem honest_iff_of_ok {es es' : List Event}
    (hok : (h.func.run env cmd w).val.payload = okPayload)
    (hes : Emits (h.func.run env cmd) w es) (hes' : Emits (h.func.run env.succeeding cmd) w es') :
    Honest env h cmd w ↔ (succeededWrites es').Sublist (succeededWrites es) := by
  rw [Honest, requiredWrites, hes.eventsOf_eq, hes'.eventsOf_eq]
  exact ⟨fun hh => hh hok, fun hh _ => hh⟩

/-- A handler with a target: it refuses a request without one, and reports success on any other.
Then it is honest when the writes for the target, if there is one, succeed. -/
theorem honest_iff_of_target {τ : Type} {target : Option τ} {es es' : τ → List Event}
    {P : τ → Prop} (hnone : target = none → ErrorReply cmd (h.func.run env cmd w).val)
    (hsome : ∀ x, target = some x → (h.func.run env cmd w).val.payload = okPayload ∧
      Emits (h.func.run env cmd) w (es x))
    (hsome' : ∀ x, target = some x → Emits (h.func.run env.succeeding cmd) w (es' x))
    (hwrites : ∀ x, (succeededWrites (es' x)).Sublist (succeededWrites (es x)) ↔ P x) :
    Honest env h cmd w ↔ ∀ x, target = some x → P x := by
  cases ht : target with
  | none => exact iff_of_true (honest_of_error (hnone ht)) nofun
  | some x =>
    obtain ⟨hok, hes⟩ := hsome x ht
    rw [honest_iff_of_ok hok hes (hsome' x ht), hwrites]
    simp

end Honest

/-! ## Pulses -/

section Pulses

variable (env : Env)

/-- The events of a pulse that starts after `t` events. -/
def pulseEvents (t : Nat) (pin : GpioPin) : List Event := [
  .call (.gpioPinSet pin false) (env.answer t (.gpioPinSet pin false)),
  .sleep memsSwitchPulseDelayMs,
  .call (.gpioPinSet pin true) (env.answer (t + 2) (.gpioPinSet pin true)),
  .sleep memsSwitchPulseDelayMs,
  .call (.gpioPinSet pin false) (env.answer (t + 4) (.gpioPinSet pin false)),
  .sleep memsSwitchPulseDelayMs]

/-- The events of pulses one after the other. -/
def pulsesEvents : Nat → List GpioPin → List Event
  | _, [] => []
  | t, pin :: pins => pulseEvents env t pin ++ pulsesEvents (t + 6) pins

/-- Every write of the pulses succeeds. -/
def PulsesSucceed : Nat → List GpioPin → Prop
  | _, [] => True
  | t, pin :: pins =>
    (env.answer t (.gpioPinSet pin false) = 0 ∧ env.answer (t + 2) (.gpioPinSet pin true) = 0 ∧
      env.answer (t + 4) (.gpioPinSet pin false) = 0) ∧ PulsesSucceed (t + 6) pins

theorem pulse_emits (pin : GpioPin) (w : World) :
    Emits (pulse env pin) w (pulseEvents env w.trace.length pin) := by
  simp [Emits, pulse, pulseEvents, gpioPinSet, hwCall, kSleep]

theorem setState_emits {w : World} {sw : SwitchPtr} {state : Byte} {pin : GpioPin}
    (h : (w.switches sw).pinFor state = some pin) :
    Emits (memsSwitchSetState env sw state) w (pulseEvents env w.trace.length pin) := by
  rw [Emits, memsSwitchSetState_run env h]
  exact pulse_emits env pin w

/-- The writes of one pulse. -/
def pulseWrites (pin : GpioPin) : List HwCall :=
  [.gpioPinSet pin false, .gpioPinSet pin true, .gpioPinSet pin false]

theorem succeededWrites_append (es es' : List Event) :
    succeededWrites (es ++ es') = succeededWrites es ++ succeededWrites es' :=
  List.filterMap_append

/-- A pulse makes three writes; as many succeed only if all three do. -/
theorem succeededWrites_pulse_length (t : Nat) (pin : GpioPin) :
    (succeededWrites (pulseEvents env t pin)).length ≤ 3 ∧
      (3 ≤ (succeededWrites (pulseEvents env t pin)).length →
        env.answer t (.gpioPinSet pin false) = 0 ∧ env.answer (t + 2) (.gpioPinSet pin true) = 0 ∧
          env.answer (t + 4) (.gpioPinSet pin false) = 0) := by
  by_cases h1 : env.answer t (.gpioPinSet pin false) = 0 <;>
    by_cases h2 : env.answer (t + 2) (.gpioPinSet pin true) = 0 <;>
    by_cases h3 : env.answer (t + 4) (.gpioPinSet pin false) = 0 <;>
    simp [succeededWrites, pulseEvents, HwCall.isWrite, h1, h2, h3]

theorem succeededWrites_pulses_length (t : Nat) (pins : List GpioPin) :
    (succeededWrites (pulsesEvents env t pins)).length ≤ 3 * pins.length ∧
      (3 * pins.length ≤ (succeededWrites (pulsesEvents env t pins)).length →
        PulsesSucceed env t pins) := by
  induction pins generalizing t with
  | nil => exact ⟨le_rfl, fun _ => trivial⟩
  | cons pin pins ih =>
    obtain ⟨hle, hall⟩ := succeededWrites_pulse_length env t pin
    obtain ⟨hle', hall'⟩ := ih (t + 6)
    rw [pulsesEvents, succeededWrites_append, List.length_append, List.length_cons]
    exact ⟨by omega, fun h => ⟨hall (by omega), hall' (by omega)⟩⟩

theorem succeededWrites_pulses {t : Nat} {pins : List GpioPin} (h : PulsesSucceed env t pins) :
    succeededWrites (pulsesEvents env t pins) = pins.flatMap pulseWrites := by
  induction pins generalizing t with
  | nil => rfl
  | cons pin pins ih =>
    obtain ⟨⟨h1, h2, h3⟩, hrest⟩ := h
    rw [pulsesEvents, succeededWrites_append, ih hrest, List.flatMap_cons]
    simp [succeededWrites, pulseEvents, pulseWrites, HwCall.isWrite, h1, h2, h3]

theorem pulsesSucceed_succeeding (t : Nat) (pins : List GpioPin) :
    PulsesSucceed env.succeeding t pins := by
  induction pins generalizing t with
  | nil => trivial
  | cons pin pins ih => exact ⟨⟨rfl, rfl, rfl⟩, ih _⟩

/-- The pulses of a request were all issued and succeeded exactly when each of their writes was
answered with 0. -/
theorem pulses_sublist_iff (t t' : Nat) (pins : List GpioPin) :
    (succeededWrites (pulsesEvents env.succeeding t' pins)).Sublist
        (succeededWrites (pulsesEvents env t pins)) ↔ PulsesSucceed env t pins := by
  have hideal := succeededWrites_pulses _ (pulsesSucceed_succeeding env t' pins)
  have hlen : (pins.flatMap pulseWrites).length = 3 * pins.length := by
    simp [pulseWrites, Nat.mul_comm]
  rw [hideal]
  constructor
  · intro h
    have hle := h.length_le
    rw [hlen] at hle
    exact (succeededWrites_pulses_length env t pins).2 hle
  · intro h
    rw [succeededWrites_pulses env h]

end Pulses

/-! ## Switches -/

section SwitchHandlers

variable (env : Env) (cmd : Command)

/-- The pin of a step that names a switch and demands a side. -/
def stepPin (w : World) (step : MemsRouteStep) : Option GpioPin :=
  (w.findSwitch step.switchName).bind fun p => (w.switches p).pinFor step.state

/-- The pins of all steps, if every step has one. -/
def routePins (w : World) : List MemsRouteStep → Option (List GpioPin)
  | [] => some []
  | step :: steps => (stepPin w step).bind fun pin => (routePins w steps).map (pin :: ·)

/-- The pins that a walk pulses: those of the steps before the first one without a pin. -/
def walkPins (w : World) : List MemsRouteStep → List GpioPin
  | [] => []
  | step :: steps =>
    match stepPin w step with
    | none => []
    | some pin => pin :: walkPins w steps

/-- The pins that a `memsroute_set` pulses, if the request is not refused. -/
def memsrouteTarget (w : World) : Option (List GpioPin) :=
  let r := parsePayload env cmd routeDescr
  if r.rc < 0 then none
  else (memsRouterGetRoute w.router r.routeId.input.data r.routeId.output.data).bind fun route =>
    routePins w route.steps

/-- The pin that a `mems_set` pulses, if the request is not refused. -/
def memsTarget (w : World) : Option GpioPin :=
  let kp := keyPair env cmd
  let r := parsePayload env cmd (valueDescr .string)
  if kp.rc ≠ 0 ∨ r.rc < 0 then none
  else (w.findSwitch kp.setting.data).bind fun sw =>
    (w.switches sw).pinFor ((r.charsField 0 memsSwitchNameLen).data.headD 0)

variable {w w' : World}

theorem stepPin_congr (h : w'.wiring = w.wiring) (step : MemsRouteStep) :
    stepPin w' step = stepPin w step := by
  simp only [stepPin, findSwitch_congr h, pinFor_congr h]

theorem walkPins_congr (h : w'.wiring = w.wiring) (steps : List MemsRouteStep) :
    walkPins w' steps = walkPins w steps := by
  induction steps with
  | nil => rfl
  | cons step steps ih => simp only [walkPins, stepPin_congr h, ih]

theorem walkPins_of_routePins {steps : List MemsRouteStep} {pins : List GpioPin}
    (h : routePins w steps = some pins) : walkPins w steps = pins := by
  induction steps generalizing pins with
  | nil => exact Option.some.inj h
  | cons step steps ih =>
    obtain ⟨pin, hpin, hmap⟩ := Option.bind_eq_some_iff.mp h
    obtain ⟨rest, hrest, rfl⟩ := Option.map_eq_some_iff.mp hmap
    simp only [walkPins, hpin, ih hrest]

theorem routePins_eq_none {steps : List MemsRouteStep} :
    routePins w steps = none ↔ ∃ step ∈ steps, stepPin w step = none := by
  induction steps with
  | nil => simp [routePins]
  | cons step steps ih => cases hpin : stepPin w step <;> simp [routePins, hpin, ih]

theorem stepPin_of_stepWrite {step : MemsRouteStep} {x : SwitchPtr × Byte}
    (h : stepWrite w step = some x) :
    ∃ pin, stepPin w step = some pin ∧ (w.switches x.1).pinFor x.2 = some pin := by
  obtain ⟨hf, hs, pin, hpin⟩ := stepWrite_eq_some h
  exact ⟨pin, by simp [stepPin, hf, hpin], hs ▸ hpin⟩

theorem stepPin_eq_none {step : MemsRouteStep} :
    stepPin w step = none ↔ stepWrite w step = none := by
  unfold stepPin stepWrite
  cases w.findSwitch step.switchName <;> simp

/-- A step that ends the walk replies with an error. -/
theorem memsrouteStep_errors (step : MemsRouteStep) :
    Yields (memsrouteStep env cmd step) fun r => ∀ om ∈ r, ErrorReply cmd om := by
  unfold memsrouteStep
  refine Yields.bind fun w => ?_
  split
  · refine Yields.pure fun om hom => ?_
    rw [← Option.mem_some_iff.mp hom]
    exact errorReply_error _
  · refine Yields.bind fun rc => Yields.ite (fun _ => ?_) fun _ => Yields.pure fun om hom => by
      cases hom
    refine Yields.pure fun om hom => ?_
    rw [← Option.mem_some_iff.mp hom]
    refine snprintf_error .respError ?_
    have hlit : str "\x7b\"error\":\"" <+: str "\x7b\"error\":\"Setting switch " := by
      decide
    simp only [List.append_assoc]
    exact hlit.trans (List.prefix_append _ _)

theorem routeLoop_refused (steps : List MemsRouteStep) (h : routePins w steps = none) :
    ∃ om, (Prog.firstSome (memsrouteStep env cmd) steps w).val = some om ∧ ErrorReply cmd om := by
  obtain ⟨step, hstep, hpin⟩ := routePins_eq_none.mp h
  have hstop : (Prog.firstSome (memsrouteStep env cmd) steps w).val ≠ none := fun hnone =>
    (routeLoop_walk env cmd steps w).2.2.mp hnone step hstep (stepPin_eq_none.mp hpin)
  obtain ⟨om, hom⟩ := Option.ne_none_iff_exists'.mp hstop
  exact ⟨om, hom, Yields.firstSome (fun step _ => memsrouteStep_errors env cmd step) w om hom⟩

/-- Any walk pulses the pins of the steps before the first one without a pin. -/
theorem routeLoop_pulses (steps : List MemsRouteStep) (w : World) :
    Emits (Prog.firstSome (memsrouteStep env cmd) steps) w
      (pulsesEvents env w.trace.length (walkPins w steps)) := by
  induction steps generalizing w with
  | nil => exact (List.append_nil _).symm
  | cons step steps ih =>
    cases hx : stepWrite w step with
    | none =>
      obtain ⟨⟨om, hval⟩, hpost⟩ := memsrouteStep_none env cmd hx
      simp only [Emits, Prog.firstSome, Prog.bind_run, hval, Prog.pure_run, hpost, walkPins,
        stepPin_eq_none.mpr hx, pulsesEvents, List.append_nil]
    | some x =>
      obtain ⟨pin, hpin, hp⟩ := stepPin_of_stepWrite hx
      obtain ⟨hval, hpost⟩ := memsrouteStep_some env cmd hx
      have hwire := memsSwitchSetState_wiring env x.1 x.2 w
      have hemit := setState_emits env hp
      have hloop := ih (memsSwitchSetState env x.1 x.2 w).post
      rw [Emits, walkPins_congr hwire, hemit.length, hemit, List.append_assoc] at hloop
      rw [Emits, (Prog.firstSome_cons_none w hval steps).2, hpost, hloop]
      simp only [walkPins, hpin]
      rfl

theorem routeLoop_emits (steps : List MemsRouteStep) {pins : List GpioPin}
    (h : routePins w steps = some pins) :
    (Prog.firstSome (memsrouteStep env cmd) steps w).val = none ∧
      Emits (Prog.firstSome (memsrouteStep env cmd) steps) w
        (pulsesEvents env w.trace.length pins) := by
  refine ⟨(routeLoop_walk env cmd steps w).2.2.mpr fun step hstep hx => ?_, ?_⟩
  · rw [routePins_eq_none.mpr ⟨step, hstep, stepPin_eq_none.mpr hx⟩] at h
    cases h
  · rw [← walkPins_of_routePins h]
    exact routeLoop_pulses env cmd steps w

theorem memsrouteSet_refused (h : memsrouteTarget env cmd w = none) :
    ErrorReply cmd (memsrouteSet env cmd w).val := by
  unfold memsrouteTarget at h
  unfold memsrouteSet
  dsimp only at h ⊢
  split at h
  · rename_i hrc
    rw [if_pos hrc]
    exact errorReply_error _
  · rename_i hrc
    rw [if_neg hrc, Prog.bind_run, Prog.get_run]
    cases hroute : memsRouterGetRoute w.router
        (parsePayload env cmd routeDescr).routeId.input.data
        (parsePayload env cmd routeDescr).routeId.output.data with
    | none => exact errorReply_error _
    | some route =>
      rw [hroute, Option.bind_some] at h
      obtain ⟨om, hom, herr⟩ := routeLoop_refused env cmd route.steps h
      simp only [Prog.bind_run, hom]
      exact herr

theorem memsrouteSet_emits {pins : List GpioPin} (h : memsrouteTarget env cmd w = some pins) :
    (memsrouteSet env cmd w).val.payload = okPayload ∧
      Emits (memsrouteSet env cmd) w (pulsesEvents env w.trace.length pins) := by
  unfold memsrouteTarget at h
  unfold memsrouteSet
  dsimp only at h ⊢
  split at h
  · cases h
  · rename_i hrc
    obtain ⟨route, hroute, hpins⟩ := Option.bind_eq_some_iff.mp h
    obtain ⟨hval, hemit⟩ := routeLoop_emits env cmd route.steps hpins
    rw [Emits, if_neg hrc, Prog.bind_run, Prog.get_run]
    simp only [hroute, Prog.bind_run, hval]
    exact ⟨rfl, hemit⟩

theorem memsSet_refused (h : memsTarget env cmd w = none) :
    Refuses cmd (memsSet env cmd) w := by
  unfold memsTarget at h
  unfold memsSet
  dsimp only at h ⊢
  by_cases hkp : (keyPair env cmd).rc ≠ 0
  · rw [if_pos hkp]
    exact refuses_pure _ w
  by_cases hrc : (parsePayload env cmd (valueDescr .string)).rc < 0
  · rw [if_neg hkp, if_pos hrc]
    exact refuses_pure _ w
  rw [if_neg (not_or.mpr ⟨hkp, hrc⟩)] at h
  rw [if_neg hkp, if_neg hrc]
  cases hf : w.findSwitch (keyPair env cmd).setting.data with
  | none =>
    constructor <;> simp only [Prog.bind_run, Prog.get_run, memsRouterFindSwitch_eq, hf,
      Prog.pure_run]
    exact ⟨_, rfl⟩
  | some sw =>
    rw [hf, Option.bind_some] at h
    have hne : ((-1 : Int) ≠ 0) := by decide
    constructor <;> simp only [Prog.bind_run, Prog.get_run, memsRouterFindSwitch_eq, hf,
      memsSwitchSetState_none env h, if_pos hne, Prog.pure_run]
    exact ⟨_, rfl⟩

/-- The character that a `mems_set` takes as the demanded state. -/
def demandedState : Byte :=
  ((parsePayload env cmd (valueDescr .string)).charsField 0 memsSwitchNameLen).data.headD 0

/-- A request that is not refused sets the state of the switch that its key names. -/
theorem memsSet_run {pin : GpioPin} (h : memsTarget env cmd w = some pin) :
    ∃ sw, w.findSwitch (keyPair env cmd).setting.data = some sw ∧
      (w.switches sw).pinFor (demandedState env cmd) = some pin ∧
      (memsSet env cmd w).val = msgBuilder cmd .respOk okText ∧
      (memsSet env cmd w).post = (memsSwitchSetState env sw (demandedState env cmd) w).post := by
  unfold memsTarget at h
  unfold memsSet
  dsimp only at h ⊢
  split_ifs at h with hno
  rw [not_or] at hno
  obtain ⟨sw, hf, hpin⟩ := Option.bind_eq_some_iff.mp h
  have hval := congrArg Run.val (memsSwitchSetState_run env hpin)
  have hzero : ¬ ((0 : Int) ≠ 0) := by decide
  refine ⟨sw, hf, hpin, ?_⟩
  rw [if_neg hno.1, if_neg hno.2, Prog.bind_run, Prog.get_run]
  simp only [memsRouterFindSwitch_eq, hf, Prog.bind_run, hval, if_neg hzero, Prog.pure_run,
    demandedState, and_self]

theorem memsSet_emits {pin : GpioPin} (h : memsTarget env cmd w = some pin) :
    (memsSet env cmd w).val.payload = okPayload ∧
      Emits (memsSet env cmd) w (pulsesEvents env w.trace.length [pin]) := by
  obtain ⟨sw, -, hpin, hval, hpost⟩ := memsSet_run env cmd h
  rw [hval, Emits, hpost, pulsesEvents, pulsesEvents, List.append_nil]
  exact ⟨rfl, setState_emits env hpin⟩

/-- **Routes.** -/
theorem memsroute_honest_iff : Honest env .memsroute cmd w ↔
    ∀ pins, memsrouteTarget env cmd w = some pins → PulsesSucceed env w.trace.length pins := by
  refine honest_iff_of_target (h := .memsroute) (memsrouteSet_refused env cmd)
    (fun pins ht => memsrouteSet_emits env cmd ht)
    (fun pins ht => (memsrouteSet_emits env.succeeding cmd ht).2) fun pins => ?_
  exact pulses_sublist_iff env w.trace.length w.trace.length pins

/-- **Switches.** -/
theorem mems_honest_iff : Honest env .mems cmd w ↔
    ∀ pin, memsTarget env cmd w = some pin → PulsesSucceed env w.trace.length [pin] := by
  refine honest_iff_of_target (h := .mems) (fun ht => (memsSet_refused env cmd ht).error)
    (fun pin ht => memsSet_emits env cmd ht)
    (fun pin ht => (memsSet_emits env.succeeding cmd ht).2) fun pin => ?_
  exact pulses_sublist_iff env w.trace.length w.trace.length [pin]

end SwitchHandlers

/-! ## Power -/

section PowerHandlers

variable (env : Env) (cmd : Command) (w : World)

/-- The read of the power pin succeeds and finds it high. -/
def ReadsOn : Prop :=
  0 ≤ env.answer w.trace.length (.gpioPinGet powerGpio) ∧ w.level powerGpio = true

instance : Decidable (ReadsOn env w) := inferInstanceAs (Decidable (_ ∧ _))

/-- The event of a call after `t` events. -/
def callAt (t : Nat) (c : HwCall) : Event := .call c (env.answer t c)

theorem readsOn_succeeding : ReadsOn env.succeeding w ↔ w.level powerGpio = true :=
  and_iff_right le_rfl

theorem powerEnabled_run : (powerEnabled env w).val = decide (ReadsOn env w) ∧
    Emits (powerEnabled env) w [callAt env w.trace.length (.gpioPinGet powerGpio)] := by
  refine ⟨?_, by simp [Emits, powerEnabled, gpioPinGet, hwCall, callAt]⟩
  have hval (rc : Int) (l : Bool) :
      decide ((if rc < 0 then rc else if l then 1 else 0) = 1) = decide (0 ≤ rc ∧ l = true) := by
    rw [decide_eq_decide]
    cases l <;> split <;> simp <;> omega
  exact hval (env.answer w.trace.length (.gpioPinGet powerGpio)) (w.level powerGpio)

/-- The events of a power change: the read, and the write unless the pin reads as wanted. -/
def powerEvents (on : Bool) : List Event :=
  callAt env w.trace.length (.gpioPinGet powerGpio) ::
    if decide (ReadsOn env w) = on then []
    else [callAt env (w.trace.length + 1) (.gpioPinSet powerGpio on)]

theorem gpioPinSet_emits (p : GpioPin) (v : Bool) :
    Emits (gpioPinSet env p v) w [callAt env w.trace.length (.gpioPinSet p v)] := by
  simp [Emits, gpioPinSet, hwCall, callAt]

/-- The trace after the read of the power pin and a write to it. -/
theorem powerWrite_post (on : Bool) :
    (gpioPinSet env powerGpio on (powerEnabled env w).post).post.trace = w.trace ++
      [callAt env w.trace.length (.gpioPinGet powerGpio),
        callAt env (w.trace.length + 1) (.gpioPinSet powerGpio on)] := by
  have hemit := (powerEnabled_run env w).2
  have hset := gpioPinSet_emits env (powerEnabled env w).post powerGpio on
  rw [Emits, hemit.length, hemit, List.append_assoc] at hset
  exact hset

theorem enablePower_run : (enablePower env w).val = !decide (ReadsOn env w) ∧
    Emits (enablePower env) w (powerEvents env w true) := by
  obtain ⟨hval, hemit⟩ := powerEnabled_run env w
  simp only [enablePower, Emits, powerEvents, Prog.bind_run, hval, Prog.ite_run, Prog.pure_run]
  by_cases hon : ReadsOn env w
  · simp only [hon, decide_true, if_true, Bool.not_true, true_and]
    exact hemit
  · simp [hon, powerWrite_post env w true]

theorem disablePower_run : Emits (disablePower env) w (powerEvents env w false) := by
  obtain ⟨hval, hemit⟩ := powerEnabled_run env w
  simp only [disablePower, Emits, powerEvents, Prog.bind_run, hval, Prog.ite_run, Prog.pure_run]
  by_cases hon : ReadsOn env w
  · simp [hon, powerWrite_post env w false]
  · simp [hon]
    exact hemit

/-- A power change does what it has to: the pin is as wanted, or it is read as it is and the write
succeeds. A pin that is low is never read as high. -/
def PowerSucceeds (on : Bool) : Prop :=
  w.level powerGpio = on ∨ decide (ReadsOn env w) ≠ on ∧
    env.answer (w.trace.length + 1) (.gpioPinSet powerGpio on) = 0

theorem power_sublist_iff (on : Bool) :
    (succeededWrites (powerEvents env.succeeding w on)).Sublist
      (succeededWrites (powerEvents env w on)) ↔ PowerSucceeds env w on := by
  have hideal : decide (ReadsOn env.succeeding w) = w.level powerGpio := by
    rw [Bool.eq_iff_iff, decide_eq_true_iff, readsOn_succeeding]
  simp only [powerEvents, hideal, PowerSucceeds]
  by_cases hl : w.level powerGpio = on
  · simp [hl, callAt, succeededWrites, HwCall.isWrite]
  · by_cases hon : decide (ReadsOn env w) = on
    · simp [hl, hon, callAt, succeededWrites, HwCall.isWrite, Env.succeeding]
    · by_cases hrc : env.answer (w.trace.length + 1) (.gpioPinSet powerGpio on) = 0 <;>
        simp [hl, hon, hrc, callAt, succeededWrites, HwCall.isWrite, Env.succeeding]

/-- The power state that a request asks for, if it is not refused. -/
def powerTarget : Option Bool :=
  let r := parsePayload env cmd (valueDescr .true_)
  if r.rc < 0 then none else some (r.boolField 0)

variable {env cmd w}

theorem power_refused (h : powerTarget env cmd = none) :
    Refuses cmd (powerSet env cmd) w ∧ Refuses cmd (sleepSet env cmd) w := by
  unfold powerTarget at h
  dsimp only at h
  split_ifs at h with hrc
  simp only [powerSet, sleepSet, if_pos hrc]
  exact ⟨refuses_pure _ w, refuses_pure _ w⟩

theorem powerSet_emits (env : Env) (w : World) {on : Bool} (h : powerTarget env cmd = some on) :
    (powerSet env cmd w).val.payload = okPayload ∧
      Emits (powerSet env cmd) w (powerEvents env w on) := by
  unfold powerTarget at h
  dsimp only at h
  split_ifs at h with hrc
  have hon := Option.some.inj h
  simp only [powerSet, Emits, if_neg hrc]
  cases on with
  | true =>
    rw [hon, if_pos rfl]
    exact ⟨rfl, (enablePower_run env w).2⟩
  | false =>
    rw [hon, if_neg (by decide)]
    exact ⟨rfl, disablePower_run env w⟩

theorem sleepSet_emits (env : Env) (w : World) {on : Bool} (h : powerTarget env cmd = some on) :
    (sleepSet env cmd w).val.payload = okPayload ∧
      Emits (sleepSet env cmd) w (if on then powerEvents env w false else []) := by
  unfold powerTarget at h
  dsimp only at h
  split_ifs at h with hrc
  have hon := Option.some.inj h
  simp only [sleepSet, Emits, if_neg hrc]
  cases on with
  | true =>
    rw [hon, if_pos rfl]
    exact ⟨rfl, disablePower_run env w⟩
  | false =>
    rw [hon, if_neg (by decide)]
    exact ⟨rfl, (List.append_nil _).symm⟩

/-- **Power.** -/
theorem power_honest_iff : Honest env .power cmd w ↔
    ∀ on, powerTarget env cmd = some on → PowerSucceeds env w on := by
  refine honest_iff_of_target (h := .power) (fun ht => (power_refused ht).1.error)
    (fun on ht => powerSet_emits env w ht)
    (fun on ht => (powerSet_emits env.succeeding w ht).2) fun on => ?_
  exact power_sublist_iff env w on

/-- **Sleep.** -/
theorem sleep_honest_iff : Honest env .sleep cmd w ↔
    (powerTarget env cmd = some true → PowerSucceeds env w false) := by
  have hiff : Honest env .sleep cmd w ↔
      ∀ on, powerTarget env cmd = some on → on = true → PowerSucceeds env w false := by
    refine honest_iff_of_target (h := .sleep) (fun ht => (power_refused ht).2.error)
      (fun on ht => sleepSet_emits env w ht)
      (fun on ht => (sleepSet_emits env.succeeding w ht).2) fun on => ?_
    cases on with
    | true => simpa using power_sublist_iff env w false
    | false => simp [succeededWrites]
  rw [hiff]
  exact ⟨fun h ht => h true ht rfl, fun h on ht hon => h (hon ▸ ht)⟩

end PowerHandlers

/-! ## Lasers -/

section LaserHandler

variable (env : Env) (cmd : Command) (w : World)

/-- The register write that a `laser_setting_set` makes, if the request is not refused. -/
def laserTarget : Option HwCall :=
  let kp := keyPair env cmd
  let r := parsePayload env cmd (valueDescr .number)
  let node := getLaserChannel (kp.name.data.drop 5)
  if kp.rc ≠ 0 ∨ r.rc < 0 ∨ node = laserUnknown then none
  else (maimanGetRegisterAddress kp.setting.data).map fun addr =>
    .modbusWriteHoldingRegs node addr (r.uint16Field 0)

/-- The events of switching the power on, with the wait for the laser after a change. -/
def wakeEvents : List Event :=
  powerEvents env w true ++ if ReadsOn env w then [] else [.sleep 1000]

theorem enablePowerAndWait_emits : Emits (enablePowerAndWait env) w (wakeEvents env w) := by
  obtain ⟨hval, hemit⟩ := enablePower_run env w
  unfold enablePowerAndWait
  refine hemit.bind ?_
  rw [hval]
  by_cases hon : ReadsOn env w <;> simp [Emits, hon, waitLaserBoot, kSleep]

/-- What the reply of `laser_setting_set` tells about the register write `c`: it failed and the
reply is an error, or it succeeded and the power is on. -/
def LaserSucceeds (c : HwCall) : Prop :=
  env.answer (w.trace.length + if ReadsOn env w then 1 else 3) c < 0 ∨
    env.answer (w.trace.length + if ReadsOn env w then 1 else 3) c = 0 ∧ PowerSucceeds env w true

theorem maimanWriteU16_run (drv : MaimanDriver) (addr value : UInt16) :
    let c := HwCall.modbusWriteHoldingRegs drv.nodeId addr value
    let rc := env.answer w.trace.length c
    maimanWriteU16 env drv addr value w = ⟨!decide (rc < 0), w.afterCall c rc, [w]⟩ := by
  by_cases hneg : env.answer w.trace.length
      (.modbusWriteHoldingRegs drv.nodeId addr value) < 0 <;>
    simp [maimanWriteU16, modbusWriteHoldingRegs, hwCall, hneg]

/-- A laser request that is not refused: the power is switched on, then comes the Modbus
transaction `c`, and its answer decides about the reply. -/
def accessRun (c : HwCall) (reply : Int → OutMsg) : Run World OutMsg :=
  let on := enablePowerAndWait env w
  let rc := env.answer on.post.trace.length c
  ⟨reply rc, on.post.afterCall c rc, on.points ++ [on.post]⟩

/-- The reply of `laser_setting_set` to the answer of its write. -/
def laserSetReply (rc : Int) : OutMsg :=
  if rc < 0 then errorReply cmd "set_driver_setting failed" else msgBuilder cmd .respOk okText

theorem wakeEvents_length : (wakeEvents env w).length = if ReadsOn env w then 1 else 3 := by
  by_cases hon : ReadsOn env w <;> simp [wakeEvents, powerEvents, hon]

theorem enablePowerAndWait_length : (enablePowerAndWait env w).post.trace.length =
    w.trace.length + if ReadsOn env w then 1 else 3 := by
  rw [(enablePowerAndWait_emits env w).length, wakeEvents_length]

variable {env cmd w}

/-- A request without a target is only answered. -/
theorem laserSettingSet_eq_pure (h : laserTarget env cmd = none) :
    ∃ s, laserSettingSet env cmd = pure (errorReply cmd s) := by
  unfold laserTarget at h
  unfold laserSettingSet
  dsimp only at h ⊢
  by_cases hkp : (keyPair env cmd).rc ≠ 0
  · exact ⟨_, if_pos hkp⟩
  by_cases hrc : (parsePayload env cmd (valueDescr .number)).rc < 0
  · exact ⟨_, by rw [if_neg hkp, if_pos hrc]⟩
  by_cases hnode : getLaserChannel ((keyPair env cmd).name.data.drop 5) = laserUnknown
  · exact ⟨_, by rw [if_neg hkp, if_neg hrc, if_pos hnode]⟩
  have hno : ¬ ((keyPair env cmd).rc ≠ 0 ∨ (parsePayload env cmd (valueDescr .number)).rc < 0 ∨
      getLaserChannel ((keyPair env cmd).name.data.drop 5) = laserUnknown) :=
    not_or.mpr ⟨hkp, not_or.mpr ⟨hrc, hnode⟩⟩
  rw [if_neg hno] at h
  have haddr := Option.map_eq_none_iff.mp h
  exact ⟨_, by rw [if_neg hkp, if_neg hrc, if_neg hnode, haddr]⟩

theorem laserSettingSet_refused (h : laserTarget env cmd = none) :
    Refuses cmd (laserSettingSet env cmd) w := by
  obtain ⟨s, hs⟩ := laserSettingSet_eq_pure h
  rw [hs]
  exact refuses_pure s w

theorem laserSettingSet_run (env : Env) (w : World) {c : HwCall}
    (h : laserTarget env cmd = some c) :
    laserSettingSet env cmd w = accessRun env w c (laserSetReply cmd) := by
  unfold laserTarget at h
  dsimp only at h
  split_ifs at h with hno
  obtain ⟨addr, haddr, rfl⟩ := Option.map_eq_some_iff.mp h
  simp only [not_or] at hno
  obtain ⟨hkp, hrc, hnode⟩ := hno
  unfold laserSettingSet accessRun laserSetReply
  simp only [if_neg hkp, if_neg hrc, if_neg hnode, haddr, Prog.bind_run, Prog.ite_run,
    maimanWriteU16_run, Bool.not_not, decide_eq_true_eq]
  split_ifs <;> simp

/-- The answer of the transaction comes after the events of switching the power on. -/
theorem accessRun_emits (env : Env) (w : World) (c : HwCall) (reply : Int → OutMsg) :
    let rc := env.answer (w.trace.length + if ReadsOn env w then 1 else 3) c
    (accessRun env w c reply).val = reply rc ∧
      (accessRun env w c reply).post.trace = w.trace ++ (wakeEvents env w ++ [.call c rc]) := by
  have hwake := enablePowerAndWait_emits env w
  simp only [accessRun, enablePowerAndWait_length, World.afterCall_trace, true_and]
  rw [hwake, List.append_assoc]

theorem laserSettingSet_emits (env : Env) (w : World) {c : HwCall}
    (h : laserTarget env cmd = some c) :
    let rc := env.answer (w.trace.length + if ReadsOn env w then 1 else 3) c
    (laserSettingSet env cmd w).val = laserSetReply cmd rc ∧
      Emits (laserSettingSet env cmd) w (wakeEvents env w ++ [.call c rc]) := by
  intro rc
  rw [Emits, laserSettingSet_run env w h]
  exact accessRun_emits env w c (laserSetReply cmd)

theorem laserTarget_isWrite {c : HwCall} (h : laserTarget env cmd = some c) :
    ∃ node addr value, c = .modbusWriteHoldingRegs node addr value := by
  unfold laserTarget at h
  dsimp only at h
  split_ifs at h
  obtain ⟨addr, -, rfl⟩ := Option.map_eq_some_iff.mp h
  exact ⟨_, addr, _, rfl⟩

theorem wake_sublist_iff (node : Nat) (addr value : UInt16) (rc : Int) :
    let c := HwCall.modbusWriteHoldingRegs node addr value
    (succeededWrites (wakeEvents env.succeeding w ++ [.call c 0])).Sublist
        (succeededWrites (wakeEvents env w ++ [.call c rc])) ↔
      rc = 0 ∧ PowerSucceeds env w true := by
  have hideal := readsOn_succeeding env w
  simp only [wakeEvents, powerEvents, hideal, PowerSucceeds]
  by_cases hl : w.level powerGpio = true <;> by_cases hon : ReadsOn env w <;>
    by_cases hp : env.answer (w.trace.length + 1) (.gpioPinSet powerGpio true) = 0 <;>
    by_cases hz : rc = 0 <;>
    simp [hl, hon, hp, hz, callAt, succeededWrites, HwCall.isWrite, Env.succeeding]

/-- **Lasers.** -/
theorem laser_honest_iff : Honest env .laser cmd w ↔
    ∀ c, laserTarget env cmd = some c → LaserSucceeds env w c := by
  cases ht : laserTarget env cmd with
  | none => exact iff_of_true (honest_of_error (laserSettingSet_refused ht).error) nofun
  | some c =>
    obtain ⟨hval, hes⟩ := laserSettingSet_emits env w ht
    obtain ⟨-, hes'⟩ := laserSettingSet_emits env.succeeding w ht
    obtain ⟨node, addr, value, rfl⟩ := laserTarget_isWrite ht
    simp only [Option.some.injEq, forall_eq', LaserSucceeds]
    by_cases hneg : env.answer (w.trace.length + if ReadsOn env w then 1 else 3)
        (.modbusWriteHoldingRegs node addr value) < 0
    · rw [laserSetReply, if_pos hneg] at hval
      have herr : ErrorReply cmd (laserSettingSet env cmd w).val := hval ▸ errorReply_error _
      exact iff_of_true (honest_of_error herr) (Or.inl hneg)
    · rw [laserSetReply, if_neg hneg] at hval
      have hok : (laserSettingSet env cmd w).val.payload = okPayload := congrArg OutMsg.payload hval
      rw [honest_iff_of_ok (h := .laser) hok hes hes']
      exact (wake_sublist_iff node addr value _).trans (or_iff_right hneg).symm

end LaserHandler

/-! ## Attenuators -/

section AttenHandler

variable (env : Env) (cmd : Command) (w : World)

/-- The attenuator as an `atten_setting_set` leaves it in memory, if the request is not refused. A
setting other than `coeff` is handled as coefficients, and `coeff` as a voltage. -/
def attenTarget : Option Attenuator :=
  let kp := keyPair env cmd
  let old := w.attenuators (getLaserChannel (kp.name.data.drop 5))
  let r := parsePayload env cmd coeffDescr
  let r' := parsePayload env cmd (valueDescr .number)
  if kp.rc ≠ 0 ∨ getLaserChannel (kp.name.data.drop 5) = laserUnknown then none
  else if strcasecmp kp.setting.data (str "coeff") ≠ 0 then
    if r.rc < 0 ∨ (r.floatsField 0).length ≠ 3 ∨ (r.floatsField 1).length ≠ 3 then none
    else
      let new := { old with
        coeffDbToVolt := coeffs (r.floatsField 0)
        coeffVoltToDb := coeffs (r.floatsField 1) }
      some { new with voltage := clampVoltage (new.requested (attenuatorGet old false) false) }
  else if r'.rc < 0 then none
  else some { old with voltage := clampVoltage (old.requested (r'.floatField 0) true) }

/-- The events of setting the DAC to the voltage of `drv`: each call only after a success. -/
def dacEvents (t : Nat) (drv : Attenuator) : List Event :=
  let setup := HwCall.dacChannelSetup drv.cfg.channelId
  let write := HwCall.dacWriteValue drv.cfg.channelId (dacCode drv.voltage)
  callAt env t (.deviceIsReady .dac7578) ::
    if env.answer t (.deviceIsReady .dac7578) ≠ 0 then []
    else callAt env (t + 1) setup ::
      if env.answer (t + 1) setup ≠ 0 then [] else [callAt env (t + 2) write]

/-- The DAC is ready and takes `code` for `channel`. -/
def DacTakes (t channel code : Nat) : Prop :=
  env.answer t (.deviceIsReady .dac7578) = 0 ∧
    env.answer (t + 1) (.dacChannelSetup channel) = 0 ∧
    env.answer (t + 2) (.dacWriteValue channel code) = 0

/-- The DAC is ready and both writes succeed. -/
def DacSucceeds (t : Nat) (drv : Attenuator) : Prop :=
  DacTakes env t drv.cfg.channelId (dacCode drv.voltage)

theorem dacPut_emits (drv : Attenuator) (w : World) :
    Emits (dacPut env drv.cfg (dacCode drv.voltage)) w (dacEvents env w.trace.length drv) := by
  unfold Emits dacPut
  by_cases hready : env.answer w.trace.length (.deviceIsReady .dac7578) = 0
  · by_cases hsetup : env.answer (w.trace.length + 1) (.dacChannelSetup drv.cfg.channelId) = 0
    · by_cases hwrite : env.answer (w.trace.length + 2)
          (.dacWriteValue drv.cfg.channelId (dacCode drv.voltage)) = 0 <;>
        simp [deviceIsReady, dacChannelSetup, dacWriteValue, hwCall, dacEvents, callAt, hready,
          hsetup, hwrite]
    · simp [deviceIsReady, dacChannelSetup, hwCall, dacEvents, callAt, hready, hsetup]
  · simp [deviceIsReady, hwCall, dacEvents, callAt, hready]

theorem attenuatorSet_emits (i : Nat) (value : Rat) (raw : Bool) :
    Emits (attenuatorSet env i value raw) w (dacEvents env w.trace.length { w.attenuators i with
      voltage := clampVoltage ((w.attenuators i).requested value raw) }) := by
  unfold Emits
  rw [attenuatorSet_eq]
  exact dacPut_emits env ((w.attenuators i).set value raw) (w.setAttenuator i _)

theorem dac_sublist_iff (t : Nat) (drv : Attenuator) :
    (succeededWrites (dacEvents env.succeeding t drv)).Sublist
      (succeededWrites (dacEvents env t drv)) ↔ DacSucceeds env t drv := by
  unfold dacEvents DacSucceeds DacTakes
  by_cases hready : env.answer t (.deviceIsReady .dac7578) = 0 <;>
    by_cases hsetup : env.answer (t + 1) (.dacChannelSetup drv.cfg.channelId) = 0 <;>
    by_cases hwrite : env.answer (t + 2)
      (.dacWriteValue drv.cfg.channelId (dacCode drv.voltage)) = 0 <;>
    simp [hready, hsetup, hwrite, callAt, succeededWrites, HwCall.isWrite, Env.succeeding]

/-- The test for `value` is passed by every setting that reaches it. -/
theorem value_ne_of_coeff {setting : List Byte} (h : ¬ strcasecmp setting (str "coeff") ≠ 0) :
    strcasecmp setting (str "value") ≠ 0 := by
  rw [not_not, strcasecmp_eq_zero] at h
  rw [ne_eq, strcasecmp_eq_zero]
  intro h'
  exact absurd (h.symm.trans h') (by decide)

variable {env cmd w}

theorem attenSettingSet_refused (h : attenTarget env cmd w = none) :
    Refuses cmd (attenSettingSet env cmd) w := by
  unfold attenTarget at h
  unfold attenSettingSet
  dsimp only at h ⊢
  by_cases hkp : (keyPair env cmd).rc ≠ 0
  · rw [if_pos hkp]
    exact refuses_pure _ w
  by_cases hch : getLaserChannel ((keyPair env cmd).name.data.drop 5) = laserUnknown
  · rw [if_neg hkp, if_pos hch]
    exact refuses_pure _ w
  rw [if_neg (not_or.mpr ⟨hkp, hch⟩)] at h
  rw [if_neg hkp, if_neg hch]
  split_ifs at h with hcoeff hbad hrc
  · rw [if_pos hcoeff, if_pos hbad]
    exact refuses_pure _ w
  · rw [if_neg hcoeff, if_pos (value_ne_of_coeff hcoeff), if_pos hrc]
    exact refuses_pure _ w

theorem attenSettingSet_emits (env : Env) {drv : Attenuator} (h : attenTarget env cmd w = some drv) :
    (attenSettingSet env cmd w).val.payload = okPayload ∧
      Emits (attenSettingSet env cmd) w (dacEvents env w.trace.length drv) := by
  unfold attenTarget at h
  unfold attenSettingSet
  dsimp only at h ⊢
  split_ifs at h with hno hcoeff hbad hrc <;> rw [not_or] at hno
  · obtain rfl := Option.some.inj h
    rw [Emits, if_neg hno.1, if_neg hno.2, if_pos hcoeff, if_neg hbad]
    refine ⟨rfl, ?_⟩
    simp only [Prog.bind_run, Prog.get_run, Prog.modify_run, Prog.pure_run]
    rw [attenuatorSet_emits]
    simp
  · obtain rfl := Option.some.inj h
    rw [Emits, if_neg hno.1, if_neg hno.2, if_neg hcoeff, if_pos (value_ne_of_coeff hcoeff),
      if_neg hrc]
    exact ⟨rfl, attenuatorSet_emits env w _ _ _⟩

/-- **Attenuators.** -/
theorem atten_honest_iff : Honest env .atten cmd w ↔
    ∀ drv, attenTarget env cmd w = some drv → DacSucceeds env w.trace.length drv := by
  refine honest_iff_of_target (h := .atten) (fun ht => (attenSettingSet_refused ht).error)
    (fun drv ht => attenSettingSet_emits env ht)
    (fun drv ht => (attenSettingSet_emits env.succeeding ht).2) fun drv => ?_
  exact dac_sublist_iff env w.trace.length drv

end AttenHandler

/-! ## The six handlers -/

/-- The outcomes of the calls under which each handler is honest. Only a negative code of a laser
register write reaches a reply; every other write must succeed. -/
def OutcomesReported (env : Env) (h : SetHandler) (cmd : Command) (w : World) : Prop :=
  match h with
  | .memsroute =>
    ∀ pins, memsrouteTarget env cmd w = some pins → PulsesSucceed env w.trace.length pins
  | .mems => ∀ pin, memsTarget env cmd w = some pin → PulsesSucceed env w.trace.length [pin]
  | .laser => ∀ c, laserTarget env cmd = some c → LaserSucceeds env w c
  | .atten => ∀ drv, attenTarget env cmd w = some drv → DacSucceeds env w.trace.length drv
  | .power => ∀ on, powerTarget env cmd = some on → PowerSucceeds env w on
  | .sleep => powerTarget env cmd = some true → PowerSucceeds env w false

/-- **Success replies and the hardware.** A set handler sends the success text only after all the
writes that the request needs exactly under `OutcomesReported`. -/
theorem honest_iff (env : Env) (h : SetHandler) (cmd : Command) (w : World) :
    Honest env h cmd w ↔ OutcomesReported env h cmd w := by
  cases h with
  | memsroute => exact memsroute_honest_iff env cmd
  | mems => exact mems_honest_iff env cmd
  | laser => exact laser_honest_iff
  | atten => exact atten_honest_iff
  | power => exact power_honest_iff
  | sleep => exact sleep_honest_iff

/-- A request for power, and hardware that refuses every GPIO write. -/
def powerRequest : Command :=
  .setOf (str "power") (str "\x7b\"msg_type\":\"set\",\"value\":true\x7d")

def brokenEnv : Env where
  jsonObjParse := refuseEmpty fun _ text _ => ⟨1, text, [some (.bool true)]⟩
  answer := fun _ c => match c with
    | .gpioPinSet _ _ => -5
    | _ => 0
  cmdPayload := 0
  pubPayload := 0
  nameBuf := .zero _
  settingBuf := .zero _
  raw := 0

/-- `power_set` reports success although the power pin could not be driven. -/
theorem power_failure_not_reported : ¬ Honest brokenEnv .power powerRequest .boot := by
  rw [power_honest_iff]
  intro h
  rcases h true rfl with hl | ⟨-, hrc⟩
  · cases hl
  · cases hrc

end Tib
