import HispecTib.Base.Quantizer
import HispecTib.Base.Sys
import HispecTib.Proofs.Defaults
import HispecTib.Proofs.Settings

/-!
# Attenuators

`attenuator_set` over every outcome of its three calls: one call in any arithmetic, the rest in
exact arithmetic.

* `attenuatorSetIn_run`: what one call returns, stores and writes, in any arithmetic.
* `DispatchFunc.keeps_attenuators`: only `atten_setting_set` changes an attenuator.
* `dac_arithmetic`: the stored voltage and the DAC code of a request, and the range of the voltage
  in every run.
-/

open CLib Quantizer

namespace Tib

/-! ## One set -/

namespace Attenuator

variable (drv : Attenuator) (value : Rat) (raw : Bool)

/-- The voltage that a request asks for, in the range of the DAC. -/
def wanted : Rat := clamp maxVoltage (if raw then value else quad drv.coeffDbToVolt value)

end Attenuator

theorem maxVoltage_pos : 0 < maxVoltage := by
  norm_num [maxVoltage]

theorem clampVoltage_eq (v : Rat) : clampVoltage v = clamp maxVoltage v := by
  change (if v < 0 then 0 else if v > maxVoltage then maxVoltage else v) = _
  split_ifs with hlow hhigh
  · exact (clamp_of_nonpos hlow.le).symm
  · exact (clamp_of_ge maxVoltage_pos.le hhigh.le).symm
  · exact (clamp_eq_self (not_lt.mp hlow) (not_lt.mp hhigh)).symm

/-- The two ways in which the polynomials are written agree in the order of the coefficients. -/
theorem requested_eq (drv : Attenuator) (value : Rat) (raw : Bool) :
    drv.requested value raw = if raw then value else quad drv.coeffDbToVolt value := by
  unfold Attenuator.requested Attenuator.requestedIn quad
  split_ifs
  · rfl
  · simp only [id]
    ring

theorem attenuatorGet_db (drv : Attenuator) :
    attenuatorGet drv false = quad drv.coeffVoltToDb drv.voltage := by
  unfold attenuatorGet quad
  rw [if_neg Bool.false_ne_true]
  ring

theorem set_voltage (drv : Attenuator) (value : Rat) (raw : Bool) :
    (drv.set value raw).voltage = drv.wanted value raw := by
  change clampVoltage (drv.requested value raw) = _
  rw [clampVoltage_eq, requested_eq, Attenuator.wanted]

theorem dacCode_eq (v : Rat) : dacCode v = quantize maxVoltage dacMaxCode v := rfl

instance (env : Env) (t channel code : Nat) : Decidable (DacTakes env t channel code) :=
  inferInstanceAs (Decidable (_ ∧ _ ∧ _))

theorem afterCall_dac (w : World) (c : HwCall) (rc : Int) :
    (w.afterCall c rc).dac = if rc = 0 then (w.apply c).dac else w.dac := by
  unfold World.afterCall
  split <;> rfl

/-- It succeeds when its calls do, and then the channel has the code. -/
theorem dacPut_run (env : Env) (cfg : DacChannelCfg) (code : Nat) (w : World) :
    (dacPut env cfg code w).val = decide (DacTakes env w.trace.length cfg.channelId code) ∧
      (dacPut env cfg code w).post.dac = if DacTakes env w.trace.length cfg.channelId code then
        Function.update w.dac cfg.channelId (some code) else w.dac := by
  unfold dacPut DacTakes
  by_cases hready : env.answer w.trace.length (.deviceIsReady .dac7578) = 0
  · by_cases hsetup : env.answer (w.trace.length + 1) (.dacChannelSetup cfg.channelId) = 0
    · by_cases hwrite : env.answer (w.trace.length + 2)
          (.dacWriteValue cfg.channelId code) = 0 <;>
        simp [deviceIsReady, dacChannelSetup, dacWriteValue, hwCall, hready, hsetup, hwrite,
          afterCall_dac, World.apply]
    · simp [deviceIsReady, dacChannelSetup, hwCall, hready, hsetup, afterCall_dac, World.apply]
  · simp [deviceIsReady, hwCall, hready, afterCall_dac]

section Set

variable (fl : Rat → Rat) (env : Env) (i : Nat) (value : Rat) (raw : Bool) (w : World)

/-- **One set.** The voltage is stored in any case; the code is written when the calls succeed. -/
theorem attenuatorSetIn_run :
    let drv := (w.attenuators i).setIn fl value raw
    let code := dacCodeIn fl drv.voltage
    let r := attenuatorSetIn fl env i value raw w
    r.val = decide (DacTakes env w.trace.length drv.cfg.channelId code) ∧
      r.post.attenuators = Function.update w.attenuators i drv ∧
      r.post.dac = if DacTakes env w.trace.length drv.cfg.channelId code then
        Function.update w.dac drv.cfg.channelId (some code) else w.dac := by
  intro drv code r
  have hr : r = dacPut env drv.cfg code (w.setAttenuator i drv) :=
    attenuatorSetIn_eq env fl i value raw w
  obtain ⟨hval, hdac⟩ := dacPut_run env drv.cfg code (w.setAttenuator i drv)
  rw [hr]
  exact ⟨hval, dacPut_keeps_attenuators env drv.cfg code (w.setAttenuator i drv), hdac⟩

theorem attenuatorSetIn_own : (attenuatorSetIn fl env i value raw w).post.attenuators i =
    (w.attenuators i).setIn fl value raw := by
  rw [(attenuatorSetIn_run fl env i value raw w).2.1, Function.update_self]

theorem attenuatorSetIn_other {j : Nat} (h : j ≠ i) :
    (attenuatorSetIn fl env i value raw w).post.attenuators j = w.attenuators j := by
  rw [(attenuatorSetIn_run fl env i value raw w).2.1, Function.update_of_ne h]

end Set

/-! In exact arithmetic. -/

theorem attenuatorSet_dac {env : Env} {i : Nat} {value : Rat} {raw : Bool} {w : World}
    (h : DacSucceeds env w.trace.length ((w.attenuators i).set value raw)) :
    (attenuatorSet env i value raw w).post.dac = Function.update w.dac
      (w.attenuators i).cfg.channelId (some (dacCode ((w.attenuators i).wanted value raw))) := by
  rw [← set_voltage]
  exact ((attenuatorSetIn_run id env i value raw w).2.2).trans (if_pos h)

theorem attenuatorSet_own (env : Env) (i : Nat) (value : Rat) (raw : Bool) (w : World) :
    (attenuatorSet env i value raw w).post.attenuators i = (w.attenuators i).set value raw :=
  attenuatorSetIn_own id env i value raw w

theorem attenuatorSet_other (env : Env) {i j : Nat} (h : j ≠ i) (value : Rat) (raw : Bool)
    (w : World) : (attenuatorSet env i value raw w).post.attenuators j = w.attenuators j :=
  attenuatorSetIn_other id env i value raw w h

/-! ## Handlers that leave the attenuators alone -/

section Frame

variable (env : Env) (cmd : Command)

theorem setState_keeps_attenuators (sw : SwitchPtr) (state : Byte) :
    Keeps World.attenuators (memsSwitchSetState env sw state) := by
  refine Keeps.bind Keeps.get fun w => ?_
  split
  · exact Keeps.pure _
  · refine Keeps.bind (pulse_keeps env (fun _ _ => rfl) World.apply_attenuators _) fun _ => ?_
    exact Keeps.bind (Keeps.modify fun _ => rfl) fun _ => Keeps.pure _

theorem memsrouteStep_keeps_attenuators (step : MemsRouteStep) :
    Keeps World.attenuators (memsrouteStep env cmd step) := by
  refine Keeps.bind Keeps.get fun w => ?_
  split
  · exact Keeps.pure _
  · refine Keeps.bind (setState_keeps_attenuators env _ _) fun rc => ?_
    exact Keeps.ite (fun _ => Keeps.pure _) fun _ => Keeps.pure _

theorem memsrouteSet_keeps_attenuators : Keeps World.attenuators (memsrouteSet env cmd) := by
  refine Keeps.ite (fun _ => Keeps.pure _) fun _ => Keeps.bind Keeps.get fun w => ?_
  split
  · exact Keeps.pure _
  · refine Keeps.bind (Keeps.firstSome fun step _ =>
      memsrouteStep_keeps_attenuators env cmd step) fun r => ?_
    split <;> exact Keeps.pure _

theorem memsSet_keeps_attenuators : Keeps World.attenuators (memsSet env cmd) := by
  refine Keeps.ite (fun _ => Keeps.pure _) fun _ => ?_
  refine Keeps.ite (fun _ => Keeps.pure _) fun _ => Keeps.bind Keeps.get fun w => ?_
  split
  · exact Keeps.pure _
  · refine Keeps.bind (setState_keeps_attenuators env _ _) fun rc => ?_
    exact Keeps.ite (fun _ => Keeps.pure _) fun _ => Keeps.pure _

theorem powerEnabled_keeps_attenuators : Keeps World.attenuators (powerEnabled env) :=
  powerEnabled_keeps_stored.comp fun s => s.2.1

theorem enablePower_keeps_attenuators : Keeps World.attenuators (enablePower env) := by
  refine Keeps.bind (powerEnabled_keeps_attenuators env) fun on => ?_
  exact Keeps.ite (fun _ => Keeps.pure _) fun _ =>
    Keeps.bind (hwCall_keeps_attenuators env _) fun _ => Keeps.pure _

theorem disablePower_keeps_attenuators : Keeps World.attenuators (disablePower env) :=
  disablePower_keeps_stored.comp fun s => s.2.1

theorem enablePowerAndWait_keeps_attenuators :
    Keeps World.attenuators (enablePowerAndWait env) :=
  enablePowerAndWait_keeps_stored.comp fun s => s.2.1

theorem laserSettingGet_keeps_attenuators :
    Keeps World.attenuators (laserSettingGet env cmd) := by
  refine Keeps.ite (fun _ => Keeps.pure _) fun _ => Keeps.ite (fun _ => Keeps.pure _) fun _ => ?_
  split
  · exact Keeps.pure _
  · refine Keeps.bind (enablePowerAndWait_keeps_attenuators env) fun _ => ?_
    refine Keeps.bind (Keeps.bind (Keeps.bind Keeps.get fun _ =>
      Keeps.bind (hwCall_keeps_attenuators env _) fun _ => Keeps.pure _) fun _ =>
        Keeps.ite (fun _ => Keeps.pure _) fun _ => Keeps.pure _) fun r => ?_
    exact Keeps.ite (fun _ => Keeps.pure _) fun _ => Keeps.pure _

theorem laserSettingSet_keeps_attenuators :
    Keeps World.attenuators (laserSettingSet env cmd) := by
  refine Keeps.ite (fun _ => Keeps.pure _) fun _ => Keeps.ite (fun _ => Keeps.pure _) fun _ => ?_
  refine Keeps.ite (fun _ => Keeps.pure _) fun _ => ?_
  split
  · exact Keeps.pure _
  · refine Keeps.bind (enablePowerAndWait_keeps_attenuators env) fun _ => ?_
    refine Keeps.bind (Keeps.bind (hwCall_keeps_attenuators env _) fun _ =>
      Keeps.ite (fun _ => Keeps.pure _) fun _ => Keeps.pure _) fun r => ?_
    exact Keeps.ite (fun _ => Keeps.pure _) fun _ => Keeps.pure _

theorem powerReport_keeps_attenuators : Keeps World.attenuators (powerReport env cmd) :=
  Keeps.bind (powerEnabled_keeps_attenuators env) fun _ => Keeps.pure _

/-- Only `atten_setting_set` changes an attenuator. -/
theorem DispatchFunc.keeps_attenuators {func : DispatchFunc} (h : func ≠ .attenSettingSet) :
    Keeps World.attenuators (func.run env cmd) := by
  cases func with
  | memsrouteGet =>
    refine Keeps.bind Keeps.get fun w => ?_
    dsimp only
    split <;> exact Keeps.pure _
  | memsrouteSet => exact memsrouteSet_keeps_attenuators env cmd
  | memsGet =>
    refine Keeps.ite (fun _ => Keeps.pure _) fun _ => Keeps.bind Keeps.get fun w => ?_
    split <;> exact Keeps.pure _
  | memsSet => exact memsSet_keeps_attenuators env cmd
  | laserSettingGet => exact laserSettingGet_keeps_attenuators env cmd
  | laserSettingSet => exact laserSettingSet_keeps_attenuators env cmd
  | powerGet | statusGet => exact powerReport_keeps_attenuators env cmd
  | powerSet =>
    refine Keeps.ite (fun _ => Keeps.pure _) fun _ => Keeps.ite (fun _ => ?_) fun _ => ?_
    · exact Keeps.bind (enablePower_keeps_attenuators env) fun _ => Keeps.pure _
    · exact Keeps.bind (disablePower_keeps_attenuators env) fun _ => Keeps.pure _
  | attenSettingGet =>
    refine Keeps.ite (fun _ => Keeps.pure _) fun _ => Keeps.ite (fun _ => Keeps.pure _) fun _ => ?_
    refine Keeps.bind Keeps.get fun w => Keeps.ite (fun _ => Keeps.pure _) fun _ => ?_
    exact Keeps.ite (fun _ => Keeps.pure _) fun _ => Keeps.pure _
  | attenSettingSet => exact absurd rfl h
  | sleepSet =>
    refine Keeps.ite (fun _ => Keeps.pure _) fun _ => Keeps.ite (fun _ => ?_) fun _ => ?_
    · exact Keeps.bind (disablePower_keeps_attenuators env) fun _ => Keeps.pure _
    · exact Keeps.bind (Keeps.pure _) fun _ => Keeps.pure _

end Frame

/-! ## Arithmetic -/

/-- `v` and `c` are the voltage and the code for the request `q`. -/
structure Conversion (q v : Rat) (c : Nat) : Prop where
  voltage_eq : v = clamp maxVoltage q
  voltage_nonneg : 0 ≤ v
  voltage_le : v ≤ maxVoltage
  code_le : c ≤ dacMaxCode
  level_le : c * maxVoltage / dacMaxCode ≤ v
  lt_next : v < (c + 1) * maxVoltage / dacMaxCode
  first : q ≤ 0 → c = 0
  last : maxVoltage ≤ q → c = dacMaxCode

theorem clampVoltage_range (q : Rat) : 0 ≤ clampVoltage q ∧ clampVoltage q ≤ maxVoltage := by
  rw [clampVoltage_eq]
  exact ⟨clamp_nonneg, clamp_le maxVoltage_pos.le⟩

theorem conversion (q : Rat) : Conversion q (clampVoltage q) (dacCode (clampVoltage q)) := by
  obtain ⟨hnonneg, hle⟩ := clampVoltage_range q
  have hcodes : 0 < dacMaxCode := by decide
  refine ⟨clampVoltage_eq q, hnonneg, hle, quantize_le maxVoltage_pos hle,
    level_le maxVoltage_pos hcodes hnonneg, lt_level_succ maxVoltage_pos hcodes, fun hq => ?_,
    fun hq => ?_⟩
  · rw [clampVoltage_eq, clamp_of_nonpos hq, dacCode_eq, quantize_zero]
  · rw [clampVoltage_eq, clamp_of_ge maxVoltage_pos.le hq, dacCode_eq,
      quantize_full maxVoltage_pos]

theorem dacCode_mono {q q' : Rat} (h : q ≤ q') :
    dacCode (clampVoltage q) ≤ dacCode (clampVoltage q') := by
  simp only [clampVoltage_eq]
  exact quantize_mono maxVoltage_pos (clamp_mono h)

/-- The codes that the events pass to `dac_write_value`. -/
def codesOf (es : List Event) : List Nat :=
  es.filterMap fun
    | .call (.dacWriteValue _ code) _ => some code
    | _ => none

/-- The DAC is ready and its channel is set up. -/
def DacReached (env : Env) (t : Nat) (drv : Attenuator) : Prop :=
  env.answer t (.deviceIsReady .dac7578) = 0 ∧
    env.answer (t + 1) (.dacChannelSetup drv.cfg.channelId) = 0

instance (env : Env) (t : Nat) (drv : Attenuator) : Decidable (DacReached env t drv) :=
  inferInstanceAs (Decidable (_ ∧ _))

theorem attenuatorSet_codes (env : Env) (i : Nat) (value : Rat) (raw : Bool) (w : World) :
    codesOf (eventsOf (attenuatorSet env i value raw) w) =
      if DacReached env w.trace.length (w.attenuators i) then
        [dacCode (clampVoltage ((w.attenuators i).requested value raw))] else [] := by
  rw [(attenuatorSet_emits env w i value raw).eventsOf_eq]
  unfold dacEvents DacReached
  by_cases hready : env.answer w.trace.length (.deviceIsReady .dac7578) = 0 <;>
    by_cases hsetup : env.answer (w.trace.length + 1)
      (.dacChannelSetup (w.attenuators i).cfg.channelId) = 0 <;>
    simp [hready, hsetup, callAt, codesOf]

/-! ## Runs -/

/-- What happens to the attenuators after `attenuator_init`: calls of `attenuator_set`, new
coefficients, and calls of the command handlers. -/
inductive AttenuatorOp where
  | set (i : Nat) (value : Rat) (raw : Bool)
  | coeffs (i : Nat) (dbToVolt voltToDb : Fin 3 → Rat)
  | handler (func : DispatchFunc) (cmd : Command)

def AttenuatorOp.run (env : Env) : AttenuatorOp → Prog World Unit
  | .set i value raw => do
    let _ ← attenuatorSet env i value raw
  | .coeffs i dbToVolt voltToDb => Prog.modify fun w => w.setAttenuator i
    { w.attenuators i with coeffDbToVolt := dbToVolt, coeffVoltToDb := voltToDb }
  | .handler func cmd => do
    let _ ← func.run env cmd

/-- Runs from an `attenuator_init` of attenuator `i` on. -/
def attenuatorRuns (env : Env) (i : Nat) : Sys where
  St := World
  Label := AttenuatorOp
  start := fun w => ∃ (w₀ : World) (channel : Nat),
    w = w₀.setAttenuator i (attenuatorInit (w₀.attenuators i) channel)
  step := fun w op w' => w' = (op.run env w).post

/-- The stored voltage is in the range of the DAC. -/
def InRange (i : Nat) (w : World) : Prop :=
  0 ≤ (w.attenuators i).voltage ∧ (w.attenuators i).voltage ≤ maxVoltage

section Range

variable (env : Env) (i j : Nat)

theorem attenuatorSet_inRange (value : Rat) (raw : Bool) :
    Triple (InRange i) (fun _ => True) (attenuatorSet env j value raw) fun _ => InRange i := by
  intro w hw
  have hpost : InRange i (attenuatorSet env j value raw w).post := by
    by_cases hij : i = j
    · subst hij
      rw [InRange, attenuatorSet_own]
      exact clampVoltage_range _
    · rwa [InRange, attenuatorSet_other env hij]
  exact ⟨fun _ _ => trivial, hpost⟩

/-- New coefficients keep the voltage. -/
theorem setCoeffs_inRange {w : World} (hw : InRange i w) (c c' : Fin 3 → Rat) :
    InRange i (w.setAttenuator j
      { w.attenuators j with coeffDbToVolt := c, coeffVoltToDb := c' }) := by
  rw [InRange, World.setAttenuator_attenuators]
  by_cases hij : i = j
  · subst hij
    rwa [Function.update_self]
  · rwa [Function.update_of_ne hij]

theorem attenSettingSet_inRange (cmd : Command) :
    Triple (InRange i) (fun _ => True) (attenSettingSet env cmd) fun _ => InRange i := by
  have hset (j : Nat) (value : Rat) (raw : Bool) (om : OutMsg) : Triple (InRange i)
      (fun _ => True) (do let _ ← attenuatorSet env j value raw; pure om) fun _ => InRange i :=
    (attenuatorSet_inRange env i j value raw).bind fun _ => Triple.pure fun w hw => hw
  have hdone (om : OutMsg) : Triple (InRange i) (fun _ => True) (pure om : Prog World OutMsg)
      fun _ => InRange i := Triple.pure fun w hw => hw
  refine Triple.ite (fun _ => hdone _) fun _ => Triple.ite (fun _ => hdone _) fun _ => ?_
  refine Triple.ite (fun _ => Triple.ite (fun _ => hdone _) fun _ => ?_) fun _ => ?_
  · refine Triple.getBind fun w hw => ?_
    refine Triple.bind (Q := fun _ => InRange i) (Triple.modify fun v hv => ?_) fun _ => hset _ _ _ _
    exact setCoeffs_inRange i _ (hv ▸ hw) _ _
  · refine Triple.ite (fun _ => Triple.ite (fun _ => hdone _) fun _ => hset _ _ _ _) fun _ => ?_
    exact Triple.ite (fun _ => Triple.ite (fun _ => hdone _) fun _ => hset _ _ _ _) fun _ => hdone _

theorem AttenuatorOp.inRange (op : AttenuatorOp) :
    Triple (InRange i) (fun _ => True) (op.run env) fun _ => InRange i := by
  cases op with
  | set j value raw =>
    exact (attenuatorSet_inRange env i j value raw).bind fun _ => Triple.pure fun w hw => hw
  | coeffs j c c' => exact Triple.modify fun w hw => setCoeffs_inRange i j hw c c'
  | handler func cmd =>
    refine Triple.bind (Q := fun _ => InRange i) ?_ fun _ => Triple.pure fun w hw => hw
    by_cases hfunc : func = .attenSettingSet
    · subst hfunc
      exact attenSettingSet_inRange env i cmd
    · exact (DispatchFunc.keeps_attenuators env cmd hfunc).triple
        (P := fun a => 0 ≤ (a i).voltage ∧ (a i).voltage ≤ maxVoltage)

theorem inRange_of_reachable {w : World} (h : (attenuatorRuns env i).Reachable w) :
    InRange i w := by
  refine h.of_steps (P := fun w : World => InRange i w) ?_ ?_
  · rintro w ⟨w₀, channel, rfl⟩
    rw [InRange, World.setAttenuator_attenuators, Function.update_self]
    exact ⟨le_rfl, maxVoltage_pos.le⟩
  · rintro w op w' hw rfl
    exact (op.inRange env i w hw).2

end Range

/-- **DAC arithmetic.** A call of `attenuator_set` stores the voltage and, once it reaches the DAC,
writes the code of its request; a larger raw request gives no smaller code; and in every run from
`attenuator_init` on the stored voltage is in the range. -/
theorem dac_arithmetic (env : Env) (i : Nat) :
    (∀ value raw w, ∃ c,
      Conversion ((w.attenuators i).requested value raw)
        ((attenuatorSet env i value raw w).post.attenuators i).voltage c ∧
      codesOf (eventsOf (attenuatorSet env i value raw) w) =
        if DacReached env w.trace.length (w.attenuators i) then [c] else []) ∧
    (∀ value value' w w', value ≤ value' →
      ∀ c ∈ codesOf (eventsOf (attenuatorSet env i value true) w),
      ∀ c' ∈ codesOf (eventsOf (attenuatorSet env i value' true) w'), c ≤ c') ∧
    ∀ w, (attenuatorRuns env i).Reachable w →
      0 ≤ (w.attenuators i).voltage ∧ (w.attenuators i).voltage ≤ maxVoltage := by
  refine ⟨fun value raw w => ?_, fun value value' w w' hle c hc c' hc' => ?_, fun w hw => ?_⟩
  · refine ⟨_, ?_, attenuatorSet_codes env i value raw w⟩
    rw [attenuatorSet_own]
    exact conversion _
  · rw [attenuatorSet_codes] at hc hc'
    split_ifs at hc hc'
    · rw [List.mem_singleton.mp hc, List.mem_singleton.mp hc']
      exact dacCode_mono hle
    all_goals simp at hc hc'
  · exact inRange_of_reachable env i hw

end Tib
