import HispecTib.Proofs.Outcomes
import HispecTib.Proofs.Wording

/-!
# Set requests without a value

On an object without the member `value`, `json_obj_parse` succeeds and stores nothing
(`LacksValue`), so a set handler acts on what its zero-initialised struct holds: `false`, the number
0 or the empty string. `refusedWithoutEffect_iff` says for each handler when such a request is
refused and changes nothing: always for `mems_set` and `sleep_set`, and for the others only if the
request is refused for another reason or the calls that it makes fail.
-/

open CLib

namespace Tib

/-! ## Requests -/

section Requests

variable (env : Env) (cmd : Command) (w : World)

/-- The payload is an object without `value`, as the parser treats it. -/
structure LacksValue : Prop where
  rc_eq : ∀ tok, (parsePayload env cmd (valueDescr tok)).rc = 0
  field_eq : ∀ tok, (parsePayload env cmd (valueDescr tok)).field 0 = none

/-- The handlers that parse a `value`. -/
def valueHandlers : List SetHandler := [.power, .sleep, .mems, .laser, .atten]

/-- What a refused request leaves as it was. -/
structure Untouched (w w' : World) : Prop where
  power_eq : w'.level powerGpio = w.level powerGpio
  switches_eq : w'.switches = w.switches
  voltage_eq : ∀ i, (w'.attenuators i).voltage = (w.attenuators i).voltage
  regs_eq : w'.regs = w.regs

/-- The reply has the type of an error, and the devices are as before. -/
structure RefusedWithoutEffect (h : SetHandler) : Prop where
  type_eq : (h.func.run env cmd w).val.msgType = .respError
  untouched : Untouched w (h.func.run env cmd w).post

/-- Acting on the default value is harmless. A laser request has to be refused before the hardware,
or its register write has to fail after power that was on or stays off. -/
def HarmlessDefault (h : SetHandler) : Prop :=
  match h with
  | .power =>
    ReadsOn env w → env.answer (w.trace.length + 1) (.gpioPinSet powerGpio false) ≠ 0
  | .laser => ∀ c, laserTarget env cmd = some c →
    env.answer (w.trace.length + if ReadsOn env w then 1 else 3) c < 0 ∧
      (w.level powerGpio = true ∨
        env.answer (w.trace.length + 1) (.gpioPinSet powerGpio true) ≠ 0)
  | .atten => attenTarget env cmd w = none
  | .memsroute | .mems | .sleep => True

variable {env cmd w}

theorem Untouched.refl : Untouched w w := ⟨rfl, rfl, fun _ => rfl, rfl⟩

theorem refused_withoutEffect {h : SetHandler} (hr : Refuses cmd (h.func.run env cmd) w) :
    RefusedWithoutEffect env cmd w h := by
  obtain ⟨s, hs⟩ := hr.reply
  refine ⟨?_, ?_⟩
  · rw [hs]
    rfl
  · rw [hr.post_eq]
    exact .refl

end Requests

/-! ## The power pin -/

section PowerPin

variable {env : Env} {w : World}

/-- What a change of the power leaves alone. -/
def World.stored (w : World) : (SwitchPtr → MemsSwitch) × (Nat → Attenuator) ×
    (Nat → UInt16 → UInt16) := (w.switches, w.attenuators, w.regs)

theorem gpioCall_keeps_stored {c : HwCall} (hc : ∀ w : World, (w.apply c).regs = w.regs) :
    Keeps World.stored (hwCall env c) :=
  hwCall_keeps env (fun _ _ => rfl) fun w => by
    simp only [World.stored, World.apply_switches, World.apply_attenuators, hc]

theorem powerEnabled_keeps_stored : Keeps World.stored (powerEnabled env) :=
  Keeps.bind (Keeps.bind Keeps.get fun _ => Keeps.bind (gpioCall_keeps_stored fun _ => rfl)
    fun _ => Keeps.pure _) fun _ => Keeps.pure _

theorem enablePowerAndWait_keeps_stored : Keeps World.stored (enablePowerAndWait env) := by
  unfold enablePowerAndWait enablePower
  refine Keeps.bind (Keeps.bind powerEnabled_keeps_stored fun on => ?_) fun on => ?_
  · exact Keeps.ite (fun _ => Keeps.pure _) fun _ =>
      Keeps.bind (gpioCall_keeps_stored fun _ => rfl) fun _ => Keeps.pure _
  · exact Keeps.ite (fun _ => Keeps.act fun _ => rfl) fun _ => Keeps.pure _

theorem disablePower_keeps_stored : Keeps World.stored (disablePower env) := by
  unfold disablePower
  refine Keeps.bind powerEnabled_keeps_stored fun on => ?_
  exact Keeps.ite (fun _ => Keeps.pure _) fun _ =>
    Keeps.bind (gpioCall_keeps_stored fun _ => rfl) fun _ => Keeps.pure _

theorem Untouched.of_stored {w' : World} (hs : w'.stored = w.stored) :
    Untouched w w' ↔ w'.level powerGpio = w.level powerGpio := by
  simp only [World.stored, Prod.mk.injEq] at hs
  obtain ⟨hsw, hatt, hregs⟩ := hs
  exact ⟨fun h => h.power_eq, fun h => ⟨h, hsw, fun i => by rw [hatt], hregs⟩⟩

theorem powerEnabled_level : (powerEnabled env w).post.level = w.level := by
  have hget (rc : Int) : (w.afterCall (.gpioPinGet powerGpio) rc).level = w.level := by
    unfold World.afterCall
    split <;> rfl
  exact hget _

theorem gpioPinSet_level (p : GpioPin) (v : Bool) : (gpioPinSet env p v w).post.level p =
    if env.answer w.trace.length (.gpioPinSet p v) = 0 then v else w.level p := by
  change (w.afterCall _ _).level p = _
  unfold World.afterCall
  split
  · exact Function.update_self _ _ _
  · rfl

/-- The power pin after a read and a write to it. -/
theorem powerWrite_level (on : Bool) :
    (gpioPinSet env powerGpio on (powerEnabled env w).post).post.level powerGpio =
      if env.answer (w.trace.length + 1) (.gpioPinSet powerGpio on) = 0 then on
      else w.level powerGpio := by
  rw [gpioPinSet_level, (powerEnabled_run env w).2.length, powerEnabled_level]
  rfl

/-- Switching the power off changes the pin only if it reads high and the write succeeds. -/
theorem disablePower_level_iff :
    (disablePower env w).post.level powerGpio = w.level powerGpio ↔
      (ReadsOn env w → env.answer (w.trace.length + 1) (.gpioPinSet powerGpio false) ≠ 0) := by
  obtain ⟨hval, -⟩ := powerEnabled_run env w
  simp only [disablePower, Prog.bind_run, hval, Prog.ite_run, Prog.pure_run]
  by_cases hon : ReadsOn env w
  · have hlevel : w.level powerGpio = true := hon.2
    simp [hon, powerWrite_level, hlevel]
  · simp [hon, powerEnabled_level]

/-- The power pin after switching the power on. -/
theorem enablePowerAndWait_level :
    (enablePowerAndWait env w).post.level powerGpio =
      if ¬ ReadsOn env w ∧ env.answer (w.trace.length + 1) (.gpioPinSet powerGpio true) = 0 then
        true
      else w.level powerGpio := by
  obtain ⟨hval, -⟩ := powerEnabled_run env w
  simp only [enablePowerAndWait, enablePower, Prog.bind_run, hval, Prog.ite_run, Prog.pure_run]
  by_cases hon : ReadsOn env w
  · simp [hon, powerEnabled_level]
  · simp only [hon, decide_false, Bool.false_eq_true, if_false, if_true, not_false_eq_true,
      true_and]
    exact powerWrite_level true

/-- Switching the power on changes the pin only if it was low and the write succeeds. -/
theorem enablePowerAndWait_level_iff :
    (enablePowerAndWait env w).post.level powerGpio = w.level powerGpio ↔
      w.level powerGpio = true ∨
        env.answer (w.trace.length + 1) (.gpioPinSet powerGpio true) ≠ 0 := by
  rw [enablePowerAndWait_level]
  by_cases hon : ReadsOn env w
  · have hlevel : w.level powerGpio = true := hon.2
    simp [hon, hlevel]
  · cases w.level powerGpio <;> simp [hon]

end PowerPin

/-! ## The handlers -/

section Handlers

variable {env : Env} {cmd : Command} {w : World}

theorem power_default_iff (h : LacksValue env cmd) :
    RefusedWithoutEffect env cmd w .power ↔ HarmlessDefault env cmd w .power := by
  have hrc : ¬ (parsePayload env cmd (valueDescr .true_)).rc < 0 := (h.rc_eq _).not_lt
  have hval : (parsePayload env cmd (valueDescr .true_)).boolField 0 = false := by
    rw [JsonResult.boolField, h.field_eq]
  have hrun : powerSet env cmd = disablePower env >>= fun _ =>
      pure (msgBuilder cmd .respError okText) := by
    rw [powerSet]
    simp only [if_neg hrc, hval, Bool.false_eq_true, if_false]
  have hpost : (powerSet env cmd w).post = (disablePower env w).post := by
    rw [hrun]
    rfl
  have hkeeps : Keeps World.stored (disablePower env) := disablePower_keeps_stored
  have hiff := Untouched.of_stored (hkeeps w)
  rw [disablePower_level_iff, ← hpost] at hiff
  refine ⟨fun hr => hiff.mp hr.untouched, fun hh => ⟨?_, hiff.mpr hh⟩⟩
  change (powerSet env cmd w).val.msgType = _
  rw [hrun]
  rfl

/-- The default of `sleep_set` is to do nothing. -/
theorem sleep_default (h : LacksValue env cmd) : RefusedWithoutEffect env cmd w .sleep := by
  have hrc : ¬ (parsePayload env cmd (valueDescr .true_)).rc < 0 := (h.rc_eq _).not_lt
  have hval : (parsePayload env cmd (valueDescr .true_)).boolField 0 = false := by
    rw [JsonResult.boolField, h.field_eq]
  have hrun : sleepSet env cmd = pure (msgBuilder cmd .respError okText) := by
    rw [sleepSet]
    simp only [if_neg hrc, hval, Bool.false_eq_true, if_false]
    rfl
  have hfunc : SetHandler.sleep.func.run env cmd = sleepSet env cmd := rfl
  constructor <;> rw [hfunc, hrun]
  · rfl
  · exact .refl

/-- The empty string names no side of a switch. -/
theorem mems_default (h : LacksValue env cmd) : RefusedWithoutEffect env cmd w .mems := by
  have hstate : ((parsePayload env cmd (valueDescr .string)).charsField 0
      memsSwitchNameLen).data.headD 0 = 0 := by
    rw [JsonResult.charsField, h.field_eq]
    rfl
  have hpin (s : MemsSwitch) : s.pinFor 0 = none := by
    have hA : (0 : Byte) ≠ chr 'A' := by decide
    have hB : (0 : Byte) ≠ chr 'B' := by decide
    rw [MemsSwitch.pinFor, if_neg hA, if_neg hB]
  refine refused_withoutEffect (memsSet_refused env cmd ?_)
  simp only [memsTarget, hstate, hpin, ite_self, Option.bind_fun_none]

/-- The reply tells whether the write failed. -/
theorem laserSetReply_error (rc : Int) : (laserSetReply cmd rc).msgType = .respError ↔ rc < 0 := by
  unfold laserSetReply
  split_ifs with hneg
  · exact iff_of_true rfl hneg
  · exact iff_of_false nofun hneg

theorem laser_default_iff :
    RefusedWithoutEffect env cmd w .laser ↔ HarmlessDefault env cmd w .laser := by
  cases ht : laserTarget env cmd with
  | none =>
    refine iff_of_true (refused_withoutEffect (laserSettingSet_refused ht)) fun c hc => ?_
    rw [ht] at hc
    cases hc
  | some c =>
    have hrun := laserSettingSet_run env w ht
    simp only [accessRun, enablePowerAndWait_length] at hrun
    have hpost := congrArg Run.post hrun
    have htype : (laserSettingSet env cmd w).val.msgType = .respError ↔
        env.answer (w.trace.length + if ReadsOn env w then 1 else 3) c < 0 := by
      rw [hrun]
      exact laserSetReply_error _
    have hrefused : RefusedWithoutEffect env cmd w .laser ↔
        env.answer (w.trace.length + if ReadsOn env w then 1 else 3) c < 0 ∧
          Untouched w (laserSettingSet env cmd w).post :=
      ⟨fun hr => ⟨htype.mp hr.type_eq, hr.untouched⟩, fun hr => ⟨htype.mpr hr.1, hr.2⟩⟩
    simp only [hrefused, HarmlessDefault, ht, Option.some.injEq, forall_eq']
    refine and_congr_right fun hneg => ?_
    -- A negative answer leaves the registers alone, so only the power can have changed.
    have hrec (v : World) (rc : Int) (hrc : rc < 0) :
        (v.afterCall c rc).stored = v.stored ∧ (v.afterCall c rc).level = v.level := by
      rw [World.afterCall, if_neg hrc.ne]
      exact ⟨rfl, rfl⟩
    obtain ⟨hstored, hlevel⟩ := hrec (enablePowerAndWait env w).post _ hneg
    rw [hpost, Untouched.of_stored (hstored.trans (enablePowerAndWait_keeps_stored w)), hlevel]
    exact enablePowerAndWait_level_iff

theorem atten_default_iff :
    RefusedWithoutEffect env cmd w .atten ↔ HarmlessDefault env cmd w .atten := by
  cases ht : attenTarget env cmd w with
  | none => exact iff_of_true (refused_withoutEffect (attenSettingSet_refused ht)) ht
  | some drv =>
    have hok := (attenSettingSet_emits env ht).1
    have hagrees : Agrees (attenSettingSet env cmd w).val :=
      (attenSettingSet_worded env cmd w).agrees
    rw [Agrees, hok, if_neg (by decide)] at hagrees
    refine iff_of_false (fun hr => ?_) fun hh => ?_
    · have htype : (attenSettingSet env cmd w).val.msgType = .respError := hr.type_eq
      rw [hagrees] at htype
      cases htype
    · have hnone : attenTarget env cmd w = none := hh
      rw [ht] at hnone
      cases hnone

/-- **Requests without a value.** A set handler refuses such a request without effect exactly when
acting on the default value is harmless. -/
theorem refusedWithoutEffect_iff {h : SetHandler} (hh : h ∈ valueHandlers)
    (hv : LacksValue env cmd) :
    RefusedWithoutEffect env cmd w h ↔ HarmlessDefault env cmd w h := by
  cases h with
  | memsroute => exact absurd hh (by decide)
  | mems => exact iff_of_true (mems_default hv) trivial
  | laser => exact laser_default_iff
  | atten => exact atten_default_iff
  | power => exact power_default_iff hv
  | sleep => exact iff_of_true (sleep_default hv) trivial

end Handlers

/-! ## Examples -/

/-- A parser that finds none of the members it is asked for. -/
def emptyEnv : Env :=
  { quietEnv with jsonObjParse := refuseEmpty fun _ text d => ⟨0, text, d.map fun _ => none⟩ }

def valuelessRequest : Command :=
  .setOf (str "power") (str "\x7b\"msg_type\":\"set\"\x7d")

theorem valueless_lacksValue : LacksValue emptyEnv valuelessRequest :=
  ⟨fun _ => rfl, fun _ => rfl⟩

/-- The world at boot with the power on. -/
def poweredBoot : World := World.boot.apply (.gpioPinSet powerGpio true)

/-- A request without a value switches the power off. -/
theorem power_default_acts : LacksValue emptyEnv valuelessRequest ∧
    ¬ RefusedWithoutEffect emptyEnv valuelessRequest poweredBoot .power := by
  refine ⟨valueless_lacksValue, ?_⟩
  rw [power_default_iff valueless_lacksValue]
  intro hh
  have hon : ReadsOn emptyEnv poweredBoot := by
    unfold ReadsOn
    decide
  exact hh hon rfl

/-- With the power off, it is refused without effect. -/
theorem power_default_idle : RefusedWithoutEffect emptyEnv valuelessRequest .boot .power := by
  refine (refusedWithoutEffect_iff (by decide) valueless_lacksValue).mpr fun hon => ?_
  exact absurd hon.2 (by decide)

end Tib
