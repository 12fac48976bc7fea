import HispecTib.Proofs.Apart
import HispecTib.Proofs.Defaults
import HispecTib.Proofs.Reach
import Mathlib.Data.List.Induction

/-!
# The power pin is a register

The `power` and `sleep` requests write it, the `power` and `status` requests read it, and nothing
else that the firmware receives touches it.

* `powerDemand`: what a request demands of the pin, if anything; `lastDemand`: the last one in a
  sequence of requests. The handlers read it from the empty text, so with a parser that refuses that
  text no request demands anything.
* `dispatch_level`, `dispatch_reads`: one command.
* `power_latch`: in every reachable state of the firmware, with a pin whose calls succeed, the pin
  is as last demanded, and every reading that was replied or will be is the last demand before it
  in the order in which the commands were accepted.
-/

open CLib

namespace Tib

/-! ## The register -/

section Register

variable (env : Env)

/-- What a command demands of the power pin; a `sleep` request of `false` demands nothing. -/
def powerDemand (cmd : Command) : Option Bool :=
  if cmd.msgType ≠ .set then none
  else if cmd.key.cstr = str "power" then powerTarget env cmd
  else if cmd.key.cstr = str "sleep" then
    if powerTarget env cmd = some true then some false else none
  else none

/-- The last demand of a sequence of commands, `on` if there is none. -/
def lastDemand (on : Bool) (cmds : List Command) : Bool :=
  ((cmds.filterMap (powerDemand env)).getLast?).getD on

theorem lastDemand_append (on : Bool) (cmds : List Command) (cmd : Command) :
    lastDemand env on (cmds ++ [cmd]) = (powerDemand env cmd).getD (lastDemand env on cmds) := by
  cases h : powerDemand env cmd <;> simp [lastDemand, List.filterMap_append, h]

/-- Under a parser that refuses the empty text, an accepted command demands nothing. -/
theorem powerTarget_refused {env : Env} (h : RefusesEmpty env) {cmd : Command}
    (hcmd : ReadsEmpty env cmd) : powerTarget env cmd = none := by
  rw [powerTarget, hcmd]
  exact if_pos (h _)

theorem powerDemand_refused {env : Env} (h : RefusesEmpty env) {cmd : Command}
    (hcmd : ReadsEmpty env cmd) : powerDemand env cmd = none := by
  simp [powerDemand, powerTarget_refused h hcmd]

theorem lastDemand_refused {env : Env} (h : RefusesEmpty env) (on : Bool) {cmds : List Command}
    (hcmds : ∀ cmd ∈ cmds, ReadsEmpty env cmd) : lastDemand env on cmds = on := by
  have hnone : cmds.filterMap (powerDemand env) = [] :=
    List.filterMap_eq_nil_iff.mpr fun cmd hcmd => powerDemand_refused h (hcmds cmd hcmd)
  rw [lastDemand, hnone]
  rfl

/-- A command that asks for the state of the pin. -/
def AsksPower (cmd : Command) : Prop :=
  cmd.msgType ≠ .set ∧ (cmd.key.cstr = str "power" ∨ cmd.key.cstr = str "status")

/-- The reply to such a command. -/
def powerReply (cmd : Command) (on : Bool) : OutMsg :=
  msgBuilder cmd .respOk (snprintf maxPayloadLen
    (str "\x7b\"power\":" ++ (if on then str "true" else str "false") ++ str "\x7d"))

/-- The calls to the power pin succeed. -/
def PowerPinWorks : Prop := ∀ n (c : HwCall), c.OfPower → env.answer n c = 0

end Register

/-! ## One command -/

section Command

variable {env : Env} {w : World} {cmd : Command}

/-- The entry of a word is called for every key that reads as the word. -/
theorem dispatch_of_word {word : List Byte} {e : DispatchEntry} (hkey : cmd.key.cstr = word)
    (hfind : findDispatch word = some e) : dispatch env cmd =
      callSelected (DispatchFunc.run env) cmd e.getHandler e.setHandler := by
  refine dispatchCommand_of_some ?_ _
  rw [← hfind, ← hkey]
  exact findDispatch_congr (cstr_cstr _).symm

theorem readsOn_of_works (h : PowerPinWorks env) (w : World) :
    ReadsOn env w ↔ w.level powerGpio = true :=
  and_iff_right (h _ (.gpioPinGet powerGpio) rfl).ge

theorem enablePower_level (h : PowerPinWorks env) (w : World) :
    (enablePower env w).post.level powerGpio = true := by
  obtain ⟨hval, -⟩ := powerEnabled_run env w
  simp only [enablePower, Prog.bind_run, hval, Prog.ite_run, Prog.pure_run]
  by_cases hon : ReadsOn env w
  · simpa [hon, powerEnabled_level] using hon.2
  · have hset := h (w.trace.length + 1) (.gpioPinSet powerGpio true) rfl
    simp [hon, powerWrite_level, hset]

theorem disablePower_level (h : PowerPinWorks env) (w : World) :
    (disablePower env w).post.level powerGpio = false := by
  obtain ⟨hval, -⟩ := powerEnabled_run env w
  simp only [disablePower, Prog.bind_run, hval, Prog.ite_run, Prog.pure_run]
  by_cases hon : ReadsOn env w
  · have hset := h (w.trace.length + 1) (.gpioPinSet powerGpio false) rfl
    simp [hon, powerWrite_level, hset]
  · have hlow : w.level powerGpio = false := by
      simpa using mt (readsOn_of_works h w).mpr hon
    simp [hon, powerEnabled_level, hlow]

/-- A demand is met. -/
theorem dispatch_demanded (h : PowerPinWorks env) {on : Bool}
    (hd : powerDemand env cmd = some on) (w : World) :
    (dispatch env cmd w).post.level powerGpio = on := by
  unfold powerDemand at hd
  split_ifs at hd with hset hkey hkey hoff
  · rw [dispatch_of_word hkey rfl, callSelected, if_pos (not_not.mp hset)]
    unfold powerTarget at hd
    dsimp only at hd
    split_ifs at hd with hrc
    simp only [DispatchFunc.run, powerSet, if_neg hrc]
    rw [Option.some.inj hd]
    cases on with
    | true => exact enablePower_level h w
    | false => exact disablePower_level h w
  · rw [dispatch_of_word hkey rfl, callSelected, if_pos (not_not.mp hset)]
    unfold powerTarget at hoff
    dsimp only at hoff
    split_ifs at hoff with hrc
    simp only [DispatchFunc.run, sleepSet, if_neg hrc]
    rw [Option.some.inj hoff, ← Option.some.inj hd]
    exact disablePower_level h w

/-- Without a demand, the pin stays. -/
theorem dispatch_undemanded (hw : PowerPinFree w) (hd : powerDemand env cmd = none) :
    (dispatch env cmd w).post.level powerGpio = w.level powerGpio := by
  have hroute {func : DispatchFunc} (hf : func ∈ switchFuncs) :
      (func.run env cmd w).post.level powerGpio = w.level powerGpio := by
    have hne : (HandlerCall.mk func cmd).part env ≠ .supply := by
      cases func <;> simp [switchFuncs] at hf <;> simp [HandlerCall.part]
    have hkept := apart_keeps (r := w.part .supply) hne
    exact (part_supply_iff.mp (hkept w ⟨hw, rfl⟩).2).1
  rcases dispatch_cases env cmd with ⟨om, hrun⟩ | ⟨func, hf, hkey, hty, hrun⟩ <;> rw [hrun]
  · rfl
  · cases func with
    | memsrouteGet | memsrouteSet => exact hroute (by simp [switchFuncs])
    | powerGet | statusGet => exact congrFun powerEnabled_level _
    | powerSet =>
      have hkey : cmd.key.cstr = str "power" := hkey
      have ht : powerTarget env cmd = none := by
        rwa [powerDemand, if_neg (not_not.mpr (hty.mpr rfl)), if_pos hkey] at hd
      unfold powerTarget at ht
      dsimp only at ht
      split_ifs at ht with hrc
      simp only [DispatchFunc.run, powerSet, if_pos hrc]
      rfl
    | sleepSet =>
      have hkey : cmd.key.cstr = str "sleep" := hkey
      have hne : cmd.key.cstr ≠ str "power" := by
        rw [hkey]
        decide
      have ht : powerTarget env cmd ≠ some true := by
        rw [powerDemand, if_neg (not_not.mpr (hty.mpr rfl)), if_neg hne, if_pos hkey] at hd
        intro ht
        simp [ht] at hd
      unfold powerTarget at ht
      dsimp only at ht
      simp only [DispatchFunc.run, sleepSet]
      by_cases hrc : (parsePayload env cmd (valueDescr .true_)).rc < 0
      · rw [if_pos hrc]
        rfl
      · rw [if_neg hrc] at ht ⊢
        have hoff : ¬ (parsePayload env cmd (valueDescr .true_)).boolField 0 = true :=
          fun hon => ht (congrArg some hon)
        rw [if_neg hoff]
        rfl
    | _ => simp [reachedFuncs, powerFuncs] at hf

/-- **One command.** -/
theorem dispatch_level (h : PowerPinWorks env) (hw : PowerPinFree w) :
    (dispatch env cmd w).post.level powerGpio =
      (powerDemand env cmd).getD (w.level powerGpio) := by
  cases hd : powerDemand env cmd with
  | none => exact dispatch_undemanded hw hd
  | some on => exact dispatch_demanded h hd w

theorem dispatch_powerPinFree (cmd : Command) : Preserves PowerPinFree (dispatch env cmd) := by
  refine dispatch_preserves (P := PowerPinFree)
    ⟨fun _ _ _ _ h => h, fun _ _ h => h, fun _ v h => powerPinFree_apply h (.gpioPinSet _ v)⟩
    ⟨fun _ _ _ _ _ h => h, fun _ _ h => h,
      fun _ pin v _ h => powerPinFree_apply h (.gpioPinSet pin v), ?_⟩ cmd
  exact fun w sw b h pin hpin => h pin (controlPin_setState.mp hpin)

/-- A reading shows the pin. -/
theorem powerReport_val (h : PowerPinWorks env) (w : World) :
    (powerReport env cmd w).val = powerReply cmd (w.level powerGpio) := by
  obtain ⟨hread, -⟩ := powerEnabled_run env w
  have hlevel : decide (ReadsOn env w) = w.level powerGpio := by
    rw [Bool.eq_iff_iff, decide_eq_true_iff, readsOn_of_works h]
  simp only [powerReport, Prog.bind_run, Prog.pure_run, hread, hlevel, powerReply]

theorem dispatch_reads (h : PowerPinWorks env) (hcmd : AsksPower cmd) (w : World) :
    (dispatch env cmd w).val = powerReply cmd (w.level powerGpio) := by
  have hval : (powerReport env cmd w).val = powerReply cmd (w.level powerGpio) :=
    powerReport_val h w
  rcases hcmd.2 with hkey | hkey <;>
    rw [dispatch_of_word hkey rfl, callSelected, if_neg hcmd.1] <;> exact hval

end Command

/-! ## Runs -/

section Runs

variable {env : Env} {w : World}

/-- **A sequence of commands.** -/
theorem commands_level (h : PowerPinWorks env) (hw : PowerPinFree w) (cmds : List Command) :
    PowerPinFree (Prog.mapList (dispatch env) cmds w).post ∧
      (Prog.mapList (dispatch env) cmds w).post.level powerGpio =
        lastDemand env (w.level powerGpio) cmds := by
  induction cmds using List.reverseRecOn with
  | nil => exact ⟨hw, rfl⟩
  | append_singleton cmds cmd ih =>
    rw [Prog.mapList_append_post, lastDemand_append]
    refine ⟨?_, ?_⟩
    · exact dispatch_powerPinFree cmd _ ih.1
    · refine (dispatch_level h ih.1).trans ?_
      rw [ih.2]

/-- **The power pin is a register.** If the calls to the pin succeed and no switch is wired to it,
then in every reachable state the pin is as the commands dispatched so far last demanded; and the
reply to a command that asks for it, given already or owed, shows the last demand among the commands
accepted before it. All demands are read from the empty text: with a parser that refuses it there
are none, and the pin is never moved. -/
theorem power_latch (h : PowerPinWorks env) (hw : PowerPinFree w) {s : Firmware}
    (hs : (firmware env w).Reachable s) :
    (∃ done, s.accepted = done ++ s.waiting ∧
      s.world.level powerGpio = lastDemand env (w.level powerGpio) done) ∧
    (∀ i cmd, s.accepted[i]? = some cmd → AsksPower cmd →
      (s.replies ++ s.owed env)[i]? =
        some (powerReply cmd (lastDemand env (w.level powerGpio) (s.accepted.take i)))) ∧
    (∀ cmd ∈ s.accepted, ReadsEmpty env cmd) ∧
    (RefusesEmpty env → (∀ cmd ∈ s.accepted, powerDemand env cmd = none) ∧
      s.world.level powerGpio = w.level powerGpio) := by
  obtain ⟨done, hx⟩ := exchange_of_reachable hs
  have hempty := accepted_readsEmpty hs
  have hlevel : s.world.level powerGpio = lastDemand env (w.level powerGpio) done := by
    rw [hx.world_eq]
    exact (commands_level h hw done).2
  refine ⟨⟨done, hx.accepted_eq, hlevel⟩, fun i cmd hi hasks => ?_, hempty, fun hrefuses => ?_⟩
  · have hall : s.replies ++ s.owed env = (Prog.mapList (dispatch env) s.accepted w).val := by
      rw [hx.accepted_eq, Prog.mapList_append_val, ← hx.replies_eq, ← hx.world_eq, Firmware.owed]
    rw [hall, Prog.mapList_getElem?, hi]
    exact congrArg some ((dispatch_reads h hasks _).trans
      (congrArg (powerReply cmd) (commands_level h hw _).2))
  · refine ⟨fun cmd hcmd => powerDemand_refused hrefuses (hempty cmd hcmd), ?_⟩
    rw [hlevel]
    refine lastDemand_refused hrefuses _ fun cmd hcmd => hempty cmd ?_
    rw [hx.accepted_eq]
    exact List.mem_append_left _ hcmd

/-- A parser that takes also the empty text, for one with the value `true`: under one that refuses
it, no accepted command moves the pin. -/
def lenientEnv : Env :=
  { setEnv with jsonObjParse := fun addr text d =>
      if text = [] then ⟨1, text, [some (.bool true)]⟩ else storeString 13 3 addr text d }

/-- It decodes `setPublish`, which then demands power. -/
theorem lenient_decodes : ∃ cmd, mqttCommandDecode lenientEnv setPublish = .ok cmd ∧
    powerDemand lenientEnv cmd = some true := by
  have hdemand : (mqttCommandDecode lenientEnv setPublish).toOption.map
      (powerDemand lenientEnv) = some (some true) := by decide
  obtain ⟨cmd, hcmd, hd⟩ := Option.map_eq_some_iff.mp hdemand
  cases hok : mqttCommandDecode lenientEnv setPublish with
  | error e =>
    rw [hok] at hcmd
    cases hcmd
  | ok cmd' =>
    rw [hok] at hcmd
    obtain rfl := Option.some.inj hcmd
    exact ⟨cmd', rfl, hd⟩

/-- After the setup, a request switches the power on. -/
theorem power_latch_after_request :
    let w := (setupMemsSwitchesAndRoutes lenientEnv .boot).post
    ∃ (s : Firmware) (cmd : Command), s.accepted = [cmd] ∧
      powerDemand lenientEnv cmd = some true ∧ ∃ done, s.accepted = done ++ s.waiting ∧
      s.world.level powerGpio = lastDemand lenientEnv (w.level powerGpio) done ∧
      s.world.level powerGpio = true := by
  intro w
  obtain ⟨cmd, hcmd, hdemand⟩ := lenient_decodes
  obtain ⟨s, hreach, hacc, hdone, -⟩ := request_dispatched hcmd w
  obtain ⟨⟨done, haccepted, hlevel⟩, -⟩ :=
    power_latch (fun _ _ _ => rfl) (setup_powerPinFree lenientEnv) hreach
  have hlast : lastDemand lenientEnv (w.level powerGpio) done = true := by
    rw [hdone, List.append_nil, hacc] at haccepted
    rw [← haccepted, ← List.nil_append [cmd], lastDemand_append, hdemand]
    rfl
  exact ⟨s, cmd, hacc, hdemand, done, haccepted, hlevel, hlevel.trans hlast⟩

end Runs

end Tib
