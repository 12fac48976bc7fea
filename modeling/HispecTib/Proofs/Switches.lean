import HispecTib.App.Devices
import HispecTib.App.Handlers
import Mathlib.Data.List.Find

/-!
# One switch, and the switches that setup installs

* **Wiring** (`World.wiring`): the router and the switches without their states. Lookups and
  control pins depend on it only, and commands keep it.
* **One switch** (`memsSwitchSetState_run`): a valid state is one pulse and one record, an invalid
  one is nothing.
* **Setup** (`setup_installs`): a router with the eight installed switches and the sixteen routes,
  or, without the expander, an empty one.
-/

open CLib

namespace Tib

/-! ## Wiring -/

/-- The router, and the switches with their states erased. -/
def World.wiring (w : World) : MemsRouter × (SwitchPtr → MemsSwitch) :=
  (w.router, fun p => { w.switches p with state := 0 })

/-- The switch that a name resolves to. -/
def World.findSwitch (w : World) (name : List Byte) : Option SwitchPtr :=
  memsRouterFindSwitch w.switches w.router name

section Wiring

variable {w w' : World}

theorem memsRouterFindSwitch_eq (w : World) (name : List Byte) :
    memsRouterFindSwitch w.switches w.router name = w.findSwitch name := rfl

theorem findSwitch_congr (h : w'.wiring = w.wiring) (name : List Byte) :
    w'.findSwitch name = w.findSwitch name := by
  have hw (v : World) : v.findSwitch name = memsRouterFindSwitch v.wiring.2 v.wiring.1 name := rfl
  rw [hw, hw, h]

/-- The lookup reads the switches of the router only. -/
theorem findSwitch_of_switches {mem mem' : SwitchPtr → MemsSwitch} {router : MemsRouter}
    (h : ∀ p ∈ router.switches, mem p = mem' p) {name : List Byte} :
    memsRouterFindSwitch mem router name = memsRouterFindSwitch mem' router name :=
  List.find?_congr fun p hp => by rw [h p hp]

theorem pinFor_congr (h : w'.wiring = w.wiring) (p : SwitchPtr) (state : Byte) :
    (w'.switches p).pinFor state = (w.switches p).pinFor state := by
  have hw (v : World) : (v.switches p).pinFor state = (v.wiring.2 p).pinFor state := rfl
  rw [hw, hw, h]

theorem mem_of_findSwitch {name : List Byte} {p : SwitchPtr} (h : w.findSwitch name = some p) :
    p ∈ w.router.switches := List.mem_of_find?_eq_some h

theorem wiring_setState (w : World) (p : SwitchPtr) (state : Byte) :
    (w.setSwitch p { w.switches p with state }).wiring = w.wiring := by
  refine Prod.ext rfl (funext fun q => ?_)
  by_cases hq : q = p
  · subst hq
    simp [World.wiring]
  · simp [World.wiring, Function.update_of_ne hq]

end Wiring

/-! ## One switch -/

section Switch

variable (env : Env)

/-- What the pulse keeps: all that the firmware stores in memory. -/
theorem pulse_keeps {ρ : Type} {f : World → ρ} (hr : ∀ w e, f (w.record e) = f w)
    (hc : ∀ w c, f (w.apply c) = f w) (pin : GpioPin) : Keeps f (pulse env pin) := by
  have hset (v : Bool) : Keeps f (gpioPinSet env pin v) := hwCall_keeps env hr fun w => hc w _
  have hsleep (ms : Nat) : Keeps f (kSleep ms) := Keeps.act fun w => hr w _
  unfold pulse
  refine Keeps.bind (hset _) fun _ => Keeps.bind (hsleep _) fun _ => ?_
  refine Keeps.bind (hset _) fun _ => Keeps.bind (hsleep _) fun _ => ?_
  exact Keeps.bind (hset _) fun _ => Keeps.bind (hsleep _) fun _ => Keeps.pure _

theorem pulse_switches (pin : GpioPin) (w : World) :
    (pulse env pin w).post.switches = w.switches :=
  pulse_keeps env (fun _ _ => rfl) World.apply_switches pin w

theorem pulse_router (pin : GpioPin) (w : World) :
    (pulse env pin w).post.router = w.router :=
  pulse_keeps env (fun _ _ => rfl) World.apply_router pin w

theorem memsSwitchSetState_none {w : World} {sw : SwitchPtr} {state : Byte}
    (h : (w.switches sw).pinFor state = none) :
    memsSwitchSetState env sw state w = ⟨-1, w, []⟩ := by
  simp only [memsSwitchSetState, Prog.bind_run, Prog.get_run, h]
  rfl

/-- A valid state: one pulse, and then the state is recorded. -/
theorem memsSwitchSetState_run {w : World} {sw : SwitchPtr} {state : Byte} {pin : GpioPin}
    (h : (w.switches sw).pinFor state = some pin) :
    memsSwitchSetState env sw state w = ⟨0, (pulse env pin w).post.setSwitch sw
      { w.switches sw with state }, (pulse env pin w).points⟩ := by
  simp only [memsSwitchSetState, Prog.bind_run, Prog.get_run, h]
  simp [pulse_switches]

variable {w : World} {sw : SwitchPtr} {state : Byte}

theorem memsSwitchSetState_wiring (sw : SwitchPtr) (state : Byte) (w : World) :
    (memsSwitchSetState env sw state w).post.wiring = w.wiring := by
  cases hp : (w.switches sw).pinFor state with
  | none => rw [memsSwitchSetState_none env hp]
  | some pin =>
    rw [memsSwitchSetState_run env hp, ← pulse_switches env pin w, wiring_setState, World.wiring,
      pulse_switches, pulse_router]
    rfl

/-- After a valid state: this switch has it, and no other switch has changed. -/
theorem memsSwitchSetState_switches {pin : GpioPin}
    (h : (w.switches sw).pinFor state = some pin) :
    (memsSwitchSetState env sw state w).post.switches =
      Function.update w.switches sw { w.switches sw with state } := by
  rw [memsSwitchSetState_run env h, World.setSwitch_switches, pulse_switches]

end Switch

/-! ## Switch commands -/

section Commands

variable (env : Env)

/-- A command of the two set handlers that move switches. -/
inductive SwitchCommand where
  | memsroute (cmd : Command)
  | mems (cmd : Command)

def SwitchCommand.run : SwitchCommand → Prog World OutMsg
  | .memsroute cmd => memsrouteSet env cmd
  | .mems cmd => memsSet env cmd

theorem memsrouteStep_keeps_wiring (cmd : Command) (step : MemsRouteStep) :
    Keeps World.wiring (memsrouteStep env cmd step) := by
  refine Keeps.bind Keeps.get fun w => ?_
  split
  · exact Keeps.pure _
  · refine Keeps.bind (memsSwitchSetState_wiring env _ _) fun rc => ?_
    exact Keeps.ite (fun _ => Keeps.pure _) fun _ => Keeps.pure _

theorem SwitchCommand.keeps_wiring (c : SwitchCommand) : Keeps World.wiring (c.run env) := by
  cases c with
  | memsroute cmd =>
    refine Keeps.ite (fun _ => Keeps.pure _) fun _ => Keeps.bind Keeps.get fun w => ?_
    split
    · exact Keeps.pure _
    · refine Keeps.bind (Keeps.firstSome fun step _ => memsrouteStep_keeps_wiring env cmd step)
        fun r => ?_
      split <;> exact Keeps.pure _
  | mems cmd =>
    refine Keeps.ite (fun _ => Keeps.pure _) fun _ => ?_
    refine Keeps.ite (fun _ => Keeps.pure _) fun _ => Keeps.bind Keeps.get fun w => ?_
    split
    · exact Keeps.pure _
    · refine Keeps.bind (memsSwitchSetState_wiring env _ _) fun rc => ?_
      exact Keeps.ite (fun _ => Keeps.pure _) fun _ => Keeps.pure _

/-- A run of switch commands, one at a time. -/
def runCommands (history : List SwitchCommand) : Prog World (List OutMsg) :=
  Prog.mapList (SwitchCommand.run env) history

theorem runCommands_wiring (history : List SwitchCommand) (w : World) :
    (runCommands env history w).post.wiring = w.wiring :=
  Keeps.mapList (fun c _ => c.keeps_wiring env) w

end Commands

/-! ## Setup -/

section Setup

variable (env : Env)

/-- The name array that `mems_switch_init` fills. -/
def switchNameBuf (name : List Byte) : Buf memsSwitchNameLen :=
  ((Buf.zero _).strncpy name (memsSwitchNameLen - 1)).write (memsSwitchNameLen - 1) [0]

/-- Switch `i` right after setup. -/
def installedSwitch (i : SwitchPtr) : MemsSwitch :=
  ⟨.pcal6416a, (memsSwitchPinPairs.getD i (0, 0)).1, (memsSwitchPinPairs.getD i (0, 0)).2, chr 'U',
    switchNameBuf (switchNames.getD i [])⟩

/-- The router right after setup. -/
def installedRouter : MemsRouter := defineRoutes (memsRouterInit memsSwitchPtrs) routeDefs

/-- The `i`-th call of `mems_switch_init` in the setup. -/
def initSwitch (i : SwitchPtr) : Prog World Unit :=
  memsSwitchInit env i .pcal6416a (memsSwitchPinPairs.getD i (0, 0)).1
    (memsSwitchPinPairs.getD i (0, 0)).2 (switchNames.getD i [])

theorem initSwitch_switches (i : SwitchPtr) (w : World) :
    (initSwitch env i w).post.switches = Function.update w.switches i (installedSwitch i) := by
  have hname (b : Buf memsSwitchNameLen) (name : List Byte) :
      (b.strncpy name (memsSwitchNameLen - 1)).write (memsSwitchNameLen - 1) [0] =
        switchNameBuf name := Buf.strncpy_write_last (n := memsSwitchNameLen - 1) b _ name
  simp only [initSwitch, memsSwitchInit, gpioPinConfigure, hwCall, Prog.bind_run, Prog.get_run,
    Prog.modify_run, Prog.act_run, Prog.pure_run, World.afterCall_switches,
    World.setSwitch_switches, hname]
  rfl

theorem initSwitches_switches (ps : List SwitchPtr) (w : World) (p : SwitchPtr) :
    (Prog.mapList (initSwitch env) ps w).post.switches p =
      if p ∈ ps then installedSwitch p else w.switches p := by
  induction ps generalizing w with
  | nil => simp [Prog.mapList]
  | cons q ps ih =>
    simp only [Prog.mapList, Prog.bind_run, Prog.pure_run, ih, initSwitch_switches]
    by_cases hp : p ∈ ps
    · simp [hp]
    · by_cases hq : p = q
      · subst hq
        simp [hp]
      · simp [hp, hq]

/-- The world after the readiness check of the setup. -/
def readyChecked (w : World) : World :=
  w.afterCall (.deviceIsReady .pcal6416a) (env.answer w.trace.length (.deviceIsReady .pcal6416a))

theorem setup_run (w : World) :
    (setupMemsSwitchesAndRoutes env w).post =
      if env.answer w.trace.length (.deviceIsReady .pcal6416a) = 0 then
        { (Prog.mapList (initSwitch env) memsSwitchPtrs (readyChecked env w)).post with
          router := installedRouter }
      else readyChecked env w := by
  unfold setupMemsSwitchesAndRoutes deviceIsReady
  by_cases hready : env.answer w.trace.length (.deviceIsReady .pcal6416a) = 0
  · simp only [hwCall, Prog.bind_run, Prog.act_run, Prog.pure_run, hready, decide_true,
      Bool.not_true, if_true, readyChecked]
    rfl
  · simp [hwCall, hready, readyChecked]

/-- **Setup.** With the expander ready, the router and its eight switches are installed; without
it, memory stays as it is. -/
theorem setup_installs (w : World) :
    let w' := (setupMemsSwitchesAndRoutes env w).post
    w'.router = installedRouter ∧ (∀ p ∈ memsSwitchPtrs, w'.switches p = installedSwitch p) ∨
      w'.router = w.router ∧ w'.switches = w.switches := by
  dsimp only
  rw [setup_run]
  split
  · refine Or.inl ⟨rfl, fun p hp => ?_⟩
    exact (initSwitches_switches env memsSwitchPtrs _ p).trans (if_pos hp)
  · exact Or.inr ⟨World.afterCall_router _ _ _, World.afterCall_switches _ _ _⟩

/-- An environment in which every call succeeds, and whose parser decodes the ends of a route. -/
def quietEnv : Env where
  jsonObjParse := refuseEmpty fun _ text _ =>
    ⟨3, text, [some (.chars (str "yj_1430" ++ [0])), some (.chars (str "yj_ao" ++ [0]))]⟩
  answer := fun _ _ => 0
  cmdPayload := 0
  pubPayload := 0
  nameBuf := .zero _
  settingBuf := .zero _
  raw := 0

/-- The request for that route. -/
def routeRequest : Command := .setOf (str "memsroute")
  (str "\x7b\"msg_type\":\"set\",\"input\":\"yj_1430\",\"output\":\"yj_ao\"\x7d")

end Setup

end Tib
