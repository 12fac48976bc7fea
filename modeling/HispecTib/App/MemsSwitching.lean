import HispecTib.App.World

/-!
# MEMS switches and the router (`mems_switching.c`)

* The switch functions change `World.switches` at one pointer and call the GPIO driver.
* The router functions are pure. A lookup by name resolves to the first switch of the router with
  that name (`memsRouterFindSwitch`), so they take the switches in memory as an argument.

`mems_switch_set_state` ignores the return codes of the three writes, as the source does.
-/

open CLib

namespace Tib

/-! ## Switch methods -/

section Switch

variable (env : Env)

def memsSwitchInit (sw : SwitchPtr) (gpioDev : Device) (pinA pinB : Nat) (name : List Byte) :
    Prog World Unit := do
  let w ← Prog.get
  let buf := ((w.switches sw).name.strncpy name (memsSwitchNameLen - 1)).write
    (memsSwitchNameLen - 1) [0]
  Prog.modify fun w => w.setSwitch sw ⟨gpioDev, pinA, pinB, chr 'U', buf⟩
  let _ ← gpioPinConfigure env ⟨gpioDev, pinA⟩
  let _ ← gpioPinConfigure env ⟨gpioDev, pinB⟩

/-- The control pin of a demanded state; only `'A'` and `'B'` have one. -/
def MemsSwitch.pinFor (s : MemsSwitch) (state : Byte) : Option GpioPin :=
  if state = chr 'A' then some ⟨s.gpioDev, s.pinA⟩
  else if state = chr 'B' then some ⟨s.gpioDev, s.pinB⟩
  else none

/-- The control pulse: low, high, low, each followed by the delay. -/
def pulse (pin : GpioPin) : Prog World Unit := do
  let _ ← gpioPinSet env pin false
  kSleep memsSwitchPulseDelayMs
  let _ ← gpioPinSet env pin true
  kSleep memsSwitchPulseDelayMs
  let _ ← gpioPinSet env pin false
  kSleep memsSwitchPulseDelayMs

def memsSwitchSetState (sw : SwitchPtr) (state : Byte) : Prog World Int := do
  let w ← Prog.get
  match (w.switches sw).pinFor state with
  | none => return -1
  | some pin =>
    pulse env pin
    Prog.modify fun w => w.setSwitch sw { w.switches sw with state := state }
    return 0

end Switch

/-- The return code and `*out_state`; the null checks of the source are on the two pointers. -/
def memsSwitchGetState (s : MemsSwitch) : Int × Byte :=
  (if s.state = chr 'A' ∨ s.state = chr 'B' then 0 else -1, s.state)

/-! ## Router methods -/

def memsRouterInit (switches : List SwitchPtr) : MemsRouter where
  switches := switches.take memsRouterMaxSwitches
  routes := []
  switches_le := by rw [List.length_take]; exact Nat.min_le_left _ _
  routes_le := Nat.zero_le _

/-- `strncmp(a, b, MEMS_SWITCH_NAME_LEN) == 0`, the test of every lookup by name. -/
def sameName (a b : List Byte) : Bool := strncmp a b memsSwitchNameLen = 0

def memsRouterFindSwitch (mem : SwitchPtr → MemsSwitch) (router : MemsRouter) (name : List Byte) :
    Option SwitchPtr :=
  router.switches.find? fun p => sameName (mem p).name.data name

theorem steps_bounds {n max : Nat} (h : ¬ (n = 0 ∨ n > max)) : 0 < n ∧ n ≤ max := by
  omega

theorem routes_append_le {routes : List MemsRoute} {max : Nat} (h : ¬ routes.length ≥ max)
    (route : MemsRoute) : (routes ++ [route]).length ≤ max := by
  rw [List.length_append, List.length_singleton]
  omega

/-- The return code and the router afterwards. A null pointer is `none`; `steps` and `num_steps`
are one list. -/
def memsRouterDefineRoute (router : MemsRouter) (input output : Option (List Byte))
    (steps : Option (List MemsRouteStep)) : Int × MemsRouter :=
  if h : router.routes.length ≥ memsRouterMaxRoutes then (-1, router)
  else
    match input, output, steps with
    | some input, some output, some steps =>
      if h' : steps.length = 0 ∨ steps.length > memsRouterMaxRoutePath then (-2, router)
      else
        let route : MemsRoute :=
          ⟨⟨input, output⟩, steps, (steps_bounds h').1, (steps_bounds h').2⟩
        (0, { router with
          routes := router.routes ++ [route]
          routes_le := routes_append_le h route })
    | _, _, _ => (-2, router)

def memsRouterGetRoute (router : MemsRouter) (input output : List Byte) : Option MemsRoute :=
  router.routes.find? fun route =>
    sameName route.key.inputName input && sameName route.key.outputName output

/-- The inner loop of `mems_router_active_routes`: every step names a switch of the router that is
in the demanded state. -/
def routeMatches (mem : SwitchPtr → MemsSwitch) (router : MemsRouter) (route : MemsRoute) : Bool :=
  route.steps.all fun step =>
    match memsRouterFindSwitch mem router step.switchName with
    | none => false
    | some p => (mem p).state = step.state

/-- The outer loop: the routes still to visit, and the keys written so far. -/
def activeRoutesLoop (mem : SwitchPtr → MemsSwitch) (router : MemsRouter) (maxKeys : Nat) :
    List MemsRoute → Nat → (Nat → MemsRouteKey) → Nat × (Nat → MemsRouteKey)
  | [], nFound, outKeys => (nFound, outKeys)
  | route :: rest, nFound, outKeys =>
    if nFound < maxKeys then
      if routeMatches mem router route then
        activeRoutesLoop mem router maxKeys rest (nFound + 1)
          (Function.update outKeys nFound route.key)
      else activeRoutesLoop mem router maxKeys rest nFound outKeys
    else (nFound, outKeys)

/-- The number of keys and the array `out_keys` afterwards. -/
def memsRouterActiveRoutes (mem : SwitchPtr → MemsSwitch) (router : MemsRouter)
    (outKeys : Nat → MemsRouteKey) (maxKeys : Nat) : Nat × (Nat → MemsRouteKey) :=
  activeRoutesLoop mem router maxKeys router.routes 0 outKeys

end Tib
