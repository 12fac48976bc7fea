import HispecTib.App.Attenuator
import HispecTib.App.MemsSwitching

/-!
# Device setup (`devices.c`)

The switch names and pins, the sixteen routes, and the two setup functions that fill the world.
-/

open CLib

namespace Tib

def switchNames : List (List Byte) := [
  str "yj_cal_laser", str "hk_cal_laser",
  str "yj_ao_fei", str "hk_ao_fei",
  str "yj_forward_retro", str "hk_forward_retro",
  str "yj_mm_sm", str "hk_mm_sm"]

def memsSwitchPinPairs : List (Nat × Nat) := [
  (0, 1), (2, 3), (4, 5), (6, 7),
  (8, 9), (10, 11), (12, 13), (14, 15)]

/-- `NUM_ATTENUATORS`. -/
abbrev numAttenuators : Nat := 6

/-- `attenuator_init` on every attenuator, its index as the channel. -/
def setupAttenuators : Prog World Unit :=
  Prog.modify fun w => (List.range numAttenuators).foldl
    (fun w i => w.setAttenuator i (attenuatorInit (w.attenuators i) i)) w

/-- The arguments of one `mems_router_define_route` of the setup. -/
structure RouteDef where
  input : List Byte
  output : List Byte
  steps : List MemsRouteStep

/-- A route from the names and states as they stand in the source. -/
def routeDef (input output : String) (steps : List (String × Char)) : RouteDef :=
  ⟨str input, str output, steps.map fun s => ⟨str s.1, chr s.2⟩⟩

/-- The routes, in the order of their definition. -/
def routeDefs : List RouteDef := [
  routeDef "yj_1430" "yj_ao"
    [("yj_cal_laser", 'B'), ("yj_forward_retro", 'A'), ("yj_ao_fei", 'A')],
  routeDef "yj_1430" "yj_fei"
    [("yj_cal_laser", 'B'), ("yj_forward_retro", 'A'), ("yj_ao_fei", 'B')],
  routeDef "yj_cal" "yj_ao" [("yj_cal_laser", 'A'), ("yj_ao_fei", 'A')],
  routeDef "yj_cal" "yj_fei" [("yj_cal_laser", 'A'), ("yj_ao_fei", 'B')],
  routeDef "yj_laser" "yj_ao" [("yj_cal_laser", 'B'), ("yj_ao_fei", 'A')],
  routeDef "yj_laser" "yj_fei" [("yj_cal_laser", 'B'), ("yj_ao_fei", 'B')],
  routeDef "yj_mm" "yj_pd" [("yj_mm_sm", 'A')],
  routeDef "yj_sm" "yj_pd" [("yj_mm_sm", 'B')],
  routeDef "hk_1430" "hk_ao"
    [("hk_cal_laser", 'B'), ("hk_forward_retro", 'A'), ("hk_ao_fei", 'A')],
  routeDef "hk_1430" "hk_fei"
    [("hk_cal_laser", 'B'), ("hk_forward_retro", 'A'), ("hk_ao_fei", 'B')],
  routeDef "hk_cal" "hk_ao" [("hk_cal_laser", 'A'), ("hk_ao_fei", 'A')],
  routeDef "hk_cal" "hk_fei" [("hk_cal_laser", 'A'), ("hk_ao_fei", 'B')],
  routeDef "hk_laser" "hk_ao" [("hk_cal_laser", 'B'), ("hk_ao_fei", 'A')],
  routeDef "hk_laser" "hk_fei" [("hk_cal_laser", 'B'), ("hk_ao_fei", 'B')],
  routeDef "hk_mm" "hk_pd" [("hk_mm_sm", 'A')],
  routeDef "hk_sm" "hk_pd" [("hk_mm_sm", 'B')]]

/-- The calls of `mems_router_define_route`; their return codes are ignored. -/
def defineRoutes (router : MemsRouter) (defs : List RouteDef) : MemsRouter :=
  defs.foldl (fun r d => (memsRouterDefineRoute r d.input d.output d.steps).2) router

/-- The pointers `mems_switch_ptrs`: switch `i` is `&mems_switches[i]`. -/
def memsSwitchPtrs : List SwitchPtr := List.range 8

def setupMemsSwitchesAndRoutes (env : Env) : Prog World Unit := do
  if !(← deviceIsReady env .pcal6416a) then return ()
  let _ ← Prog.mapList (fun i => memsSwitchInit env i .pcal6416a
    (memsSwitchPinPairs.getD i (0, 0)).1 (memsSwitchPinPairs.getD i (0, 0)).2
    (switchNames.getD i [])) memsSwitchPtrs
  Prog.modify fun w => { w with router := defineRoutes (memsRouterInit memsSwitchPtrs) routeDefs }

end Tib
