import HispecTib.Proofs.Outcomes

/-!
# Two routes, and routes that fail

A `memsroute_set` makes the writes of its route up to the first step that fails (`Walk`).

* `memsrouteSet_independent`: routes that name disjoint sets of switches do not interfere, and the
  installed routes of the two bands are such routes.
* `allOrNothing_iff`: a request that is answered with an error has moved nothing, unless a later
  step of its route fails than the first.
-/

open CLib

namespace Tib

/-! ## One request -/

section Requests

variable (env : Env) (cmd : Command)

/-- The route that a `memsroute_set` walks. -/
def selectedRoute (router : MemsRouter) : Option MemsRoute :=
  let r := parsePayload env cmd routeDescr
  if r.rc < 0 then none
  else memsRouterGetRoute router r.routeId.input.data r.routeId.output.data

/-- What a request for `route` leaves of `w`. -/
structure Walk (w : World) (route : MemsRoute) (r : Run World OutMsg) : Prop where
  wiring : r.post.wiring = w.wiring
  states : r.post.states = writes (walkWrites w route.steps) w.states
  trace : r.post.trace = w.trace ++ pulsesEvents env w.trace.length (walkPins w route.steps)
  error : r.val.msgType = .respError ↔ ∃ step ∈ route.steps, stepWrite w step = none

/-- A selected route is walked, and the reply says whether the walk ended early. -/
theorem memsrouteSet_eq {w : World} {route : MemsRoute}
    (h : selectedRoute env cmd w.router = some route) :
    let r := Prog.firstSome (memsrouteStep env cmd) route.steps w
    (memsrouteSet env cmd w).val = r.val.getD (msgBuilder cmd .respOk okText) ∧
      (memsrouteSet env cmd w).post = r.post := by
  unfold selectedRoute at h
  unfold memsrouteSet
  dsimp only at h ⊢
  obtain ⟨hrc, hroute⟩ := ite_eq_iff.mp h |>.resolve_left (by rintro ⟨-, ⟨⟩⟩)
  rw [if_neg hrc, Prog.bind_run, Prog.get_run]
  simp only [hroute, Prog.bind_run]
  cases hval : (Prog.firstSome (memsrouteStep env cmd) route.steps w).val <;> exact ⟨rfl, rfl⟩

theorem memsrouteSet_walk {w : World} {route : MemsRoute}
    (h : selectedRoute env cmd w.router = some route) :
    Walk env w route (memsrouteSet env cmd w) := by
  obtain ⟨hreply, hpost⟩ := memsrouteSet_eq env cmd h
  obtain ⟨hwire, hst, hnone⟩ := routeLoop_walk env cmd route.steps w
  have herr := routeLoop_respError env cmd route.steps w
  have htrace := routeLoop_pulses env cmd route.steps w
  refine ⟨hpost ▸ hwire, hpost ▸ hst, hpost ▸ htrace, ?_⟩
  rw [hreply]
  cases hval : (Prog.firstSome (memsrouteStep env cmd) route.steps w).val with
  | none =>
    refine iff_of_false (by simp [msgBuilder]) ?_
    rintro ⟨step, hstep, hx⟩
    exact hnone.mp hval step hstep hx
  | some om =>
    refine iff_of_true (herr om hval) ?_
    by_contra hall
    push Not at hall
    rw [hnone.mpr hall] at hval
    cases hval

/-- A request that is refused before its walk is answered with an error, and does nothing. -/
theorem memsrouteSet_unselected {w : World} (h : selectedRoute env cmd w.router = none) :
    (memsrouteSet env cmd w).val.msgType = .respError ∧ (memsrouteSet env cmd w).post = w := by
  unfold selectedRoute at h
  unfold memsrouteSet
  dsimp only at h ⊢
  by_cases hrc : (parsePayload env cmd routeDescr).rc < 0
  · rw [if_pos hrc]
    exact ⟨rfl, rfl⟩
  · rw [if_neg hrc] at h ⊢
    rw [Prog.bind_run, Prog.get_run]
    simp only [h]
    exact ⟨rfl, rfl⟩

theorem mem_of_selectedRoute {router : MemsRouter} {route : MemsRoute}
    (h : selectedRoute env cmd router = some route) : route ∈ router.routes := by
  unfold selectedRoute at h
  dsimp only at h
  split at h
  · cases h
  · exact List.mem_of_find?_eq_some h

end Requests

/-! ## Two requests -/

section Independence

variable {env : Env} {w w' : World}

/-- No switch is named by a step of each. -/
def DisjointSwitches (w : World) (route₁ route₂ : MemsRoute) : Prop :=
  ∀ step₁ ∈ route₁.steps, ∀ step₂ ∈ route₂.steps, ∀ p,
    w.findSwitch step₁.switchName = some p → w.findSwitch step₂.switchName ≠ some p

variable {route route₁ route₂ : MemsRoute}

theorem DisjointSwitches.symm (h : DisjointSwitches w route₁ route₂) :
    DisjointSwitches w route₂ route₁ :=
  fun s₁ h₁ s₂ h₂ p hp hp' => h s₂ h₂ s₁ h₁ p hp' hp

theorem DisjointSwitches.congr (hwire : w'.wiring = w.wiring)
    (h : DisjointSwitches w route₁ route₂) : DisjointSwitches w' route₁ route₂ := by
  simpa only [DisjointSwitches, findSwitch_congr hwire] using h

/-- A walk writes only switches that its route names. -/
theorem findSwitch_of_written {p : SwitchPtr} (h : p ∈ writtenKeys (walkWrites w route.steps)) :
    ∃ step ∈ route.steps, w.findSwitch step.switchName = some p := by
  obtain ⟨x, hx, rfl⟩ := List.mem_map.mp h
  obtain ⟨step, hstep, hw⟩ := mem_walkWrites hx
  exact ⟨step, hstep, (stepWrite_eq_some hw).1⟩

/-- Whether a route is active depends on the states of the switches that it names. -/
theorem routeMatches_congr (hwire : w'.wiring = w.wiring)
    (hst : ∀ step ∈ route.steps, ∀ p, w.findSwitch step.switchName = some p →
      w'.states p = w.states p) :
    routeMatches w'.switches w'.router route = routeMatches w.switches w.router route := by
  unfold routeMatches
  rw [Bool.eq_iff_iff]
  simp only [List.all_eq_true, memsRouterFindSwitch_eq, findSwitch_congr hwire]
  refine forall₂_congr fun step hstep => ?_
  cases hf : w.findSwitch step.switchName with
  | none => rfl
  | some p =>
    have hp : (w'.switches p).state = (w.switches p).state := hst step hstep p hf
    simp only [hp]

/-- A walk of one route leaves a disjoint route as active as it was. -/
theorem Walk.keeps_status {r : Run World OutMsg} (h : Walk env w route₁ r)
    (hd : DisjointSwitches w route₁ route₂) :
    routeMatches r.post.switches r.post.router route₂ =
      routeMatches w.switches w.router route₂ := by
  refine routeMatches_congr h.wiring fun step hstep p hp => ?_
  rw [h.states]
  refine writes_of_notMem (fun hmem => ?_) _
  obtain ⟨step₁, hstep₁, hp₁⟩ := findSwitch_of_written hmem
  exact hd step₁ hstep₁ step hstep p hp₁ hp

variable {cmd₁ cmd₂ : Command}

theorem selectedRoute_congr {cmd : Command} (h : w'.wiring = w.wiring) :
    selectedRoute env cmd w'.router = selectedRoute env cmd w.router := by
  have hr : w'.router = w.router := congrArg Prod.fst h
  rw [hr]

/-- The states after two requests, one after the other. -/
theorem memsrouteSet_twice (h₁ : selectedRoute env cmd₁ w.router = some route₁)
    (h₂ : selectedRoute env cmd₂ w.router = some route₂) :
    let w₁ := (memsrouteSet env cmd₁ w).post
    (memsrouteSet env cmd₂ w₁).post.wiring = w.wiring ∧
      (memsrouteSet env cmd₂ w₁).post.states =
        writes (walkWrites w route₂.steps) (writes (walkWrites w route₁.steps) w.states) := by
  intro w₁
  have hw₁ := memsrouteSet_walk env cmd₁ h₁
  have hw₂ := memsrouteSet_walk env cmd₂ ((selectedRoute_congr hw₁.wiring).trans h₂)
  refine ⟨hw₂.wiring.trans hw₁.wiring, ?_⟩
  rw [hw₂.states, walkWrites_congr hw₁.wiring, hw₁.states]

theorem memsrouteSet_comm (h₁ : selectedRoute env cmd₁ w.router = some route₁)
    (h₂ : selectedRoute env cmd₂ w.router = some route₂)
    (hd : DisjointSwitches w route₁ route₂) :
    (memsrouteSet env cmd₂ (memsrouteSet env cmd₁ w).post).post.switches =
        (memsrouteSet env cmd₁ (memsrouteSet env cmd₂ w).post).post.switches ∧
      (memsrouteSet env cmd₂ (memsrouteSet env cmd₁ w).post).post.router =
        (memsrouteSet env cmd₁ (memsrouteSet env cmd₂ w).post).post.router := by
  obtain ⟨hwire, hst⟩ := memsrouteSet_twice h₁ h₂
  obtain ⟨hwire', hst'⟩ := memsrouteSet_twice h₂ h₁
  have hdis : ∀ p ∈ writtenKeys (walkWrites w route₁.steps),
      p ∉ writtenKeys (walkWrites w route₂.steps) := by
    intro p hp hp'
    obtain ⟨s₁, hs₁, hf₁⟩ := findSwitch_of_written hp
    obtain ⟨s₂, hs₂, hf₂⟩ := findSwitch_of_written hp'
    exact hd s₁ hs₁ s₂ hs₂ p hf₁ hf₂
  have heq := hwire.trans hwire'.symm
  refine ⟨funext fun p => switch_ext heq ?_, congrArg Prod.fst heq⟩
  rw [hst, hst', writes_comm hdis]

/-- In the installed table, the steps of the two bands name switches of different parity. -/
theorem installedRouter_bands : ∀ route ∈ installedRouter.routes, ∀ step ∈ route.steps,
    ∀ p ∈ memsRouterFindSwitch installedSwitch installedRouter step.switchName,
      (str "yj" <+: route.key.inputName → p % 2 = 0) ∧
        (str "hk" <+: route.key.inputName → p % 2 = 1) := by
  decide

theorem setup_bands (env : Env) {yj hk : MemsRoute}
    (hyj : yj ∈ (setupMemsSwitchesAndRoutes env .boot).post.router.routes)
    (hhk : hk ∈ (setupMemsSwitchesAndRoutes env .boot).post.router.routes)
    (hy : str "yj" <+: yj.key.inputName) (hh : str "hk" <+: hk.key.inputName) :
    DisjointSwitches (setupMemsSwitchesAndRoutes env .boot).post yj hk := by
  rcases setup_tables env with ⟨hr, hfind⟩ | hnone
  · rw [hr] at hyj hhk
    intro s₁ h₁ s₂ h₂ p hp hp'
    rw [hfind] at hp hp'
    have heven := (installedRouter_bands yj hyj s₁ h₁ p hp).1 hy
    have hodd := (installedRouter_bands hk hhk s₂ h₂ p hp').2 hh
    exact absurd (heven.symm.trans hodd) (by decide)
  · rw [hnone] at hyj
    cases hyj

/-- **Independent routes do not interfere.** Requests for two routes that name disjoint sets of
switches lead, in either order, to the same switches and the same report, and neither changes
whether the other route is active. After setup and any run of switch commands, every route of the
band `yj` and every route of the band `hk` are such routes. -/
theorem memsrouteSet_independent (env : Env) :
    (∀ (w : World) (cmd₁ cmd₂ : Command) (route₁ route₂ : MemsRoute),
      selectedRoute env cmd₁ w.router = some route₁ →
      selectedRoute env cmd₂ w.router = some route₂ →
      DisjointSwitches w route₁ route₂ →
        let w₁ := (memsrouteSet env cmd₁ w).post
        let w₂ := (memsrouteSet env cmd₂ w).post
        let w₁₂ := (memsrouteSet env cmd₂ w₁).post
        let w₂₁ := (memsrouteSet env cmd₁ w₂).post
        w₁₂.switches = w₂₁.switches ∧
          (∀ outKeys maxKeys, memsRouterActiveRoutes w₁₂.switches w₁₂.router outKeys maxKeys =
            memsRouterActiveRoutes w₂₁.switches w₂₁.router outKeys maxKeys) ∧
          routeMatches w₁.switches w₁.router route₂ = routeMatches w.switches w.router route₂ ∧
          routeMatches w₂.switches w₂.router route₁ = routeMatches w.switches w.router route₁) ∧
    ∀ history : List SwitchCommand,
      let w := (runCommands env history (setupMemsSwitchesAndRoutes env .boot).post).post
      ∀ yj ∈ w.router.routes, ∀ hk ∈ w.router.routes, str "yj" <+: yj.key.inputName →
        str "hk" <+: hk.key.inputName → DisjointSwitches w yj hk := by
  constructor
  · intro w cmd₁ cmd₂ route₁ route₂ h₁ h₂ hd
    obtain ⟨hsw, hr⟩ := memsrouteSet_comm h₁ h₂ hd
    refine ⟨hsw, fun _ _ => by rw [hsw, hr], ?_, ?_⟩
    · exact (memsrouteSet_walk env cmd₁ h₁).keeps_status hd
    · exact (memsrouteSet_walk env cmd₂ h₂).keeps_status hd.symm
  · intro history w yj hyj hk hhk hy hh
    have hwire := runCommands_wiring env history (setupMemsSwitchesAndRoutes env .boot).post
    have hr : w.router = (setupMemsSwitchesAndRoutes env .boot).post.router :=
      congrArg Prod.fst hwire
    rw [hr] at hyj hhk
    exact (setup_bands env hyj hhk hy hh).congr hwire

def yjRequest : Command := .setOf (str "memsroute")
  (str "\x7b\"msg_type\":\"set\",\"input\":\"yj_mm\",\"output\":\"yj_pd\"\x7d")

def hkRequest : Command := .setOf (str "memsroute")
  (str "\x7b\"msg_type\":\"set\",\"input\":\"hk_mm\",\"output\":\"hk_pd\"\x7d")

/-- A parser that decodes these two requests. -/
def bandsEnv : Env := { quietEnv with
  jsonObjParse := refuseEmpty fun _ text _ =>
    if text = yjRequest.payload.cstr then
      ⟨3, text, [some (.chars (str "yj_mm" ++ [0])), some (.chars (str "yj_pd" ++ [0]))]⟩
    else ⟨3, text, [some (.chars (str "hk_mm" ++ [0])), some (.chars (str "hk_pd" ++ [0]))]⟩ }

/-- After setup, a route of each band: the order does not matter. -/
theorem bands_independent :
    let w := (setupMemsSwitchesAndRoutes bandsEnv .boot).post
    (memsrouteSet bandsEnv hkRequest (memsrouteSet bandsEnv yjRequest w).post).post.switches =
      (memsrouteSet bandsEnv yjRequest (memsrouteSet bandsEnv hkRequest w).post).post.switches := by
  intro w
  have hr : w.router = installedRouter := by
    change (setupMemsSwitchesAndRoutes bandsEnv .boot).post.router = _
    rw [setup_run]
    rfl
  obtain ⟨yj, hyj, hy⟩ : ∃ yj, selectedRoute bandsEnv yjRequest installedRouter = some yj ∧
      str "yj" <+: yj.key.inputName := by decide
  obtain ⟨hk, hhk, hh⟩ : ∃ hk, selectedRoute bandsEnv hkRequest installedRouter = some hk ∧
      str "hk" <+: hk.key.inputName := by decide
  have hd : DisjointSwitches w yj hk :=
    setup_bands bandsEnv (hr ▸ mem_of_selectedRoute _ _ hyj) (hr ▸ mem_of_selectedRoute _ _ hhk) hy hh
  have hindep := (memsrouteSet_independent bandsEnv).1 w yjRequest hkRequest yj hk
  exact (hindep (hr ▸ hyj) (hr ▸ hhk) hd).1

end Independence

/-! ## Requests that fail -/

section Failure

/-- The step names no switch of the router, or demands a state other than the two sides. -/
def FailingStep (w : World) (step : MemsRouteStep) : Prop :=
  w.findSwitch step.switchName = none ∨ (step.state ≠ chr 'A' ∧ step.state ≠ chr 'B')

theorem failingStep_iff {w : World} {step : MemsRouteStep} :
    FailingStep w step ↔ stepWrite w step = none := by
  unfold FailingStep stepWrite MemsSwitch.pinFor
  cases w.findSwitch step.switchName with
  | none => simp
  | some p =>
    by_cases ha : step.state = chr 'A'
    · simp [ha]
    · by_cases hb : step.state = chr 'B'
      · have hba : chr 'B' ≠ chr 'A' := by decide
        simp [hb, hba]
      · simp [ha, hb]

variable (env : Env) (cmd : Command) (w : World)

/-- If the reply is an error, no pin was driven, and every switch is as before. -/
def AllOrNothing : Prop :=
  (memsrouteSet env cmd w).val.msgType = .respError →
    (memsrouteSet env cmd w).post.trace = w.trace ∧
      (memsrouteSet env cmd w).post.switches = w.switches

variable {env cmd w} {route : MemsRoute}

/-- A walk whose first step fails does nothing; any other walk pulses a switch. -/
theorem Walk.trace_eq_iff {r : Run World OutMsg} (h : Walk env w route r) :
    r.post.trace = w.trace ↔ ∃ step, route.steps.head? = some step ∧ FailingStep w step := by
  obtain ⟨step, rest, hsteps⟩ := List.exists_cons_of_length_pos route.steps_pos
  simp only [h.trace, List.append_right_eq_self, hsteps, List.head?_cons, Option.some.injEq,
    exists_eq_left', failingStep_iff, ← stepPin_eq_none, walkPins]
  cases stepPin w step with
  | none => simp [pulsesEvents]
  | some pin => simp [pulsesEvents, pulseEvents]

theorem Walk.switches_eq {r : Run World OutMsg} (h : Walk env w route r) {step : MemsRouteStep}
    (hhead : route.steps.head? = some step) (hf : FailingStep w step) :
    r.post.switches = w.switches := by
  obtain ⟨rest, hsteps⟩ := List.head?_eq_some_iff.mp hhead
  have hnone : walkWrites w route.steps = [] := by
    rw [hsteps]
    simp only [walkWrites, failingStep_iff.mp hf]
  exact funext fun p => switch_ext h.wiring (by rw [h.states, hnone, writes_nil])

/-- **All or nothing, or not.** An error reply means that nothing was done exactly when the route,
if it has a failing step, fails at its first one. -/
theorem allOrNothing_iff :
    AllOrNothing env cmd w ↔ ∀ route, selectedRoute env cmd w.router = some route →
      (∃ step ∈ route.steps, FailingStep w step) →
        ∃ step, route.steps.head? = some step ∧ FailingStep w step := by
  unfold AllOrNothing
  cases hsel : selectedRoute env cmd w.router with
  | none =>
    obtain ⟨-, hpost⟩ := memsrouteSet_unselected env cmd hsel
    simp [hpost]
  | some route =>
    have hwalk := memsrouteSet_walk env cmd hsel
    simp only [hwalk.error, hwalk.trace_eq_iff, failingStep_iff, Option.some.injEq,
      forall_eq']
    refine forall_congr' fun _ => and_iff_left_of_imp ?_
    rintro ⟨step, hhead, hx⟩
    exact hwalk.switches_eq hhead (failingStep_iff.mpr hx)

/-- A router whose only route names a switch that does not exist, in its second step. -/
def misspeltRouter : MemsRouter :=
  (memsRouterDefineRoute (memsRouterInit memsSwitchPtrs) (str "yj_1430") (str "yj_ao")
    (some [⟨str "yj_cal_laser", chr 'B'⟩, ⟨str "yj_forward", chr 'A'⟩])).2

def misspeltWorld : World :=
  { World.boot with router := misspeltRouter, switches := installedSwitch }

/-- The first switch of the misspelt route is pulsed, and the reply is an error. -/
theorem misspelt_half_switched : ¬ AllOrNothing quietEnv routeRequest misspeltWorld := by
  intro h
  obtain ⟨htrace, -⟩ := h (by decide)
  exact absurd htrace (by decide)

end Failure

end Tib
