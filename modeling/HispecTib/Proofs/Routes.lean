import HispecTib.Base.Writes
import HispecTib.Proofs.Switches

/-!
# Selecting a route

`memsroute_set` walks the steps of a route and `mems_router_active_routes` walks all routes; both
resolve switches by name.

* `routeLoop_walk`: the loop sets the switches of the steps before the first one that fails.
* `routeLoop_run`: when every step resolves, the loop sets each named switch and no other.
* `activeRoutes_eq`: the report lists the routes whose steps all match, while the array has room.
* `memsrouteSet_selects`: after any run of switch commands, a route that is found is selected, and
  then it is listed.
-/

open CLib

namespace Tib

/-! ## Any walk -/

section Walk

variable (env : Env) (cmd : Command)

/-- The recorded states. -/
def World.states (w : World) : SwitchPtr → Byte := fun p => (w.switches p).state

/-- The write of a step that can be carried out: the switch that it names gets the demanded state.
A step without a write names no switch of the router, or demands a state without a pin. -/
def stepWrite (w : World) (step : MemsRouteStep) : Option (SwitchPtr × Byte) :=
  (w.findSwitch step.switchName).bind fun p =>
    ((w.switches p).pinFor step.state).map fun _ => (p, step.state)

/-- The writes of a walk: those of the steps before the first one without a write. -/
def walkWrites (w : World) : List MemsRouteStep → List (SwitchPtr × Byte)
  | [] => []
  | step :: steps =>
    match stepWrite w step with
    | none => []
    | some x => x :: walkWrites w steps

variable {w w' : World}

theorem stepWrite_congr (h : w'.wiring = w.wiring) (step : MemsRouteStep) :
    stepWrite w' step = stepWrite w step := by
  simp only [stepWrite, findSwitch_congr h, pinFor_congr h]

theorem walkWrites_congr (h : w'.wiring = w.wiring) (steps : List MemsRouteStep) :
    walkWrites w' steps = walkWrites w steps := by
  induction steps with
  | nil => rfl
  | cons step steps ih => simp only [walkWrites, stepWrite_congr h, ih]

/-- The wiring and the state are all that there is to a switch. -/
theorem switch_ext {p : SwitchPtr} (hwire : w'.wiring = w.wiring)
    (hst : w'.states p = w.states p) : w'.switches p = w.switches p := by
  have hp : { w'.switches p with state := 0 } = { w.switches p with state := 0 } :=
    congrFun (congrArg Prod.snd hwire) p
  have hs : (w'.switches p).state = (w.switches p).state := hst
  cases hsw' : w'.switches p
  cases hsw : w.switches p
  simp only [hsw', hsw, MemsSwitch.mk.injEq] at hp hs ⊢
  exact ⟨hp.1, hp.2.1, hp.2.2.1, hs, hp.2.2.2.2⟩

theorem stepWrite_eq_some {step : MemsRouteStep} {x : SwitchPtr × Byte}
    (h : stepWrite w step = some x) :
    w.findSwitch step.switchName = some x.1 ∧ step.state = x.2 ∧
      ∃ pin, (w.switches x.1).pinFor step.state = some pin := by
  obtain ⟨p, hf, hp⟩ := Option.bind_eq_some_iff.mp h
  obtain ⟨pin, hpin, rfl⟩ := Option.map_eq_some_iff.mp hp
  exact ⟨hf, rfl, pin, hpin⟩

theorem mem_walkWrites {steps : List MemsRouteStep} {x : SwitchPtr × Byte}
    (h : x ∈ walkWrites w steps) : ∃ step ∈ steps, stepWrite w step = some x := by
  induction steps with
  | nil => cases h
  | cons step steps ih =>
    unfold walkWrites at h
    split at h
    · cases h
    · rename_i y hy
      rcases List.mem_cons.mp h with rfl | h
      · exact ⟨step, List.mem_cons_self, hy⟩
      · obtain ⟨s, hs, hx⟩ := ih h
        exact ⟨s, List.mem_cons_of_mem _ hs, hx⟩

/-- When every step has a write, none is left out. -/
theorem walkWrites_all {steps : List MemsRouteStep}
    (h : ∀ step ∈ steps, stepWrite w step ≠ none) {step : MemsRouteStep} (hmem : step ∈ steps) :
    ∃ x ∈ walkWrites w steps, stepWrite w step = some x := by
  induction steps with
  | nil => cases hmem
  | cons s steps ih =>
    obtain ⟨hs, hrest⟩ := List.forall_mem_cons.mp h
    obtain ⟨x, hx⟩ := Option.ne_none_iff_exists'.mp hs
    simp only [walkWrites, hx]
    rcases List.mem_cons.mp hmem with rfl | hmem
    · exact ⟨x, List.mem_cons_self, hx⟩
    · obtain ⟨y, hy, hsy⟩ := ih hrest hmem
      exact ⟨y, List.mem_cons_of_mem _ hy, hsy⟩

/-- A step with a write: no reply, one pulse, one record. -/
theorem memsrouteStep_some {step : MemsRouteStep} {x : SwitchPtr × Byte}
    (h : stepWrite w step = some x) :
    (memsrouteStep env cmd step w).val = none ∧
      (memsrouteStep env cmd step w).post = (memsSwitchSetState env x.1 x.2 w).post := by
  obtain ⟨hf, hs, pin, hpin⟩ := stepWrite_eq_some h
  have hval : (memsSwitchSetState env x.1 step.state w).val = 0 := by
    rw [memsSwitchSetState_run env hpin]
  simp [memsrouteStep, memsRouterFindSwitch_eq, hf, hval, ← hs]

/-- A step without a write: a reply, and nothing is done. -/
theorem memsrouteStep_none {step : MemsRouteStep} (h : stepWrite w step = none) :
    (∃ om, (memsrouteStep env cmd step w).val = some om) ∧
      (memsrouteStep env cmd step w).post = w := by
  unfold memsrouteStep
  cases hf : w.findSwitch step.switchName with
  | none =>
    simp only [Prog.bind_run, Prog.get_run, memsRouterFindSwitch_eq, hf, Prog.pure_run]
    exact ⟨⟨_, rfl⟩, trivial⟩
  | some p =>
    have hpin : (w.switches p).pinFor step.state = none := by simpa [stepWrite, hf] using h
    have hrc : (-1 : Int) ≠ 0 := by decide
    simp only [Prog.bind_run, Prog.get_run, memsRouterFindSwitch_eq, hf,
      memsSwitchSetState_none env hpin, Prog.ite_run, if_pos hrc, Prog.pure_run]
    exact ⟨⟨_, rfl⟩, trivial⟩

theorem memsSwitchSetState_states {x : SwitchPtr × Byte} {pin : GpioPin}
    (h : (w.switches x.1).pinFor x.2 = some pin) :
    (memsSwitchSetState env x.1 x.2 w).post.states = Function.update w.states x.1 x.2 := by
  funext p
  rw [World.states, memsSwitchSetState_switches env h]
  by_cases hp : p = x.1
  · subst hp
    simp
  · simp [Function.update_of_ne hp, World.states]

/-- **Any walk.** It makes the writes of the steps before the first one without a write, and ends
with an error exactly when there is such a step. -/
theorem routeLoop_walk (steps : List MemsRouteStep) (w : World) :
    let r := Prog.firstSome (memsrouteStep env cmd) steps w
    r.post.wiring = w.wiring ∧ r.post.states = writes (walkWrites w steps) w.states ∧
      (r.val = none ↔ ∀ step ∈ steps, stepWrite w step ≠ none) := by
  induction steps generalizing w with
  | nil => exact ⟨rfl, rfl, by simp [Prog.firstSome]⟩
  | cons step steps ih =>
    cases hx : stepWrite w step with
    | none =>
      obtain ⟨⟨om, hval⟩, hpost⟩ := memsrouteStep_none env cmd hx
      simp only [Prog.firstSome, Prog.bind_run, hval, Prog.pure_run, hpost, walkWrites, hx]
      exact ⟨trivial, rfl, by simp [hx]⟩
    | some x =>
      obtain ⟨hval, hpost⟩ := memsrouteStep_some env cmd hx
      obtain ⟨-, hs, pin, hpin⟩ := stepWrite_eq_some hx
      have hwire := memsSwitchSetState_wiring env x.1 x.2 w
      have hst := memsSwitchSetState_states env (hs ▸ hpin)
      obtain ⟨hv, hp⟩ := Prog.firstSome_cons_none w hval steps
      obtain ⟨hwire', hst', hnone⟩ := ih (memsrouteStep env cmd step w).post
      rw [hpost] at hwire' hst' hnone
      dsimp only
      rw [hv, hp]
      refine ⟨hpost ▸ hwire'.trans hwire, ?_, ?_⟩
      · rw [hpost, hst', walkWrites_congr hwire, hst]
        simp only [walkWrites, hx]
        rfl
      · rw [hpost, hnone]
        simp only [stepWrite_congr hwire, List.forall_mem_cons, hx]
        simp

/-- A step that ends the walk replies with RESP_ERROR. -/
theorem memsrouteStep_respError (step : MemsRouteStep) :
    Yields (memsrouteStep env cmd step) fun r => ∀ om ∈ r, om.msgType = .respError := by
  unfold memsrouteStep
  refine Yields.bind fun w => ?_
  split
  · exact Yields.pure (by simp [errorReply, msgBuilder])
  · refine Yields.bind fun rc => Yields.ite (fun _ => ?_) fun _ => Yields.pure nofun
    exact Yields.pure (by simp [msgBuilder])

theorem routeLoop_respError (steps : List MemsRouteStep) :
    Yields (Prog.firstSome (memsrouteStep env cmd) steps) fun r =>
      ∀ om ∈ r, om.msgType = .respError :=
  Yields.firstSome fun step _ => memsrouteStep_respError env cmd step

end Walk

/-! ## The loop over the steps -/

section Loop

variable (env : Env) (cmd : Command)

/-- Every step names a switch of the router and demands a state that has a pin. -/
def Resolves (w : World) (steps : List MemsRouteStep) : Prop :=
  ∀ step ∈ steps, ∃ p pin, w.findSwitch step.switchName = some p ∧
    (w.switches p).pinFor step.state = some pin

theorem Resolves.stepWrite_ne {w : World} {steps : List MemsRouteStep} (hr : Resolves w steps) :
    ∀ step ∈ steps, stepWrite w step ≠ none := by
  intro step hstep
  obtain ⟨p, pin, hf, hp⟩ := hr step hstep
  simp [stepWrite, hf, hp]

/-- What a walk over `steps` from `w` does to the switches. -/
structure Applied (w w' : World) (steps : List MemsRouteStep) : Prop where
  wiring : w'.wiring = w.wiring
  unnamed : ∀ p, (∀ step ∈ steps, w.findSwitch step.switchName ≠ some p) →
    w'.switches p = w.switches p
  named : ∀ p state, (∃ step ∈ steps, w.findSwitch step.switchName = some p) →
    (∀ step ∈ steps, w.findSwitch step.switchName = some p → step.state = state) →
    (w'.switches p).state = state

/-- The walk visits every step; a switch ends in the state of the last step that names it. -/
theorem routeLoop_run (steps : List MemsRouteStep) {w : World} (hr : Resolves w steps) :
    (Prog.firstSome (memsrouteStep env cmd) steps w).val = none ∧
      Applied w (Prog.firstSome (memsrouteStep env cmd) steps w).post steps := by
  obtain ⟨hwire, hst, hval⟩ := routeLoop_walk env cmd steps w
  refine ⟨hval.mpr hr.stepWrite_ne, hwire, fun p hp => ?_, fun p state hex hall => ?_⟩
  · refine switch_ext hwire ((congrFun hst p).trans (writes_of_notMem ?_ _))
    intro hmem
    obtain ⟨x, hx, rfl⟩ := List.mem_map.mp hmem
    obtain ⟨step, hstep, hw⟩ := mem_walkWrites hx
    exact hp step hstep (stepWrite_eq_some hw).1
  · refine (congrFun hst p).trans (writes_of_const ?_ ?_ _)
    · obtain ⟨step, hstep, hf⟩ := hex
      obtain ⟨x, hx, hw⟩ := walkWrites_all hr.stepWrite_ne hstep
      have hp : x.1 = p := Option.some.inj ((stepWrite_eq_some hw).1.symm.trans hf)
      exact List.mem_map.mpr ⟨x, hx, hp⟩
    · rintro x hx rfl
      obtain ⟨step, hstep, hw⟩ := mem_walkWrites hx
      obtain ⟨hf, hs, -⟩ := stepWrite_eq_some hw
      exact hs ▸ hall step hstep hf

end Loop

/-! ## The report -/

section Report

variable {mem : SwitchPtr → MemsSwitch} {router : MemsRouter} {maxKeys : Nat}

/-- The keys of the routes that match, in the order of the table. -/
def matchingKeys (mem : SwitchPtr → MemsSwitch) (router : MemsRouter) (routes : List MemsRoute) :
    List MemsRouteKey :=
  (routes.filter (routeMatches mem router)).map (·.key)

/-- The keys written so far, and one more. -/
theorem map_range_update {α : Type} (f : Nat → α) (n : Nat) (a : α) :
    (List.range (n + 1)).map (Function.update f n a) = (List.range n).map f ++ [a] := by
  rw [List.range_succ, List.map_append, List.map_singleton, Function.update_self]
  congr 1
  refine List.map_congr_left fun i hi => ?_
  exact Function.update_of_ne (List.mem_range.mp hi).ne _ _

/-- The loop keeps the keys already written, and adds those of the routes that match, as many as
there is room for. -/
theorem activeRoutesLoop_eq (routes : List MemsRoute) (nFound : Nat)
    (outKeys : Nat → MemsRouteKey) :
    (List.range (activeRoutesLoop mem router maxKeys routes nFound outKeys).1).map
        (activeRoutesLoop mem router maxKeys routes nFound outKeys).2 =
      (List.range nFound).map outKeys ++
        (matchingKeys mem router routes).take (maxKeys - nFound) := by
  induction routes generalizing nFound outKeys with
  | nil => simp [activeRoutesLoop, matchingKeys]
  | cons r routes ih =>
    unfold activeRoutesLoop
    split
    · rename_i hlt
      obtain ⟨k, hk⟩ : ∃ k, maxKeys - nFound = k + 1 := ⟨maxKeys - nFound - 1, by omega⟩
      split
      · rename_i hm
        have hkeys : matchingKeys mem router (r :: routes) =
            r.key :: matchingKeys mem router routes := by simp [matchingKeys, hm]
        rw [ih, map_range_update, hkeys, hk, List.take_succ_cons, List.append_assoc,
          show maxKeys - (nFound + 1) = k by omega, List.singleton_append]
      · rename_i hm
        have hkeys : matchingKeys mem router (r :: routes) = matchingKeys mem router routes := by
          simp [matchingKeys, hm]
        rw [ih, hkeys]
    · rename_i hfull
      rw [show maxKeys - nFound = 0 by omega, List.take_zero, List.append_nil]

/-- **The report.** The keys of the routes that match, as many as there is room for. -/
theorem activeRoutes_eq (mem : SwitchPtr → MemsSwitch) (router : MemsRouter)
    (outKeys : Nat → MemsRouteKey) (maxKeys : Nat) :
    (List.range (memsRouterActiveRoutes mem router outKeys maxKeys).1).map
        (memsRouterActiveRoutes mem router outKeys maxKeys).2 =
      (matchingKeys mem router router.routes).take maxKeys :=
  activeRoutesLoop_eq router.routes 0 outKeys

/-- With room for every route, all keys are written. -/
theorem activeRoutes_all (hroom : router.routes.length ≤ maxKeys) (outKeys : Nat → MemsRouteKey) :
    (List.range (memsRouterActiveRoutes mem router outKeys maxKeys).1).map
        (memsRouterActiveRoutes mem router outKeys maxKeys).2 =
      matchingKeys mem router router.routes := by
  rw [activeRoutes_eq]
  refine List.take_of_length_le (le_trans ?_ hroom)
  rw [matchingKeys, List.length_map]
  exact List.length_filter_le _ _

theorem activeRoutes_lists {route : MemsRoute} (hmem : route ∈ router.routes)
    (hmatch : routeMatches mem router route = true) (hroom : router.routes.length ≤ maxKeys)
    (outKeys : Nat → MemsRouteKey) :
    ∃ i < (memsRouterActiveRoutes mem router outKeys maxKeys).1,
      (memsRouterActiveRoutes mem router outKeys maxKeys).2 i = route.key := by
  have hkey : route.key ∈ matchingKeys mem router router.routes :=
    List.mem_map.mpr ⟨route, List.mem_filter.mpr ⟨hmem, hmatch⟩, rfl⟩
  rw [← activeRoutes_all hroom outKeys] at hkey
  obtain ⟨i, hi, hik⟩ := List.mem_map.mp hkey
  exact ⟨i, List.mem_range.mp hi, hik⟩

end Report

/-! ## Selection and report -/

section Selection

variable {env : Env} {cmd : Command}

/-- Every step of every route names a switch of the router and demands a side, and no route demands
two sides of one switch. -/
structure RoutesOk (w : World) : Prop where
  named : ∀ route ∈ w.router.routes, ∀ step ∈ route.steps, w.findSwitch step.switchName ≠ none
  sides : ∀ route ∈ w.router.routes, ∀ step ∈ route.steps,
    step.state = chr 'A' ∨ step.state = chr 'B'
  consistent : ∀ route ∈ w.router.routes, ∀ step ∈ route.steps, ∀ step' ∈ route.steps,
    w.findSwitch step.switchName = w.findSwitch step'.switchName → step.state = step'.state

theorem RoutesOk.congr {w w' : World} (h : w'.wiring = w.wiring) (hok : RoutesOk w) :
    RoutesOk w' := by
  have hr : w'.router = w.router := congrArg Prod.fst h
  have hf := findSwitch_congr h
  constructor <;> simp only [hr, hf]
  · exact hok.named
  · exact hok.sides
  · exact hok.consistent

/-- A side has a pin. -/
theorem pinFor_side (s : MemsSwitch) {state : Byte} (h : state = chr 'A' ∨ state = chr 'B') :
    ∃ pin, s.pinFor state = some pin := by
  unfold MemsSwitch.pinFor
  rcases h with rfl | rfl
  · exact ⟨_, rfl⟩
  · exact ⟨_, rfl⟩

theorem RoutesOk.resolves {w : World} {route : MemsRoute} (hok : RoutesOk w)
    (hroute : route ∈ w.router.routes) : Resolves w route.steps := by
  intro step hstep
  obtain ⟨p, hp⟩ := Option.ne_none_iff_exists'.mp (hok.named route hroute step hstep)
  obtain ⟨pin, hpin⟩ := pinFor_side (w.switches p) (hok.sides route hroute step hstep)
  exact ⟨p, pin, hp, hpin⟩

/-- `memsroute_set` decodes the two strings: each fits in its array with its NUL. -/
structure Delivers (env : Env) (cmd : Command) (input output : List Byte) : Prop where
  accepted : 0 ≤ (parsePayload env cmd routeDescr).rc
  input_eq : (parsePayload env cmd routeDescr).routeId.input.cstr = input
  output_eq : (parsePayload env cmd routeDescr).routeId.output.cstr = output
  input_fits : input.length < memsSourcedestMaxLen
  output_fits : output.length < memsSourcedestMaxLen

/-- The test of the lookups sees two strings, and one that fits is compared whole. -/
theorem sameName_congr {a b b' : List Byte} (h : cstr b = cstr b') :
    sameName a b = sameName a b' := by
  simp only [sameName, strncmp_eq_zero, h]

theorem cstr_of_sameName {a b : List Byte} (h : sameName a b = true)
    (hb : (cstr b).length < memsSwitchNameLen) : cstr a = cstr b := by
  have htake := (strncmp_eq_zero a b memsSwitchNameLen).mp (of_decide_eq_true h)
  exact ((take_eq_take_iff hb).mp htake.symm).symm

theorem Delivers.getRoute {input output : List Byte} (h : Delivers env cmd input output)
    (router : MemsRouter) :
    memsRouterGetRoute router (parsePayload env cmd routeDescr).routeId.input.data
        (parsePayload env cmd routeDescr).routeId.output.data =
      memsRouterGetRoute router input output := by
  have hi : cstr (parsePayload env cmd routeDescr).routeId.input.data = cstr input := by
    rw [← h.input_eq, Buf.cstr, cstr_cstr]
  have ho : cstr (parsePayload env cmd routeDescr).routeId.output.data = cstr output := by
    rw [← h.output_eq, Buf.cstr, cstr_cstr]
  simp only [memsRouterGetRoute, fun a => sameName_congr (a := a) hi,
    fun a => sameName_congr (a := a) ho]

/-- The run of `memsroute_set` on a route that is found and whose steps resolve. -/
theorem memsrouteSet_run {w : World} {input output : List Byte} {route : MemsRoute}
    (hd : Delivers env cmd input output)
    (hroute : memsRouterGetRoute w.router input output = some route)
    (hr : Resolves w route.steps) :
    (memsrouteSet env cmd w).val = msgBuilder cmd .respOk okText ∧
      Applied w (memsrouteSet env cmd w).post route.steps := by
  obtain ⟨hval, happ⟩ := routeLoop_run env cmd route.steps hr
  have hrc : ¬ (parsePayload env cmd routeDescr).rc < 0 := not_lt.mpr hd.accepted
  simp only [memsrouteSet, if_neg hrc, Prog.bind_run, Prog.get_run, hd.getRoute, hroute, hval]
  exact ⟨rfl, happ⟩

/-- After the walk, every step of the route finds its switch in the demanded state. -/
theorem Applied.matches {w w' : World} {route : MemsRoute} (h : Applied w w' route.steps)
    (hok : RoutesOk w) (hroute : route ∈ w.router.routes) :
    routeMatches w'.switches w'.router route = true := by
  refine List.all_eq_true.mpr fun step hstep => ?_
  obtain ⟨p, hp⟩ := Option.ne_none_iff_exists'.mp (hok.named route hroute step hstep)
  have hp' : memsRouterFindSwitch w'.switches w'.router step.switchName = some p :=
    (findSwitch_congr h.wiring _).trans hp
  have hstate := h.named p step.state ⟨step, hstep, hp⟩ fun step' hstep' hp'' =>
    hok.consistent route hroute step' hstep' step hstep (hp''.trans hp.symm)
  simp only [hp', hstate, decide_true]

/-- **Route selection takes effect.** From a state reached by any run of switch commands, setting a
route that is found is acknowledged, puts every switch the route names into the demanded state,
changes no other switch, and makes the report list the route. -/
theorem memsrouteSet_selects {w₀ : World} (hok : RoutesOk w₀) (history : List SwitchCommand)
    {input output : List Byte} {route : MemsRoute} (hd : Delivers env cmd input output)
    (hroute : memsRouterGetRoute (runCommands env history w₀).post.router input output =
      some route) :
    let w := (runCommands env history w₀).post
    let w' := (memsrouteSet env cmd w).post
    (memsrouteSet env cmd w).val = msgBuilder cmd .respOk okText ∧
      (∀ step ∈ route.steps, ∃ p, w.findSwitch step.switchName = some p ∧
        (w'.switches p).state = step.state) ∧
      (∀ p, (∀ step ∈ route.steps, w.findSwitch step.switchName ≠ some p) →
        w'.switches p = w.switches p) ∧
      ∀ outKeys maxKeys, w'.router.routes.length ≤ maxKeys →
        ∃ i < (memsRouterActiveRoutes w'.switches w'.router outKeys maxKeys).1,
          let key := (memsRouterActiveRoutes w'.switches w'.router outKeys maxKeys).2 i
          cstr key.inputName = input ∧ cstr key.outputName = output := by
  intro w w'
  have hok' : RoutesOk w := hok.congr (runCommands_wiring env history w₀)
  have hmem : route ∈ w.router.routes := List.mem_of_find?_eq_some hroute
  obtain ⟨hval, happ⟩ := memsrouteSet_run hd hroute (hok'.resolves hmem)
  refine ⟨hval, fun step hstep => ?_, happ.unnamed, fun outKeys maxKeys hroom => ?_⟩
  · obtain ⟨p, hp⟩ := Option.ne_none_iff_exists'.mp (hok'.named route hmem step hstep)
    refine ⟨p, hp, happ.named p step.state ⟨step, hstep, hp⟩ fun step' hstep' hp' => ?_⟩
    exact hok'.consistent route hmem step' hstep' step hstep (hp'.trans hp.symm)
  · have hr : w'.router = w.router := congrArg Prod.fst happ.wiring
    obtain ⟨i, hi, hkey⟩ := activeRoutes_lists (hr ▸ hmem) (happ.matches hok' hmem) hroom outKeys
    have hnames : sameName route.key.inputName input = true ∧
        sameName route.key.outputName output = true := by
      simpa using List.find?_some hroute
    have hin : cstr input = input := by rw [← hd.input_eq, Buf.cstr, cstr_cstr]
    have hout : cstr output = output := by rw [← hd.output_eq, Buf.cstr, cstr_cstr]
    refine ⟨i, hi, ?_⟩
    dsimp only
    rw [hkey]
    constructor
    · rw [cstr_of_sameName hnames.1 (hin.symm ▸ hd.input_fits), hin]
    · rw [cstr_of_sameName hnames.2 (hout.symm ▸ hd.output_fits), hout]

/-- Setup installs the table, with a search that finds the installed switches, or no route. -/
theorem setup_tables (env : Env) :
    ((setupMemsSwitchesAndRoutes env .boot).post.router = installedRouter ∧
      ∀ name, (setupMemsSwitchesAndRoutes env .boot).post.findSwitch name =
        memsRouterFindSwitch installedSwitch installedRouter name) ∨
    (setupMemsSwitchesAndRoutes env .boot).post.router.routes = [] := by
  rcases setup_installs env .boot with ⟨hr, hsw⟩ | ⟨hr, -⟩
  · refine Or.inl ⟨hr, fun name => ?_⟩
    rw [World.findSwitch, hr]
    exact findSwitch_of_switches hsw
  · exact Or.inr (by rw [hr]; rfl)

/-- The installed table is one of those that `memsrouteSet_selects` is about. -/
theorem setup_routesOk (env : Env) :
    RoutesOk (setupMemsSwitchesAndRoutes env .boot).post := by
  rcases setup_tables env with ⟨hr, hfind⟩ | hnone
  · constructor <;> simp only [hr, hfind] <;> decide
  · constructor <;> simp [hnone]

/-- After setup and one route command, the first route of the table is selected. -/
theorem yj_ao_selected :
    ∃ route w, w = (runCommands quietEnv [.memsroute routeRequest]
        (setupMemsSwitchesAndRoutes quietEnv .boot).post).post ∧
      memsRouterGetRoute w.router (str "yj_1430") (str "yj_ao") = some route ∧
      (memsrouteSet quietEnv routeRequest w).val = msgBuilder routeRequest .respOk okText := by
  have hroute : ∃ route,
      memsRouterGetRoute installedRouter (str "yj_1430") (str "yj_ao") = some route :=
    Option.ne_none_iff_exists'.mp (by decide)
  obtain ⟨route, hroute⟩ := hroute
  have hr : (runCommands quietEnv [.memsroute routeRequest]
      (setupMemsSwitchesAndRoutes quietEnv .boot).post).post.router = installedRouter := by
    have hw := congrArg Prod.fst (runCommands_wiring quietEnv [.memsroute routeRequest]
      (setupMemsSwitchesAndRoutes quietEnv .boot).post)
    refine hw.trans ?_
    change (setupMemsSwitchesAndRoutes quietEnv .boot).post.router = _
    rw [setup_run]
    rfl
  have hd : Delivers quietEnv routeRequest (str "yj_1430") (str "yj_ao") := by
    constructor <;> decide
  have hget := hr.symm ▸ hroute
  exact ⟨route, _, rfl, hget, (memsrouteSet_selects (setup_routesOk quietEnv) _ hd hget).1⟩

end Selection

end Tib
