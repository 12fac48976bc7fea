import HispecTib.Proofs.Routes

/-!
# The router as a store of routes

* **The table** (`router_store`): the calls of `mems_router_define_route` after `mems_router_init`
  append or refuse, and a lookup finds the earliest route that was stored under the two names.
* **The active routes** (`activeRoutes_exact`): the report is the list of the active routes, cut at
  the capacity; `RouteActive` says what active means without the lookup.
-/

open CLib

namespace Tib

/-! ## Defining routes -/

section Store

/-- The arguments of one `mems_router_define_route`; a null pointer is `none`. -/
structure DefineCall where
  input : Option (List Byte)
  output : Option (List Byte)
  steps : Option (List MemsRouteStep)

def DefineCall.run (call : DefineCall) (router : MemsRouter) : Int × MemsRouter :=
  memsRouterDefineRoute router call.input call.output call.steps

/-- What a call asks to store. -/
def DefineCall.entry (call : DefineCall) : Option (MemsRouteKey × List MemsRouteStep) :=
  match call.input, call.output, call.steps with
  | some input, some output, some steps => some (⟨input, output⟩, steps)
  | _, _, _ => none

/-- The stored routes, as the keys and the steps that were given. -/
def MemsRouter.table (router : MemsRouter) : List (MemsRouteKey × List MemsRouteStep) :=
  router.routes.map fun route => (route.key, route.steps)

/-- A run of calls: each with its return code, and the router afterwards. -/
def defineCalls : MemsRouter → List DefineCall → List (DefineCall × Int) × MemsRouter
  | router, [] => ([], router)
  | router, call :: calls =>
    let (rc, router) := call.run router
    let (log, router) := defineCalls router calls
    ((call, rc) :: log, router)

/-- What the calls that returned 0 asked to store, in order. -/
def definedEntries (log : List (DefineCall × Int)) : List (MemsRouteKey × List MemsRouteStep) :=
  log.filterMap fun (call, rc) => if rc = 0 then call.entry else none

variable {router : MemsRouter}

/-- A call appends what it asks for, or it refuses and changes nothing. -/
theorem DefineCall.run_cases (call : DefineCall) (router : MemsRouter) :
    (∃ entry, call.entry = some entry ∧ (call.run router).1 = 0 ∧
        (call.run router).2.table = router.table ++ [entry] ∧
        (call.run router).2.switches = router.switches) ∨
      (call.run router).1 < 0 ∧ (call.run router).2 = router := by
  obtain ⟨input, output, steps⟩ := call
  have h1 : (-1 : Int) < 0 := by decide
  have h2 : (-2 : Int) < 0 := by decide
  unfold DefineCall.run memsRouterDefineRoute
  split
  · exact Or.inr ⟨h1, rfl⟩
  · dsimp only
    split
    · rename_i input output steps
      split
      · exact Or.inr ⟨h2, rfl⟩
      · refine Or.inl ⟨(⟨input, output⟩, steps), rfl, rfl, ?_, rfl⟩
        simp [MemsRouter.table]
    · exact Or.inr ⟨h2, rfl⟩

/-- After a run of calls: the table, and then what was defined, in order. -/
theorem defineCalls_table (calls : List DefineCall) (router : MemsRouter) :
    (defineCalls router calls).2.table =
      router.table ++ definedEntries (defineCalls router calls).1 := by
  induction calls generalizing router with
  | nil => exact (List.append_nil _).symm
  | cons call calls ih =>
    have hrest := ih (call.run router).2
    simp only [defineCalls, definedEntries, List.filterMap_cons] at hrest ⊢
    rw [hrest]
    rcases call.run_cases router with ⟨entry, hentry, hrc, htable, -⟩ | ⟨hrc, hr⟩
    · rw [htable, if_pos hrc, hentry, List.append_assoc]
      rfl
    · rw [hr, if_neg (by omega)]

/-- With names that fit in a name array, the lookup compares whole strings. -/
theorem getRoute_table {input output : List Byte}
    (hin : (cstr input).length < memsSwitchNameLen)
    (hout : (cstr output).length < memsSwitchNameLen) :
    (memsRouterGetRoute router input output).map (fun route => (route.key, route.steps)) =
      router.table.find? fun entry =>
        cstr entry.1.inputName = cstr input ∧ cstr entry.1.outputName = cstr output := by
  have hname {a b : List Byte} (hb : (cstr b).length < memsSwitchNameLen) :
      sameName a b = true ↔ cstr a = cstr b := by
    refine ⟨fun h => cstr_of_sameName h hb, fun h => ?_⟩
    rw [sameName, decide_eq_true_eq, strncmp_eq_zero, h]
  rw [MemsRouter.table, List.find?_map, memsRouterGetRoute]
  congr 1
  refine List.find?_congr fun route _ => ?_
  rw [Bool.eq_iff_iff]
  simp only [Bool.and_eq_true, hname hin, hname hout, Function.comp_apply, decide_eq_true_eq]

/-- **The route store.** After any calls following the initialisation, the tables are within their
bounds; one more call appends exactly what it was given, or returns a negative code and changes
nothing; further calls keep the routes; and a lookup by names of fewer than 24 characters finds the
earliest route that was defined under exactly these names. -/
theorem router_store (switches : List SwitchPtr) (calls : List DefineCall) :
    let log := (defineCalls (memsRouterInit switches) calls).1
    let router := (defineCalls (memsRouterInit switches) calls).2
    (router.switches.length ≤ 8 ∧ router.routes.length ≤ 18 ∧
        ∀ route ∈ router.routes, 1 ≤ route.steps.length ∧ route.steps.length ≤ 5) ∧
      (∀ call : DefineCall,
        (∃ entry, call.entry = some entry ∧ (call.run router).1 = 0 ∧
            (call.run router).2.table = router.table ++ [entry] ∧
            (call.run router).2.switches = router.switches) ∨
          (call.run router).1 < 0 ∧ (call.run router).2 = router) ∧
      (∀ more, router.table <+: (defineCalls router more).2.table) ∧
      router.table = definedEntries log ∧
      ∀ input output, (cstr input).length < 24 → (cstr output).length < 24 →
        (memsRouterGetRoute router input output).map (fun route => (route.key, route.steps)) =
          (definedEntries log).find? fun entry =>
            cstr entry.1.inputName = cstr input ∧ cstr entry.1.outputName = cstr output := by
  intro log router
  -- The router starts with an empty table.
  have htable : router.table = definedEntries log :=
    defineCalls_table calls (memsRouterInit switches)
  refine ⟨⟨router.switches_le, router.routes_le, fun r _ => ⟨r.steps_pos, r.steps_le⟩⟩,
    fun call => call.run_cases router, fun more => ?_, htable, fun input output hin hout => ?_⟩
  · rw [defineCalls_table more]
    exact List.prefix_append _ _
  · rw [getRoute_table hin hout, htable]

end Store

/-! ## Active routes -/

section Active

variable {mem : SwitchPtr → MemsSwitch} {router : MemsRouter}

/-- The switch has that name, as far as a name array reaches. -/
def SwitchNamed (mem : SwitchPtr → MemsSwitch) (name : List Byte) (p : SwitchPtr) : Prop :=
  (cstr (mem p).name.data).take memsSwitchNameLen = (cstr name).take memsSwitchNameLen

/-- `p` is the first switch of the router with that name. -/
def FirstNamed (mem : SwitchPtr → MemsSwitch) (router : MemsRouter) (name : List Byte)
    (p : SwitchPtr) : Prop :=
  ∃ i : Nat, router.switches[i]? = some p ∧ SwitchNamed mem name p ∧
    ∀ j < i, ∀ q, router.switches[j]? = some q → ¬ SwitchNamed mem name q

/-- Each step names a switch of the router whose recorded state is the demanded one. -/
def RouteActive (mem : SwitchPtr → MemsSwitch) (router : MemsRouter) (route : MemsRoute) : Prop :=
  ∀ step ∈ route.steps, ∃ p, FirstNamed mem router step.switchName p ∧
    (mem p).state = step.state

theorem sameName_iff {name : List Byte} {p : SwitchPtr} :
    sameName (mem p).name.data name = true ↔ SwitchNamed mem name p := by
  rw [sameName, decide_eq_true_eq, strncmp_eq_zero, SwitchNamed]

theorem findSwitch_eq_some_iff {name : List Byte} {p : SwitchPtr} :
    memsRouterFindSwitch mem router name = some p ↔ FirstNamed mem router name p := by
  rw [memsRouterFindSwitch, List.find?_eq_some_iff_getElem]
  constructor
  · rintro ⟨hp, i, hi, hget, hbefore⟩
    refine ⟨i, List.getElem?_eq_some_iff.mpr ⟨hi, hget⟩, sameName_iff.mp hp, ?_⟩
    intro j hj q hq hnamed
    obtain ⟨_, rfl⟩ := List.getElem?_eq_some_iff.mp hq
    simpa [sameName_iff.mpr hnamed] using hbefore j hj
  · rintro ⟨i, hget, hp, hbefore⟩
    obtain ⟨hi, hget⟩ := List.getElem?_eq_some_iff.mp hget
    refine ⟨sameName_iff.mpr hp, i, hi, hget, fun j hj => ?_⟩
    have hnot := hbefore j hj _ (List.getElem?_eq_getElem (hj.trans hi))
    rw [← sameName_iff] at hnot
    simp [hnot]

theorem routeMatches_iff {route : MemsRoute} :
    routeMatches mem router route = true ↔ RouteActive mem router route := by
  unfold routeMatches RouteActive
  rw [List.all_eq_true]
  refine forall₂_congr fun step _ => ?_
  simp only [← findSwitch_eq_some_iff]
  cases memsRouterFindSwitch mem router step.switchName <;> simp

instance (route : MemsRoute) : Decidable (RouteActive mem router route) :=
  decidable_of_iff _ routeMatches_iff

/-- The routes that the report is about. -/
theorem filter_routeMatches (routes : List MemsRoute) :
    routes.filter (routeMatches mem router) =
      routes.filter fun route => RouteActive mem router route := by
  refine List.filter_congr fun route _ => ?_
  rw [Bool.eq_iff_iff, decide_eq_true_eq, routeMatches_iff]

/-- The loop writes no entry from its result on. -/
theorem activeRoutesLoop_frame {maxKeys : Nat} (routes : List MemsRoute) (nFound : Nat)
    (outKeys : Nat → MemsRouteKey) :
    let r := activeRoutesLoop mem router maxKeys routes nFound outKeys
    nFound ≤ r.1 ∧ ∀ i, r.1 ≤ i → r.2 i = outKeys i := by
  induction routes generalizing nFound outKeys with
  | nil => exact ⟨le_rfl, fun _ _ => rfl⟩
  | cons route routes ih =>
    unfold activeRoutesLoop
    split
    · split
      · obtain ⟨hle, hframe⟩ := ih (nFound + 1) (Function.update outKeys nFound route.key)
        refine ⟨by omega, fun i hi => ?_⟩
        rw [hframe i hi, Function.update_of_ne (by omega)]
      · exact ih nFound outKeys
    · exact ⟨le_rfl, fun _ _ => rfl⟩

/-- **The active routes.** The count is that of the active routes, cut at the capacity; so many
entries are written, with the keys of the first active routes in the order of their definition; and
a route with a step that names no switch is not among them. -/
theorem activeRoutes_exact (mem : SwitchPtr → MemsSwitch) (router : MemsRouter)
    (outKeys : Nat → MemsRouteKey) (maxKeys : Nat) :
    let r := memsRouterActiveRoutes mem router outKeys maxKeys
    let active := router.routes.filter fun route => RouteActive mem router route
    r.1 = min maxKeys active.length ∧
      (∀ i < r.1, active[i]?.map (·.key) = some (r.2 i)) ∧
      (∀ i, r.1 ≤ i → r.2 i = outKeys i) ∧
      ∀ route ∈ router.routes, ∀ step ∈ route.steps,
        (∀ p, ¬ FirstNamed mem router step.switchName p) → route ∉ active := by
  intro r active
  have hkeys : (List.range r.1).map r.2 = (active.map (·.key)).take maxKeys := by
    have h := activeRoutes_eq mem router outKeys maxKeys
    rwa [matchingKeys, filter_routeMatches] at h
  have hcount : r.1 = min maxKeys active.length := by
    simpa using congrArg List.length hkeys
  refine ⟨hcount, fun i hi => ?_, (activeRoutesLoop_frame router.routes 0 outKeys).2,
    fun route _ step hstep hnone hmem => ?_⟩
  · have hget := congrArg (·[i]?) hkeys
    simp only [List.getElem?_map, List.getElem?_range hi, Option.map_some] at hget
    rw [List.getElem?_take_of_lt (by omega), List.getElem?_map] at hget
    exact hget.symm
  · obtain ⟨p, hp, -⟩ := of_decide_eq_true (List.mem_filter.mp hmem).2 step hstep
    exact hnone p hp

end Active

end Tib
