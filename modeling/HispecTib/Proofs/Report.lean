import HispecTib.Proofs.Routes
import HispecTib.Proofs.Wording
import Mathlib.Data.List.Perm.Subperm

/-!
# The report of the active routes

* **The text** (`memsrouteGet_eq`): `memsroute_get` prints the whole list, or it refuses.
* **The instrument** (`report_complete`): the inputs fall into six groups, and any two routes with
  inputs of one group demand different sides of some switch. So after setup at most six routes are
  ever active, their inputs differ, and their report fits.
-/

open CLib

namespace Tib

/-! ## The text -/

section Text

/-- A text that fits in `size` bytes with its NUL, or nothing. -/
def fit (size : Nat) (text : List Byte) : Option (List Byte) :=
  if text.length < size then some text else none

/-- The member of one route. -/
def entryText (key : MemsRouteKey) : List Byte :=
  str "\"" ++ cstr key.inputName ++ str "\":\"" ++ cstr key.outputName ++ str "\""

/-- The members, with commas between them. -/
def entriesText (keys : List MemsRouteKey) : List Byte :=
  List.intercalate (str ",") (keys.map entryText)

/-- The report `{"active_routes":{...}}`. -/
def reportText (keys : List MemsRouteKey) : List Byte :=
  str "\x7b\"active_routes\":\x7b" ++ entriesText keys ++ str "\x7d\x7d"

variable {size : Nat}

theorem fit_of_lt {text : List Byte} (h : text.length < size) : fit size text = some text :=
  if_pos h

theorem appendText_eq (buf text : List Byte) :
    appendText size buf text = fit size (buf ++ text) := by
  unfold appendText fit
  rw [List.length_append]
  split_ifs <;> first | rfl | omega

/-- The prints behind the opening of the report, in order. -/
def reportPrints : List MemsRouteKey → List (List Byte)
  | [] => [str "\x7d\x7d"]
  | key :: keys =>
    entryText key :: (keys.flatMap fun key => [str ",", entryText key]) ++ [str "\x7d\x7d"]

/-- Prints that refuse an overflow make up the whole text, or they refuse. -/
theorem prints_fit (prints : List (List Byte)) {buf : List Byte} (h : buf.length < size) :
    prints.foldlM (appendText size) buf = fit size (buf ++ prints.flatten) := by
  induction prints generalizing buf with
  | nil => simp [fit_of_lt h]
  | cons text prints ih =>
    rw [List.foldlM_cons, appendText_eq, List.flatten_cons, ← List.append_assoc]
    by_cases ht : (buf ++ text).length < size
    · rw [fit_of_lt ht]
      exact ih ht
    · have hall : ¬ (buf ++ text ++ prints.flatten).length < size := by
        rw [List.length_append]
        omega
      rw [fit, fit, if_neg ht, if_neg hall]
      rfl

/-- All entries but the first are printed behind a comma. -/
theorem appendRoutes_rest (keys : List MemsRouteKey) (buf : List Byte) :
    appendRoutes size keys false buf =
      (keys.flatMap fun key => [str ",", entryText key]).foldlM (appendText size) buf := by
  induction keys generalizing buf with
  | nil => rfl
  | cons key keys ih =>
    change (appendText size buf (str ",")).bind (fun buf =>
      (appendText size buf (entryText key)).bind (appendRoutes size keys false)) = _
    simp only [List.flatMap_cons, List.cons_append, List.nil_append, List.foldlM_cons,
      Option.bind_eq_bind, ← ih]

/-- The loop and the last print are the prints of the report. -/
theorem appendRoutes_prints (keys : List MemsRouteKey) (buf : List Byte) :
    (do
      let buf ← appendRoutes size keys true buf
      appendText size buf (str "\x7d\x7d")) =
      (reportPrints keys).foldlM (appendText size) buf := by
  cases keys with
  | nil => simp [appendRoutes, reportPrints]
  | cons key keys =>
    change ((appendText size buf (entryText key)).bind (appendRoutes size keys false)).bind _ = _
    simp only [funext (appendRoutes_rest keys), reportPrints, List.cons_append, List.foldlM_cons,
      List.foldlM_append, List.foldlM_nil, Option.bind_eq_bind, Option.bind_assoc,
      Option.pure_def, Option.bind_fun_some]

theorem entriesText_cons (key : MemsRouteKey) (keys : List MemsRouteKey) :
    entriesText (key :: keys) =
      entryText key ++ (keys.map fun key => str "," ++ entryText key).flatten := by
  induction keys generalizing key with
  | nil => simp [entriesText, List.intercalate]
  | cons key' keys ih =>
    have hstep : entriesText (key :: key' :: keys) =
        entryText key ++ (str "," ++ entriesText (key' :: keys)) := by
      simp [entriesText, List.intercalate]
    rw [hstep, ih, List.map_cons, List.flatten_cons, List.append_assoc]

theorem reportText_prints (keys : List MemsRouteKey) :
    reportText keys = str "\x7b\"active_routes\":\x7b" ++ (reportPrints keys).flatten := by
  have hrest (keys : List MemsRouteKey) :
      (keys.flatMap fun key => [str ",", entryText key]).flatten =
        (keys.map fun key => str "," ++ entryText key).flatten := by
    induction keys with
    | nil => rfl
    | cons key keys ih => simp [ih]
  cases keys with
  | nil => simp [reportText, reportPrints, entriesText]
  | cons key keys =>
    simp only [reportText, reportPrints, entriesText_cons, List.cons_append, List.flatten_cons,
      List.flatten_append, hrest, List.flatten_nil, List.append_nil, List.append_assoc]

theorem entriesText_length_le {k : Nat} {keys : List MemsRouteKey}
    (h : ∀ key ∈ keys, (entryText key).length ≤ k) :
    (entriesText keys).length ≤ (k + 1) * keys.length := by
  have hcomma : (str ",").length = 1 := by decide
  have hrest : ∀ keys : List MemsRouteKey, (∀ key ∈ keys, (entryText key).length ≤ k) →
      ((keys.map fun key => str "," ++ entryText key).flatten).length ≤ (k + 1) * keys.length := by
    intro keys hkeys
    induction keys with
    | nil => simp
    | cons key keys ih =>
      have hkey := hkeys key List.mem_cons_self
      have htail := ih fun key' hmem => hkeys key' (List.mem_cons_of_mem _ hmem)
      simp only [List.map_cons, List.flatten_cons, List.length_append, List.length_cons, hcomma]
      rw [Nat.mul_succ]
      omega
  cases keys with
  | nil => simp [entriesText]
  | cons key keys =>
    have hkey := h key List.mem_cons_self
    have htail := hrest keys fun key' hmem => h key' (List.mem_cons_of_mem _ hmem)
    rw [entriesText_cons, List.length_append, List.length_cons, Nat.mul_succ]
    omega

theorem zero_notMem_entryText (key : MemsRouteKey) : (0 : Byte) ∉ entryText key := by
  have hquote : (0 : Byte) ∉ str "\"" := by decide
  have hcolon : (0 : Byte) ∉ str "\":\"" := by decide
  simp only [entryText, List.mem_append, not_or]
  exact ⟨⟨⟨⟨hquote, zero_notMem_cstr _⟩, hcolon⟩, zero_notMem_cstr _⟩, hquote⟩

theorem zero_notMem_reportText (keys : List MemsRouteKey) : (0 : Byte) ∉ reportText keys := by
  have hopen : (0 : Byte) ∉ str "\x7b\"active_routes\":\x7b" := by decide
  have hclose : (0 : Byte) ∉ str "\x7d\x7d" := by decide
  have hcomma : (0 : Byte) ∉ str "," := by decide
  have hentries : (0 : Byte) ∉ entriesText keys := by
    cases keys with
    | nil => simp [entriesText]
    | cons key keys =>
      simp only [entriesText_cons, List.mem_append, List.mem_flatten, List.mem_map, not_or,
        not_exists, not_and]
      refine ⟨zero_notMem_entryText key, ?_⟩
      rintro _ ⟨key', -, rfl⟩ h
      rcases List.mem_append.mp h with h | h
      · exact hcomma h
      · exact zero_notMem_entryText key' h
  simp only [reportText, List.mem_append, not_or]
  exact ⟨⟨hopen, hentries⟩, hclose⟩

/-- The handler makes the prints of the report, one after the other. -/
theorem memsrouteGet_prints (cmd : Command) (w : World) :
    (memsrouteGet cmd w).val =
      match (reportPrints (matchingKeys w.switches w.router w.router.routes)).foldlM
        (appendText maxPayloadLen) (str "\x7b\"active_routes\":\x7b") with
      | none => errorReply cmd "overflow building JSON"
      | some text => msgBuilder cmd .respOk text := by
  unfold memsrouteGet
  simp only [Prog.bind_run, Prog.get_run, appendRoutes_prints,
    activeRoutes_all w.router.routes_le]
  cases (reportPrints (matchingKeys w.switches w.router w.router.routes)).foldlM
    (appendText maxPayloadLen) (str "\x7b\"active_routes\":\x7b") with
  | none => rfl
  | some text => rfl

/-- **The whole list or a refusal.** -/
theorem memsrouteGet_eq (cmd : Command) (w : World) :
    (memsrouteGet cmd w).val =
      match fit maxPayloadLen (reportText (matchingKeys w.switches w.router w.router.routes)) with
      | none => errorReply cmd "overflow building JSON"
      | some text => msgBuilder cmd .respOk text := by
  have hopen : (str "\x7b\"active_routes\":\x7b").length < maxPayloadLen := by decide
  rw [memsrouteGet_prints, prints_fit _ hopen, reportText_prints]

end Text

/-! ## The instrument -/

section Instrument

/-- `MEMS_ROUTER_MAX_ACTIVE_ROUTES`. -/
def memsRouterMaxActiveRoutes : Nat := 6

/-- The routes whose switches are all in the demanded state, in the order of the table. -/
def World.activeRoutes (w : World) : List MemsRoute :=
  w.router.routes.filter (routeMatches w.switches w.router)

/-- Inputs of which at most one is connected at a time. -/
def inputGroups : List (List (List Byte)) := [
  [str "yj_1430"], [str "yj_cal", str "yj_laser"], [str "yj_mm", str "yj_sm"],
  [str "hk_1430"], [str "hk_cal", str "hk_laser"], [str "hk_mm", str "hk_sm"]]

def MemsRoute.group (route : MemsRoute) : Nat :=
  inputGroups.findIdx fun group => decide (cstr route.key.inputName ∈ group)

/-- Two routes that demand different states of one switch, by the names as `find` resolves them. -/
def Conflict (find : List Byte → Option SwitchPtr) (r r' : MemsRoute) : Prop :=
  ∃ step ∈ r.steps, ∃ step' ∈ r'.steps,
    find step.switchName = find step'.switchName ∧ step.state ≠ step'.state

instance (find : List Byte → Option SwitchPtr) (r r' : MemsRoute) :
    Decidable (Conflict find r r') :=
  inferInstanceAs (Decidable (∃ step ∈ r.steps, ∃ step' ∈ r'.steps,
    find step.switchName = find step'.switchName ∧ step.state ≠ step'.state))

variable {w : World}

theorem routeMatches_step {route : MemsRoute} {step : MemsRouteStep}
    (h : routeMatches w.switches w.router route = true) (hstep : step ∈ route.steps) :
    ∃ p, w.findSwitch step.switchName = some p ∧ (w.switches p).state = step.state := by
  have hs := List.all_eq_true.mp h step hstep
  rw [memsRouterFindSwitch_eq] at hs
  cases hf : w.findSwitch step.switchName with
  | none => simp [hf] at hs
  | some p => exact ⟨p, rfl, by simpa [hf] using hs⟩

/-- Two routes in conflict are not active at once. -/
theorem Conflict.exclusive {r r' : MemsRoute} (h : Conflict w.findSwitch r r')
    (hr : routeMatches w.switches w.router r = true) :
    ¬ routeMatches w.switches w.router r' = true := by
  intro hr'
  obtain ⟨step, hstep, step', hstep', hfind, hne⟩ := h
  obtain ⟨p, hp, hstate⟩ := routeMatches_step hr hstep
  obtain ⟨p', hp', hstate'⟩ := routeMatches_step hr' hstep'
  obtain rfl : p = p' := Option.some.inj (hp.symm.trans (hfind.trans hp'))
  exact hne (hstate.symm.trans hstate')

/-- A table in which the inputs exclude each other by groups, with names short enough for a report
of six routes. -/
structure Exclusive (w : World) : Prop where
  conflicts : w.router.routes.Pairwise fun r r' => r.group = r'.group →
    Conflict w.findSwitch r r'
  grouped : ∀ r ∈ w.router.routes, r.group < memsRouterMaxActiveRoutes
  entry_le : ∀ r ∈ w.router.routes, (entryText r.key).length ≤ 20

theorem Exclusive.congr {w' : World} (h : w'.wiring = w.wiring) (he : Exclusive w) :
    Exclusive w' := by
  have hr : w'.router = w.router := congrArg Prod.fst h
  have hf : w'.findSwitch = w.findSwitch := funext (findSwitch_congr h)
  constructor <;> simp only [hr, hf]
  · exact he.conflicts
  · exact he.grouped
  · exact he.entry_le

/-- At most one active route in each group. -/
theorem Exclusive.groups_nodup (h : Exclusive w) : (w.activeRoutes.map MemsRoute.group).Nodup := by
  have hactive : w.activeRoutes.Pairwise fun r r' => r.group = r'.group →
      Conflict w.findSwitch r r' := h.conflicts.filter _
  rw [List.nodup_iff_pairwise_ne, List.pairwise_map]
  refine hactive.imp_of_mem fun hr hr' hc heq => ?_
  exact (hc heq).exclusive (List.mem_filter.mp hr).2 (List.mem_filter.mp hr').2

theorem Exclusive.length_le (h : Exclusive w) :
    w.activeRoutes.length ≤ memsRouterMaxActiveRoutes := by
  have hsub : w.activeRoutes.map MemsRoute.group ⊆ List.range memsRouterMaxActiveRoutes := by
    intro g hg
    obtain ⟨r, hr, rfl⟩ := List.mem_map.mp hg
    exact List.mem_range.mpr (h.grouped r (List.mem_filter.mp hr).1)
  have hle := (List.subperm_of_subset h.groups_nodup hsub).length_le
  rwa [List.length_map, List.length_range] at hle

/-- Routes of different groups have different inputs. -/
theorem Exclusive.inputs_nodup (h : Exclusive w) :
    (w.activeRoutes.map fun r => cstr r.key.inputName).Nodup := by
  have hg := h.groups_nodup
  rw [List.nodup_iff_pairwise_ne, List.pairwise_map] at hg ⊢
  refine hg.imp fun hne heq => hne ?_
  unfold MemsRoute.group
  rw [heq]

theorem Exclusive.report_lt (h : Exclusive w) :
    (reportText (w.activeRoutes.map (·.key))).length < maxPayloadLen := by
  have hentry : ∀ key ∈ w.activeRoutes.map (·.key), (entryText key).length ≤ 20 := by
    intro key hkey
    obtain ⟨r, hr, rfl⟩ := List.mem_map.mp hkey
    exact h.entry_le r (List.mem_filter.mp hr).1
  have hopen : (str "\x7b\"active_routes\":\x7b").length = 18 := by decide
  have hclose : (str "\x7d\x7d").length = 2 := by decide
  have hentries := entriesText_length_le hentry
  have hmax : maxPayloadLen = 256 := rfl
  have hsix : w.activeRoutes.length ≤ 6 := h.length_le
  rw [List.length_map] at hentries
  rw [reportText, List.length_append, List.length_append, hopen, hclose]
  omega

/-- The report lists every active route. -/
theorem Exclusive.report (h : Exclusive w) (cmd : Command) :
    (memsrouteGet cmd w).val =
      msgBuilder cmd .respOk (reportText (w.activeRoutes.map (·.key))) := by
  have hkeys : matchingKeys w.switches w.router w.router.routes = w.activeRoutes.map (·.key) := rfl
  rw [memsrouteGet_eq, hkeys, fit_of_lt h.report_lt]

/-- The installed table, or none, is exclusive. -/
theorem setup_exclusive (env : Env) {w₀ : World} (h₀ : w₀.router.routes = []) :
    Exclusive (setupMemsSwitchesAndRoutes env w₀).post := by
  rcases setup_installs env w₀ with ⟨hr, hsw⟩ | ⟨hr, -⟩
  · have hfind : (setupMemsSwitchesAndRoutes env w₀).post.findSwitch =
        memsRouterFindSwitch installedSwitch installedRouter := by
      funext name
      rw [World.findSwitch, hr]
      exact findSwitch_of_switches hsw
    constructor <;> simp only [hr, hfind] <;> decide
  · have hnone : (setupMemsSwitchesAndRoutes env w₀).post.router.routes = [] := by rw [hr, h₀]
    constructor <;> simp [hnone]

/-- **The route report.** After setup and any run of switch commands, at most six routes are
active, no two of them have the same input, and `memsroute_get` reports all of them. -/
theorem report_complete (env : Env) {w₀ : World} (h₀ : w₀.router.routes = [])
    (history : List SwitchCommand) (cmd : Command) :
    let w := (runCommands env history (setupMemsSwitchesAndRoutes env w₀).post).post
    w.activeRoutes.length ≤ memsRouterMaxActiveRoutes ∧
      (w.activeRoutes.map fun r => cstr r.key.inputName).Nodup ∧
      (memsrouteGet cmd w).val.msgType = .respOk ∧
      (memsrouteGet cmd w).val.payload.cstr = reportText (w.activeRoutes.map (·.key)) := by
  intro w
  have he : Exclusive w := (setup_exclusive env h₀).congr (runCommands_wiring env history _)
  have hfits : strlen (reportText (w.activeRoutes.map (·.key))) < maxPayloadLen :=
    Nat.lt_of_le_of_lt (strlen_le _) he.report_lt
  refine ⟨he.length_le, he.inputs_nodup, ?_, ?_⟩
  · rw [he.report cmd]
    rfl
  · rw [he.report cmd, msgBuilder_payload cmd .respOk hfits, cstr_eq_self]
    exact zero_notMem_reportText _

/-- From boot, with one route selected. -/
theorem report_after_yj_ao :
    let w := (runCommands quietEnv [.memsroute routeRequest]
      (setupMemsSwitchesAndRoutes quietEnv .boot).post).post
    w.activeRoutes.length ≤ memsRouterMaxActiveRoutes ∧
      (memsrouteGet .zero w).val.payload.cstr = reportText (w.activeRoutes.map (·.key)) := by
  have h₀ : World.boot.router.routes = [] := rfl
  have h := report_complete quietEnv h₀ [.memsroute routeRequest] .zero
  exact ⟨h.1, h.2.2.2⟩

end Instrument

end Tib
