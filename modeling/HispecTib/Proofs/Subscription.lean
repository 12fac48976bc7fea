import HispecTib.Proofs.Connection

/-!
# Subscriptions

`main` ignores the return code of `coo_mqtt_subscribe`, and the event handler only logs a SUBACK with
a failure: nothing tells the inner loop.

* `Served`: a connection in service is subscribed on, and no SUBACK on it reported a failure.
* `served_step_iff`: the two steps that may break this.
* `served_iff`: the runs in which every connection in service is.
-/

open CLib

namespace Tib

/-! ## Service -/

/-- In the inner loop, with `mqtt_connected` where the loop tests it next. `mqtt_input` is left out:
a SUBACK comes there. -/
def MainPc.inService (pc : MainPc) (connected : Bool) : Bool :=
  match pc with
  | .testing => connected
  | .feeding | .draining | .publishing _ | .polling | .keepingAlive => true
  | .processed rc => rc = 0 && connected
  | _ => false

/-- In service, or in the `mqtt_input` of `coo_mqtt_process`. -/
def MainPc.serves (pc : MainPc) (connected : Bool) : Bool :=
  match pc with
  | .reading _ => true
  | pc => pc.inService connected

structure Served (b : MainThread) (k : Link) : Prop where
  subscribed : b.pc.serves b.mqttConnected = true → k.subscribed = true
  notFailed : b.pc.inService b.mqttConnected = true → k.subackFailed = false

/-- With `mqtt_connected` set, `coo_mqtt_subscribe` returns 0 and finds no failed SUBACK, and
`mqtt_input` does not return 0 on a good socket after a failed SUBACK. -/
def KeepsSubscribed (b : MainThread) (k : Link) : MainThreadLabel → Prop
  | .subscribed rc => b.mqttConnected = true → rc = 0 ∧ k.subackFailed = false
  | .input rc => ∀ revents, b.pc = .reading revents → b.mqttConnected = true → rc = 0 →
      revents.pollhup = false → revents.pollerr = false → k.subackFailed = false
  | _ => True

section Subscription

variable {env : Env} {w : World} {b t : MainThread} {k k' : Link} {l : MainThreadLabel}
  {ls : List MainThreadLabel}

theorem MainPc.serves_of_inService {pc : MainPc} {c : Bool} (h : pc.inService c = true) :
    pc.serves c = true := by
  unfold MainPc.serves
  split
  · rfl
  · exact h

/-- A step out of service. -/
theorem Served.out (h : t.pc.serves t.mqttConnected = false) : Served t k := by
  have hserves : ¬ t.pc.serves t.mqttConnected = true := fun hs =>
    absurd (h.symm.trans hs) Bool.false_ne_true
  exact ⟨fun hs => absurd hs hserves,
    fun hs => absurd (MainPc.serves_of_inService hs) hserves⟩

/-- A step within the service. -/
theorem Served.move (h : Served b k) (hsub : k'.subscribed = k.subscribed)
    (hfail : k'.subackFailed = k.subackFailed) (hflag : t.mqttConnected = b.mqttConnected)
    (hpc : t.pc.inService b.mqttConnected = true → b.pc.inService b.mqttConnected = true)
    (hserves : t.pc.serves b.mqttConnected = true → b.pc.serves b.mqttConnected = true) :
    Served t k' := by
  refine ⟨fun ht => ?_, fun ht => ?_⟩ <;> rw [hflag] at ht
  · exact hsub.trans (h.subscribed (hserves ht))
  · exact hfail.trans (h.notFailed (hpc ht))

/-- The loop does not test the flag in a library call. -/
theorem MainPc.inService_congr {pc : MainPc} (h : pc.inLibrary) (c c' : Bool) :
    pc.inService c = pc.inService c' := by
  cases pc <;> first | rfl | cases h

theorem MainPc.serves_congr {pc : MainPc} (h : pc.inLibrary) (c c' : Bool) :
    pc.serves c = pc.serves c' := by
  cases pc <;> first | rfl | cases h

theorem MainPc.readsInput_inService {pc : MainPc} (h : pc.readsInput) (c : Bool) :
    pc.inService c = false := by
  cases pc <;> first | rfl | cases h

@[simp] theorem Link.after_event_subscribed (k : Link) (evt : MqttEvt Unit) :
    (k.after (.event evt)).subscribed = k.subscribed := by
  cases evt with
  | connack result | suback result messageId =>
    dsimp only [Link.after]
    split_ifs <;> rfl
  | _ => rfl

/-- Events do not move the thread, and a SUBACK comes only in `mqtt_input`. -/
theorem Served.event (h : Served b k) {evt : MqttEvt Unit} (hdel : b.pc.Delivers evt) :
    Served { b with mqttConnected := evt.connectedAfter b.mqttConnected }
      (k.after (.event evt)) := by
  refine ⟨fun hs => ?_, fun hs => ?_⟩
  · rw [MainPc.serves_congr hdel.inLibrary _ b.mqttConnected] at hs
    rw [Link.after_event_subscribed]
    exact h.subscribed hs
  · rw [MainPc.inService_congr hdel.inLibrary _ b.mqttConnected] at hs
    cases evt with
    | suback result messageId =>
      exact absurd ((MainPc.readsInput_inService hdel _).symm.trans hs) Bool.false_ne_true
    | connack result =>
      dsimp only [Link.after]
      split_ifs <;> exact h.notFailed hs
    | _ => exact h.notFailed hs

/-! ## Steps -/

/-- The return of `coo_mqtt_subscribe`. -/
theorem served_subscribed_iff (rc : Int) :
    Served { b with pc := .testing } (k.after (.subscribed rc)) ↔
      KeepsSubscribed b k (.subscribed rc) := by
  constructor
  · exact fun h hflag => ⟨of_decide_eq_true (h.subscribed hflag), h.notFailed hflag⟩
  · exact fun h => ⟨fun hflag => decide_eq_true (h hflag).1, fun hflag => (h hflag).2⟩

theorem inputReturn_eq_zero {rc : Int} {revents : Revents} :
    inputReturn rc revents = 0 ↔ rc = 0 ∧ revents.pollhup = false ∧ revents.pollerr = false := by
  unfold inputReturn
  split_ifs with hrc hup
  · exact iff_of_false hrc fun h => hrc h.1
  · refine iff_of_false (by decide) fun h => ?_
    rw [h.2.1, h.2.2] at hup
    cases hup
  · simpa [not_not.mp hrc] using hup

/-- The return of the `mqtt_input` of `coo_mqtt_process`. -/
theorem served_input_iff (h : Served b k) {revents : Revents} (hpc : b.pc = .reading revents)
    (rc : Int) :
    Served { b with pc := .processed (inputReturn rc revents) } k ↔
      KeepsSubscribed b k (.input rc) := by
  have hsub : k.subscribed = true := h.subscribed (by rw [hpc]; rfl)
  have hservice : (MainPc.processed (inputReturn rc revents)).inService b.mqttConnected = true ↔
      (rc = 0 ∧ revents.pollhup = false ∧ revents.pollerr = false) ∧ b.mqttConnected = true := by
    rw [MainPc.inService, Bool.and_eq_true, decide_eq_true_iff, inputReturn_eq_zero]
  constructor
  · intro ht revents' hpc' hflag hrc hhup herr
    obtain rfl : revents = revents' := MainPc.reading.inj (hpc.symm.trans hpc')
    exact ht.notFailed (hservice.mpr ⟨⟨hrc, hhup, herr⟩, hflag⟩)
  · refine fun hk => ⟨fun _ => hsub, fun hs => ?_⟩
    obtain ⟨⟨hrc, hhup, herr⟩, hflag⟩ := hservice.mp hs
    exact hk revents hpc hflag hrc hhup herr

/-- **Steps.** -/
theorem served_step_iff (h : Served b k) (hst : MainThreadStep env b l t) :
    Served t (k.after l) ↔ KeepsSubscribed b k l := by
  cases hst with
  | subscribed rc hpc => exact served_subscribed_iff rc
  | input rc hpc _ => exact served_input_iff h hpc rc
  | event evt hdel => exact iff_of_true (h.event hdel) trivial
  | thread _ _ | networkEvent online _ _ | networkSleep d _ _ _ =>
    exact iff_of_true (h.move rfl rfl rfl id id) trivial
  | enter hpc hflag =>
    exact iff_of_true (h.move rfl rfl rfl (fun _ => by rw [hpc]; exact hflag)
      fun _ => by rw [hpc]; exact hflag) trivial
  | watchdog hpc | take hpc _ | publish rc hpc | process hpc _ | live rc hpc =>
    exact iff_of_true (h.move rfl rfl rfl (fun _ => by rw [hpc]; rfl) fun _ => by rw [hpc]; rfl)
      trivial
  | poll d rc revents hpc _ _ =>
    exact iff_of_true (h.move rfl rfl rfl (fun _ => by rw [hpc]; rfl) fun _ => by rw [hpc]; rfl)
      trivial
  | processed hpc =>
    refine iff_of_true ?_ trivial
    split_ifs with hrc
    · exact .out rfl
    · obtain rfl := not_not.mp hrc
      exact h.move rfl rfl rfl (fun hs => by rw [hpc]; exact hs) fun hs => by rw [hpc]; exact hs
  | setup iface hpc | connect rc hpc | connackPoll d rc hpc _ =>
    refine iff_of_true (.out ?_) trivial
    dsimp only
    split_ifs <;> rfl
  | _ => exact iff_of_true (.out rfl) trivial

/-! ## Runs -/

theorem mainRuns_served_iff {s t : MainThread × List MainThreadLabel}
    (hs : Served s.1 (linkAfter s.2)) (hst : (mainRuns env w).step s l t) :
    Served t.1 (linkAfter t.2) ↔ KeepsSubscribed s.1 (linkAfter s.2) l := by
  have hls : t.2 = s.2 ++ [l] := hst.2
  rw [hls, linkAfter_snoc]
  exact served_step_iff hs hst.1

/-- The queue is empty, and `coo_mqtt_process` is called. -/
theorem Served.process (h : Served b k) (hst : MainThreadStep env b .process t) :
    k.subscribed = true ∧ k.subackFailed = false := by
  cases hst with
  | process hpc hq => exact ⟨h.subscribed (by rw [hpc]; rfl), h.notFailed (by rw [hpc]; rfl)⟩

/-- **Subscriptions.** In a run of the main thread, every state serves only a connection that it is
subscribed on exactly when its steps keep the subscription. In such a run, `coo_mqtt_process` is
called only on a connection where `mqtt_subscribe` returned 0 and no SUBACK reported a failure. -/
theorem served_iff (hs : (mainThread env w).start b) {ls : List MainThreadLabel}
    {s : MainThread × List MainThreadLabel} :
    ((mainRuns env w).ExecWith (fun _ _ s => Served s.1 (linkAfter s.2)) (b, []) ls s ↔
      (mainRuns env w).ExecWith (fun s l _ => KeepsSubscribed s.1 (linkAfter s.2) l)
        (b, []) ls s) ∧
    ((mainRuns env w).ExecWith (fun s l _ => KeepsSubscribed s.1 (linkAfter s.2) l) (b, []) ls s →
      ∀ t, MainThreadStep env s.1 .process t →
        (linkAfter s.2).subscribed = true ∧ (linkAfter s.2).subackFailed = false) := by
  have hboot : Served b (linkAfter []) := by
    obtain ⟨t, rfl⟩ := hs
    exact .out rfl
  have hiff : (mainRuns env w).ExecWith (fun _ _ s => Served s.1 (linkAfter s.2)) (b, []) ls s ↔
      (mainRuns env w).ExecWith (fun s l _ => KeepsSubscribed s.1 (linkAfter s.2) l)
        (b, []) ls s := by
    refine Sys.execWith_iff (S := mainRuns env w)
      (P := fun s : MainThread × List MainThreadLabel => Served s.1 (linkAfter s.2)) ?_
      ⟨hs, rfl⟩ hboot
    exact fun s l t _ hserved hst => mainRuns_served_iff hserved hst
  refine ⟨hiff, fun hkeep t hst => ?_⟩
  have hserved : Served s.1 (linkAfter s.2) := (hiff.mpr hkeep).last hboot
  exact hserved.process hst

end Subscription

/-! ## A first subscription -/

/-- The steps from a first CONNACK to `coo_mqtt_process`, where `mqtt_subscribe` returns `rc`. -/
def subscribeSteps (rc : Int) : List MainThreadLabel :=
  firstSteps ++ [.connected] ++ [.subscribed rc] ++ [.enter] ++ [.watchdog]

/-- They lead there, with any property `K` of a step that they have. -/
theorem subscribe_run {K : MainThread × List MainThreadLabel → MainThreadLabel →
      MainThread × List MainThreadLabel → Prop} (rc : Int)
    (hfirst : ∀ l ∈ firstSteps ++ [.connected, .enter, .watchdog], ∀ s t, K s l t)
    (hsub : ∀ t, K ({ firstConnack with pc := .subscribing }, firstSteps ++ [.connected])
      (.subscribed rc) t) :
    (mainRuns setEnv .boot).ExecWith K (.boot .boot 0, []) (subscribeSteps rc)
      ({ firstConnack with pc := .draining }, subscribeSteps rc) := by
  rw [List.forall_mem_append] at hfirst
  obtain ⟨hfirst, hrest⟩ := hfirst
  simp only [List.forall_mem_cons] at hrest
  obtain ⟨k1, k3, k4, -⟩ := hrest
  have h1 := mainRuns_snoc (firstConnack_run hfirst) (.connected rfl rfl) (k1 _ _)
  have h2 := mainRuns_snoc h1 (.subscribed rc rfl) (hsub _)
  have h3 := mainRuns_snoc h2 (.enter rfl rfl) (k3 _ _)
  exact mainRuns_snoc h3 (.watchdog rfl) (k4 _ _)

/-- `mqtt_subscribe` returns `-ENOMEM` on the first connection, and `coo_mqtt_process` is called. -/
theorem unsubscribed_processed :
    ∃ b ls t, (mainRuns setEnv .boot).Reachable (b, ls) ∧ MainThreadStep setEnv b .process t ∧
      (linkAfter ls).subscribed = false := by
  have hrun := (subscribe_run (-12) (fun _ _ _ _ => trivial) fun _ => trivial).exec
  exact ⟨_, _, _, ⟨_, _, ⟨⟨0, rfl⟩, rfl⟩, hrun⟩, .process rfl rfl, rfl⟩

/-- `mqtt_subscribe` returns 0 on the first connection. -/
theorem subscribed_processed :
    (linkAfter (subscribeSteps 0)).subscribed = true ∧
      (linkAfter (subscribeSteps 0)).subackFailed = false := by
  have hkeep := subscribe_run (K := fun s l _ => KeepsSubscribed s.1 (linkAfter s.2) l) 0
    (by simp [firstSteps, KeepsSubscribed]) fun _ _ => ⟨rfl, rfl⟩
  exact (served_iff ⟨0, rfl⟩).2 hkeep _ (.process rfl rfl)

end Tib
