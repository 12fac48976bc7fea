import HispecTib.Proofs.MainThread

/-!
# Connections

A transport is open from an `mqtt_connect` that returns 0 to the next `mqtt_abort` or
`mqtt_disconnect`.

* `Link`: what a list of steps of the main thread has made of its connections.
* `Linked`: where the main thread is and its `mqtt_connected` agree with what it did.
* `connection_discipline`: no `mqtt_connect` while a transport is open, and `coo_mqtt_connect`
  returns on an open transport with a CONNACK.
-/

open CLib

namespace Tib

/-- `MQTT_SUBACK_FAILURE`. -/
abbrev mqttSubackFailure : Int := 0x80

/-! ## What the steps did -/

structure Link where
  /-- A transport is open. -/
  isOpen : Bool
  /-- The transport of the last `mqtt_connect` is open. -/
  lastOpen : Bool
  /-- Since the last `mqtt_connect`: a CONNACK with result 0, and no DISCONNECT after it. -/
  acknowledged : Bool
  /-- Since the last `mqtt_connect`: `mqtt_subscribe` returned 0. -/
  subscribed : Bool
  /-- Since the last `mqtt_connect`: a SUBACK reported a failure. -/
  subackFailed : Bool
deriving DecidableEq

namespace Link

def none : Link := ⟨false, false, false, false, false⟩

def after (k : Link) : MainThreadLabel → Link
  | .attempt => ⟨k.isOpen, false, false, false, false⟩
  | .connect rc => if rc = 0 then { k with isOpen := true, lastOpen := true } else k
  | .event (.connack result) => if result = 0 then { k with acknowledged := true } else k
  | .event (.disconnect _) => { k with acknowledged := false }
  | .event (.suback result _) =>
    if result = mqttSubackFailure then { k with subackFailed := true } else k
  | .subscribed rc => { k with subscribed := rc = 0 }
  | .aborted | .disconnect _ => { k with isOpen := false, lastOpen := false }
  | _ => k

end Link

/-- The connections after the steps `ls`. -/
def linkAfter (ls : List MainThreadLabel) : Link := ls.foldl Link.after .none

/-- The main thread, with the list of its steps. -/
def mainRuns (env : Env) (w : World) : Sys := (mainThread env w).logged fun _ l => [l]

section Connection

variable {env : Env} {w : World} {b t : MainThread} {k : Link} {l : MainThreadLabel}
  {ls : List MainThreadLabel}

theorem linkAfter_snoc (ls : List MainThreadLabel) (l : MainThreadLabel) :
    linkAfter (ls ++ [l]) = (linkAfter ls).after l := by
  rw [linkAfter, List.foldl_append]
  rfl

/-! ## The transport -/

/-- Where a transport is open, with `mqtt_connected`. -/
def MainPc.hasTransport (pc : MainPc) (connected : Bool) : Bool :=
  match pc with
  | .starting | .settingUp | .awaitingNetwork | .initMqtt | .returned | .connecting | .retrying =>
    false
  | .connectTest => connected
  | _ => true

/-- Where `coo_mqtt_connect` has found `mqtt_connected` unset, and reads no input. -/
def MainPc.isUnset : MainPc → Bool
  | .connecting | .retrying | .aborting => true
  | _ => false

/-- The invariant: the main thread knows what its steps have made of the connections. -/
structure Linked (b : MainThread) (k : Link) : Prop where
  isOpen : k.isOpen = b.pc.hasTransport b.mqttConnected
  lastOpen : k.lastOpen = b.pc.hasTransport b.mqttConnected
  acknowledged : b.mqttConnected = true → k.acknowledged = true
  unset : b.pc.isUnset = true → b.mqttConnected = false

/-- A step that keeps the transport and the flag. -/
theorem Linked.move (h : Linked b k) (hflag : t.mqttConnected = b.mqttConnected)
    (hopen : t.pc.hasTransport b.mqttConnected = b.pc.hasTransport b.mqttConnected)
    (hunset : t.pc.isUnset = true → b.mqttConnected = false) : Linked t k := by
  refine ⟨?_, ?_, ?_, ?_⟩ <;> rw [hflag]
  · exact h.isOpen.trans hopen.symm
  · exact h.lastOpen.trans hopen.symm
  · exact h.acknowledged
  · exact hunset

/-- Without a transport, `mqtt_connected` is unset. -/
theorem Linked.closed (hflag : t.mqttConnected = false) (hpc : t.pc.hasTransport false = false)
    (hopen : k.isOpen = false) (hlast : k.lastOpen = false) : Linked t k := by
  refine ⟨?_, ?_, fun hset => ?_, fun _ => hflag⟩
  · rw [hopen, hflag, hpc]
  · rw [hlast, hflag, hpc]
  · exact absurd (hflag.symm.trans hset) Bool.false_ne_true

/-- In a library call, the flag does not say whether a transport is open. -/
theorem MainPc.hasTransport_congr {pc : MainPc} (h : pc.inLibrary) (c c' : Bool) :
    pc.hasTransport c = pc.hasTransport c' := by
  cases pc <;> first | rfl | cases h

theorem MainPc.readsInput_isUnset {pc : MainPc} (h : pc.readsInput) : pc.isUnset = false := by
  cases pc <;> first | rfl | cases h

/-- An event in `mqtt_input`. -/
theorem Linked.input (h : Linked b k) (hpc : b.pc.readsInput) {c : Bool} {k' : Link}
    (hopen : k'.isOpen = k.isOpen) (hlast : k'.lastOpen = k.lastOpen)
    (hack : c = true → k'.acknowledged = true) : Linked { b with mqttConnected := c } k' := by
  have hsame := MainPc.hasTransport_congr (MainPc.readsInput_inLibrary hpc) b.mqttConnected c
  refine ⟨hopen.trans (h.isOpen.trans hsame), hlast.trans (h.lastOpen.trans hsame), hack, ?_⟩
  exact fun hun => absurd ((MainPc.readsInput_isUnset hpc).symm.trans hun) Bool.false_ne_true

theorem Linked.event (h : Linked b k) {evt : MqttEvt Unit} (hdel : b.pc.Delivers evt) :
    Linked { b with mqttConnected := evt.connectedAfter b.mqttConnected }
      (k.after (.event evt)) := by
  cases evt with
  | disconnect result =>
    have hsame := MainPc.hasTransport_congr hdel.inLibrary b.mqttConnected false
    exact ⟨h.isOpen.trans hsame, h.lastOpen.trans hsame, nofun, fun _ => rfl⟩
  | connack result =>
    by_cases hres : result = 0
    · subst hres
      exact h.input hdel rfl rfl fun _ => rfl
    · simp only [Link.after, MqttEvt.connectedAfter, if_pos hres, if_neg hres]
      exact h.input hdel rfl rfl h.acknowledged
  | suback result messageId =>
    dsimp only [Link.after]
    split_ifs
    · exact h.input hdel rfl rfl h.acknowledged
    · exact h.input hdel rfl rfl h.acknowledged
  | _ => exact h.input hdel rfl rfl h.acknowledged

/-- The return of `mqtt_connect`. -/
theorem Linked.connect (h : Linked b k) (hpc : b.pc = .connecting) (rc : Int) :
    Linked { b with pc := if rc ≠ 0 then .retrying else .awaitingConnack }
      (k.after (.connect rc)) := by
  have hflag : b.mqttConnected = false := h.unset (by rw [hpc]; rfl)
  by_cases hrc : rc = 0
  · subst hrc
    exact ⟨rfl, rfl, h.acknowledged, nofun⟩
  · simp only [Link.after, if_neg hrc, if_pos hrc]
    exact h.move rfl (by rw [hpc]; rfl) fun _ => hflag

theorem MainThreadStep.linked (hst : MainThreadStep env b l t) (h : Linked b k) :
    Linked t (k.after l) := by
  cases hst with
  | event evt hdel => exact h.event hdel
  | connect rc hpc => exact h.connect hpc rc
  | attempt hpc hflag =>
    have hopen := h.isOpen
    rw [hpc, hflag] at hopen
    exact .closed hflag rfl hopen rfl
  | aborted hpc => exact .closed (h.unset (by rw [hpc]; rfl)) rfl rfl rfl
  | disconnect rc hpc => exact .closed rfl rfl rfl rfl
  | initialized hpc =>
    have hopen := h.isOpen
    have hlast := h.lastOpen
    rw [hpc] at hopen hlast
    exact .closed rfl rfl hopen hlast
  | retrySleep d hpc _ =>
    have hflag : b.mqttConnected = false := h.unset (by rw [hpc]; rfl)
    exact h.move rfl (by rw [hpc, hflag]; rfl) nofun
  | keep hpc hflag | connected hpc hflag =>
    exact h.move rfl (by rw [hpc, hflag]; rfl) nofun
  | abort hpc hflag => exact h.move rfl (by rw [hpc]; rfl) fun _ => hflag
  | subscribed rc hpc =>
    have hmove : Linked { b with pc := .testing } k := h.move rfl (by rw [hpc]; rfl) nofun
    exact ⟨hmove.isOpen, hmove.lastOpen, hmove.acknowledged, nofun⟩
  | thread _ _ | networkEvent online _ _ | networkSleep d _ _ _ => exact h.move rfl rfl h.unset
  | setup iface hpc | connackPoll d rc hpc _ | processed hpc =>
    split_ifs <;> exact h.move rfl (by rw [hpc]; rfl) nofun
  | poll d rc revents hpc _ _ =>
    dsimp only [pollNext]
    split_ifs <;> exact h.move rfl (by rw [hpc]; rfl) nofun
  | watchdogInit ok hpc | networkReady hpc _ | initFailed rc hpc _ | connackInput rc hpc _
    | enter hpc hflag | watchdog hpc | take hpc _ | publish rc hpc | process hpc _
    | input rc hpc _ | live rc hpc | leave hpc hflag => exact h.move rfl (by rw [hpc]; rfl) nofun

theorem linked_of_reachable (h : (mainRuns env w).Reachable (b, ls)) : Linked b (linkAfter ls) := by
  refine h.of_steps (P := fun s : MainThread × List MainThreadLabel => Linked s.1 (linkAfter s.2))
    ?_ ?_
  · rintro ⟨b, ls⟩ ⟨⟨t, hb⟩, hls⟩
    obtain rfl : b = .boot w t := hb
    obtain rfl : ls = [] := hls
    exact .closed rfl rfl rfl rfl
  · rintro (s : MainThread × List MainThreadLabel) l (t : MainThread × List MainThreadLabel) hs
      ⟨hst, hls⟩
    rw [hls]
    exact (linkAfter_snoc s.2 l).symm ▸ MainThreadStep.linked hst hs

/-! ## A first connection -/

/-- One more step of a run that has kept `K`. -/
theorem mainRuns_snoc {K : MainThread × List MainThreadLabel → MainThreadLabel →
      MainThread × List MainThreadLabel → Prop} {s : MainThread × List MainThreadLabel}
    (h : (mainRuns env w).ExecWith K s ls (b, ls)) (hst : MainThreadStep env b l t)
    (hK : K (b, ls) l (t, ls ++ [l])) :
    (mainRuns env w).ExecWith K s (ls ++ [l]) (t, ls ++ [l]) :=
  Sys.ExecWith.snoc (S := mainRuns env w) (u := (t, ls ++ [l])) h ⟨hst, rfl⟩ hK

/-- The steps up to a first CONNACK, without a watchdog. -/
def firstSteps : List MainThreadLabel :=
  [.watchdogInit false, .setup true, .networkEvent true, .networkReady, .mqttInit 0, .attempt,
    .connect 0, .connackPoll 0 1, .event (.connack 0), .connackInput 0, .keep]

/-- After them. -/
def firstConnack : MainThread :=
  { MainThread.boot .boot 0 with pc := .connectTest, mqttConnected := true, networkOnline := true }

/-- They lead there, with any property `K` of a step that they have. -/
theorem firstConnack_run {K : MainThread × List MainThreadLabel → MainThreadLabel →
      MainThread × List MainThreadLabel → Prop} (hK : ∀ l ∈ firstSteps, ∀ s t, K s l t) :
    (mainRuns setEnv .boot).ExecWith K (.boot .boot 0, []) firstSteps
      (firstConnack, firstSteps) := by
  simp only [firstSteps, List.forall_mem_cons] at hK
  obtain ⟨k1, k2, k3, k4, k5, k6, k7, k8, k9, k10, k11, -⟩ := hK
  have h0 : (mainRuns setEnv .boot).ExecWith K (.boot .boot 0, []) [] (.boot .boot 0, []) :=
    .nil _
  have h1 := mainRuns_snoc h0 (.watchdogInit false rfl) (k1 _ _)
  have h2 := mainRuns_snoc h1 (.setup true rfl) (k2 _ _)
  have h3 := mainRuns_snoc h2 (.networkEvent true nofun nofun) (k3 _ _)
  have h4 := mainRuns_snoc h3 (.networkReady rfl rfl) (k4 _ _)
  have h5 := mainRuns_snoc h4 (.initialized rfl) (k5 _ _)
  have h6 := mainRuns_snoc h5 (.attempt rfl rfl) (k6 _ _)
  have h7 := mainRuns_snoc h6 (.connect 0 rfl) (k7 _ _)
  have h8 := mainRuns_snoc h7 (.connackPoll 0 1 rfl (Nat.zero_le _)) (k8 _ _)
  have h9 := mainRuns_snoc h8 (.event (.connack 0) rfl) (k9 _ _)
  have h10 := mainRuns_snoc h9 (.connackInput 0 rfl rfl) (k10 _ _)
  exact mainRuns_snoc h10 (.keep rfl rfl) (k11 _ _)

theorem firstConnack_reachable : (mainRuns setEnv .boot).Reachable (firstConnack, firstSteps) :=
  ⟨_, _, ⟨⟨0, rfl⟩, rfl⟩, (firstConnack_run fun _ _ _ _ => trivial).exec⟩

/-- The peer disconnects in the first poll of `coo_mqtt_process`, and `main` connects again. -/
def reconnectSteps : List MainThreadLabel :=
  [.connected, .subscribed 0, .enter, .watchdog, .process, .poll 0 1 ⟨true, false, false⟩,
    .event (.disconnect 0), .input 0, .processed 0, .leave, .disconnect 0, .attempt, .connect 0,
    .connackPoll 0 1, .event (.connack 0), .connackInput 0, .keep]

theorem reconnect_reachable :
    (mainRuns setEnv .boot).Reachable (firstConnack, firstSteps ++ reconnectSteps) := by
  have h0 := firstConnack_run (K := fun _ _ _ => True) fun _ _ _ _ => trivial
  have h1 := mainRuns_snoc h0 (.connected rfl rfl) trivial
  have h2 := mainRuns_snoc h1 (.subscribed 0 rfl) trivial
  have h3 := mainRuns_snoc h2 (.enter rfl rfl) trivial
  have h4 := mainRuns_snoc h3 (.watchdog rfl) trivial
  have h5 := mainRuns_snoc h4 (.process rfl rfl) trivial
  have h6 := mainRuns_snoc h5 (.poll 0 1 ⟨true, false, false⟩ rfl (Nat.zero_le _) le_rfl) trivial
  have h7 := mainRuns_snoc h6 (.event (.disconnect 0) rfl) trivial
  have h8 := mainRuns_snoc h7 (.input 0 rfl rfl) trivial
  have h9 := mainRuns_snoc h8 (.processed rfl) trivial
  have h10 := mainRuns_snoc h9 (.leave rfl rfl) trivial
  have h11 := mainRuns_snoc h10 (.disconnect 0 rfl) trivial
  have h12 := mainRuns_snoc h11 (.attempt rfl rfl) trivial
  have h13 := mainRuns_snoc h12 (.connect 0 rfl) trivial
  have h14 := mainRuns_snoc h13 (.connackPoll 0 1 rfl (Nat.zero_le _)) trivial
  have h15 := mainRuns_snoc h14 (.event (.connack 0) rfl) trivial
  have h16 := mainRuns_snoc h15 (.connackInput 0 rfl rfl) trivial
  exact ⟨_, _, ⟨⟨0, rfl⟩, rfl⟩, (mainRuns_snoc h16 (.keep rfl rfl) trivial).exec⟩

/-! ## Runs -/

/-- **Connection discipline.** When a run of the main thread with the steps `ls` goes on with a call
of `mqtt_connect`, no transport is open. When it goes on with the return of `coo_mqtt_connect`, the
transport of the last `mqtt_connect` is open, a CONNACK with result 0 came for it, and no DISCONNECT
came after that. -/
theorem connection_discipline (h : (mainRuns env w).Reachable (b, ls))
    (hst : MainThreadStep env b l t) :
    (l = .attempt → (linkAfter ls).isOpen = false) ∧
      (l = .connected →
        (linkAfter ls).lastOpen = true ∧ (linkAfter ls).acknowledged = true) := by
  have hlinked := linked_of_reachable h
  constructor
  · rintro rfl
    cases hst with
    | attempt hpc hflag => rw [hlinked.isOpen, hpc, hflag]; rfl
  · rintro rfl
    cases hst with
    | connected hpc hflag =>
      refine ⟨?_, hlinked.acknowledged hflag⟩
      rw [hlinked.lastOpen, hpc, hflag]
      rfl

/-- A first `coo_mqtt_connect` returns, and after a disconnect a second one. -/
theorem firstConnack_disciplined :
    ((linkAfter firstSteps).lastOpen = true ∧ (linkAfter firstSteps).acknowledged = true) ∧
      (linkAfter (firstSteps ++ reconnectSteps)).lastOpen = true ∧
      (linkAfter (firstSteps ++ reconnectSteps)).acknowledged = true :=
  ⟨(connection_discipline firstConnack_reachable (.connected rfl rfl)).2 rfl,
    (connection_discipline reconnect_reachable (.connected rfl rfl)).2 rfl⟩

end Connection

end Tib
