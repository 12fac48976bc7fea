import HispecTib.Proofs.MainThread

/-!
# The watchdog

The watchdog resets the chip `WDT_TIMEOUT_MS` after the last `wdt_feed`. The main thread feeds it
where it enters the body of the inner loop and nowhere else.

* `fedInTime_step_iff`: only a blocking call can be too late, when it takes more than what is left.
* `Paced`: the inner loop polls less than `WDT_FEED_INTERVAL_MS` after the last feed.
* `clock_le_of_exec`: what a run blocks bounds the time since the last feed. `startup_inTime` is the
  way to the first feed, `Paced.phase_inTime` the way out of the inner loop and back into it.
* `fedInTime_iff`: the runs that are in time, and the polls and phases that always are.
-/

open CLib

namespace Tib

/-- For how long `k_msleep` or `zsock_poll` blocks. -/
def MainThreadLabel.blocks : MainThreadLabel → Option Nat
  | .networkSleep d | .retrySleep d | .connackPoll d _ | .poll d _ _ => some d
  | _ => none

/-- An installed watchdog was fed at most `WDT_TIMEOUT_MS` ago. -/
def MainThread.FedInTime (b : MainThread) : Prop := b.wdt → b.clock - b.fed ≤ wdtTimeoutMs

/-- With a watchdog installed, the step does not block for longer than the watchdog waits. -/
def WakesInTime (b : MainThread) (l : MainThreadLabel) : Prop :=
  b.wdt → ∀ d ∈ l.blocks, d ≤ b.fed + wdtTimeoutMs - b.clock

section Watchdog

variable {env : Env} {w : World} {b t : MainThread} {l : MainThreadLabel}

/-! ## Time -/

/-- What a step does to the clock and to the watchdog. -/
inductive Elapse (b : MainThread) (l : MainThreadLabel) (t : MainThread) : Prop
  | fed (hl : l.blocks = none) (hfed : t.fed = t.clock)
  | passed (hwdt : t.wdt = b.wdt) (hfed : t.fed = b.fed)
      (hclock : t.clock = b.clock + l.blocks.getD 0)

theorem MainThreadStep.elapse (hst : MainThreadStep env b l t) : Elapse b l t := by
  cases hst with
  | watchdogInit ok h => exact .fed rfl rfl
  | watchdog h =>
    by_cases hdue : b.feedDue
    · exact .fed rfl (if_pos hdue)
    · exact .passed rfl (if_neg hdue) rfl
  | _ => exact .passed rfl rfl rfl

/-- **Steps.** -/
theorem fedInTime_step_iff (hb : b.FedInTime) (hst : MainThreadStep env b l t) :
    t.FedInTime ↔ WakesInTime b l := by
  cases hst.elapse with
  | fed hl hfed =>
    refine iff_of_true (fun _ => ?_) fun _ d hd => ?_
    · rw [hfed, Nat.sub_self]
      exact Nat.zero_le _
    · rw [hl] at hd
      cases hd
  | passed hwdt hfed hclock =>
    rw [MainThread.FedInTime, WakesInTime, hwdt, hfed, hclock]
    refine imp_congr_right fun hon => ?_
    have hin := hb hon
    cases l.blocks with
    | none => exact iff_of_true hin nofun
    | some d =>
      simp only [Option.getD_some, Option.mem_some_iff, forall_eq']
      omega

/-! ## The pace of the inner loop -/

/-- In the body of the inner loop, up to the poll of `coo_mqtt_process`. -/
def MainPc.isFed : MainPc → Bool
  | .draining | .publishing _ | .polling => true
  | _ => false

/-- The invariant: `last_wdt_feed` is not after the last feed, and in the body of the inner loop the
watchdog is not due. -/
structure MainThread.Paced (b : MainThread) : Prop where
  last_le : b.lastWdtFeed ≤ b.fed
  fed_le : b.fed ≤ b.clock
  notDue : b.pc.isFed → b.feedDue = false

/-- A step that does not feed and does not lead into the body. -/
theorem MainThread.Paced.stay (h : b.Paced) (hlast : t.lastWdtFeed = b.lastWdtFeed)
    (hfed : t.fed = b.fed) (hclock : b.clock ≤ t.clock) (hpc : t.pc.isFed = false) : t.Paced := by
  refine ⟨?_, ?_, fun hin => absurd (hpc.symm.trans hin) Bool.false_ne_true⟩
  · rw [hlast, hfed]
    exact h.last_le
  · rw [hfed]
    exact h.fed_le.trans hclock

/-- The feed, when it is due. -/
theorem MainThread.Paced.feed (h : b.Paced) :
    MainThread.Paced
      { b with
        pc := .draining
        lastWdtFeed := if b.feedDue then b.clock else b.lastWdtFeed
        fed := if b.feedDue then b.clock else b.fed } := by
  by_cases hdue : b.feedDue
  · simp only [hdue, if_true]
    refine ⟨le_rfl, le_rfl, fun _ => ?_⟩
    simp [MainThread.feedDue]
  · simp only [hdue]
    exact ⟨h.last_le, h.fed_le, fun _ => Bool.eq_false_of_not_eq_true hdue⟩

theorem MainThreadStep.paced (hst : MainThreadStep env b l t) (hb : b.Paced) : t.Paced := by
  cases hst with
  | watchdogInit ok h => exact ⟨hb.last_le.trans hb.fed_le, le_rfl, nofun⟩
  | watchdog h => exact hb.feed
  | take h _ | publish rc h | process h _ =>
    exact ⟨hb.last_le, hb.fed_le, fun _ => hb.notDue (by rw [h]; rfl)⟩
  | thread _ _ | networkEvent online _ _ | event evt _ => exact ⟨hb.last_le, hb.fed_le, hb.notDue⟩
  | networkSleep d h _ _ => exact hb.stay rfl rfl (Nat.le_add_right ..) (by rw [h]; rfl)
  | retrySleep d h _ => exact hb.stay rfl rfl (Nat.le_add_right ..) rfl
  | connackPoll d rc h _ =>
    refine hb.stay rfl rfl (Nat.le_add_right ..) ?_
    dsimp only
    split_ifs <;> rfl
  | poll d rc revents h _ _ =>
    refine hb.stay rfl rfl (Nat.le_add_right ..) ?_
    dsimp only [pollNext]
    split_ifs <;> rfl
  | setup _ _ | connect _ _ | processed _ =>
    refine hb.stay rfl rfl le_rfl ?_
    dsimp only
    split_ifs <;> rfl
  | _ => exact hb.stay rfl rfl le_rfl rfl

theorem paced_of_reachable (h : (mainThread env w).Reachable b) : b.Paced := by
  refine h.of_steps (P := MainThread.Paced) ?_ fun b l t hb hst => MainThreadStep.paced hst hb
  rintro b ⟨t, rfl⟩
  exact ⟨le_rfl, Nat.zero_le _, nofun⟩

/-- The polls of `coo_mqtt_process` that are in time whatever came before. -/
theorem MainThread.Paced.poll_inTime (h : b.Paced) (hpc : b.pc = .polling) {d : Nat}
    (hd : d ≤ wdtTimeoutMs - wdtFeedIntervalMs) (rc : Int) (revents : Revents) :
    WakesInTime b (.poll d rc revents) := by
  intro hon d' hd'
  obtain rfl : d = d' := Option.some.inj hd'
  have hdue := h.notDue (by rw [hpc]; rfl)
  have hlast := h.last_le
  rw [MainThread.feedDue, hon, Bool.true_and, decide_eq_false_iff_not] at hdue
  dsimp only [wdtTimeoutMs, wdtFeedIntervalMs] at hdue hd ⊢
  omega

/-! ## The waits of a phase -/

/-- For how long a run blocks, in all. -/
def waits (ls : List MainThreadLabel) : Nat := (ls.map fun l => l.blocks.getD 0).sum

/-- The time since the last feed grows by what a run blocks, at most. -/
theorem clock_le_of_exec {c : Nat} {ls : List MainThreadLabel}
    (h : (mainThread env w).Exec b ls t) (hb : b.wdt → b.clock ≤ b.fed + c) :
    t.wdt → t.clock ≤ t.fed + (c + waits ls) := by
  refine h.keeps_add (fun l : MainThreadLabel => l.blocks.getD 0)
    (P := fun n (s : MainThread) => s.wdt → s.clock ≤ s.fed + n) ?_ hb
  intro n s l u hs hst hon
  cases MainThreadStep.elapse hst with
  | fed _ hfed => omega
  | passed hwdt hfed hclock =>
    have hin := hs (hwdt ▸ hon)
    omega

/-- From `watchdog_init` on, a run is in time while it blocks for at most `WDT_TIMEOUT_MS` in all:
this bounds the wait for the network and the first `coo_mqtt_connect`. -/
theorem startup_inTime (hs : (mainThread env w).start b) {ls : List MainThreadLabel}
    (h : (mainThread env w).Exec b ls t) (hwaits : waits ls ≤ wdtTimeoutMs) : t.FedInTime := by
  have hboot : b.wdt = false := by
    obtain ⟨t, rfl⟩ := hs
    rfl
  intro hon
  have hclock := clock_le_of_exec (c := 0) h (fun hwdt => by simp [hboot] at hwdt) hon
  omega

/-- From the body of the inner loop on, a run is in time while it blocks for at most
`WDT_TIMEOUT_MS - WDT_FEED_INTERVAL_MS` in all: this bounds the way out of the loop, the
`coo_mqtt_connect` after it and the way back into the body. -/
theorem MainThread.Paced.phase_inTime (hb : b.Paced) (hpc : b.pc.isFed) {ls : List MainThreadLabel}
    (h : (mainThread env w).Exec b ls t) (hwaits : waits ls ≤ wdtTimeoutMs - wdtFeedIntervalMs) :
    t.FedInTime := by
  have hfresh : b.wdt → b.clock ≤ b.fed + wdtFeedIntervalMs := by
    intro hon
    have hdue := hb.notDue hpc
    have hlast := hb.last_le
    rw [MainThread.feedDue, hon, Bool.true_and, decide_eq_false_iff_not] at hdue
    omega
  intro hon
  have hclock := clock_le_of_exec h hfresh hon
  dsimp only [wdtTimeoutMs, wdtFeedIntervalMs] at *
  omega

/-! ## Runs -/

/-- **The watchdog.** In a run of the main thread, every state is in time exactly when every
`k_msleep` and `zsock_poll` wakes in time. The poll of `coo_mqtt_process` does when it takes at most
`WDT_TIMEOUT_MS - WDT_FEED_INTERVAL_MS`; so do all waits from the body of the inner loop until the
thread is back in it, when they take that in all, and those from `watchdog_init` to the first entry
when they take `WDT_TIMEOUT_MS` in all. -/
theorem fedInTime_iff (hs : (mainThread env w).start b) :
    (∀ ls t, (mainThread env w).ExecWith (fun _ _ t => t.FedInTime) b ls t ↔
      (mainThread env w).ExecWith (fun b l _ => WakesInTime b l) b ls t) ∧
    (∀ t d, (mainThread env w).Reachable t → t.pc = .polling →
      d ≤ wdtTimeoutMs - wdtFeedIntervalMs →
      ∀ rc revents, WakesInTime t (.poll d rc revents)) ∧
    (∀ ls t, (mainThread env w).Exec b ls t → waits ls ≤ wdtTimeoutMs → t.FedInTime) ∧
    ∀ s ls t, (mainThread env w).Reachable s → s.pc.isFed → (mainThread env w).Exec s ls t →
      waits ls ≤ wdtTimeoutMs - wdtFeedIntervalMs → t.FedInTime := by
  have hboot : b.FedInTime := by
    obtain ⟨t, rfl⟩ := hs
    nofun
  refine ⟨?_, ?_, fun ls t h => startup_inTime hs h, ?_⟩
  · intro ls t
    refine Sys.execWith_iff (S := mainThread env w) (P := MainThread.FedInTime) ?_ hs hboot
    exact fun b l t hr hb hst => fedInTime_step_iff hb hst
  · exact fun t d hr hpc hd => (paced_of_reachable hr).poll_inTime hpc hd
  · exact fun s ls t hr hpc h => (paced_of_reachable hr).phase_inTime hpc h

end Watchdog

/-! ## A first connection -/

section Runs

variable {K : MainThread → MainThreadLabel → MainThread → Prop}

/-- With a watchdog, in the `zsock_poll` of the first `coo_mqtt_connect`. -/
def firstPoll : MainThread :=
  { MainThread.boot .boot 0 with pc := .awaitingConnack, networkOnline := true, wdt := true }

/-- Nothing blocks on the way there. -/
theorem firstPoll_run (hK : ∀ s l t, l.blocks = none → K s l t) :
    ∃ ls, (mainThread setEnv .boot).ExecWith K (.boot .boot 0) ls firstPoll := by
  have h0 : (mainThread setEnv .boot).ExecWith K (.boot .boot 0) [] (.boot .boot 0) := .nil _
  have h1 := h0.snoc (MainThreadStep.watchdogInit true rfl) (hK _ _ _ rfl)
  have h2 := h1.snoc (MainThreadStep.setup true rfl) (hK _ _ _ rfl)
  have h3 := h2.snoc (MainThreadStep.networkEvent true nofun nofun) (hK _ _ _ rfl)
  have h4 := h3.snoc (MainThreadStep.networkReady rfl rfl) (hK _ _ _ rfl)
  have h5 := h4.snoc (MainThreadStep.initialized rfl) (hK _ _ _ rfl)
  have h6 := h5.snoc (MainThreadStep.attempt rfl rfl) (hK _ _ _ rfl)
  exact ⟨_, h6.snoc (MainThreadStep.connect 0 rfl) (hK _ _ _ rfl)⟩

/-- The CONNACK takes all of `MSECS_NET_POLL_TIMEOUT`. -/
theorem connack_too_late :
    ∃ b, (mainThread setEnv .boot).Reachable b ∧ ¬ b.FedInTime := by
  obtain ⟨ls, hrun⟩ := firstPoll_run (K := fun _ _ _ => True) fun _ _ _ _ => trivial
  have hpoll := hrun.exec.snoc
    (MainThreadStep.connackPoll msecsNetPollTimeout 1 rfl le_rfl)
  refine ⟨_, ⟨_, _, ⟨0, rfl⟩, hpoll⟩, fun hin => ?_⟩
  exact absurd (hin rfl) (by decide)

/-- The CONNACK comes at once, and the first poll of `coo_mqtt_process` takes 4 s. -/
theorem quick_connack_inTime :
    ∃ ls b, (mainThread setEnv .boot).ExecWith (fun _ _ t => t.FedInTime) (.boot .boot 0) ls b ∧
      b.wdt = true ∧ b.clock = 4000 := by
  have hquiet (s : MainThread) (l : MainThreadLabel) (t : MainThread) (hl : l.blocks = none) :
      WakesInTime s l := by
    intro _ d hd
    rw [hl] at hd
    cases hd
  obtain ⟨ls, h0⟩ := firstPoll_run hquiet
  have h1 := h0.snoc (MainThreadStep.connackPoll 0 1 rfl (Nat.zero_le _)) fun _ _ hd => by
    obtain rfl := Option.some.inj hd
    exact Nat.zero_le _
  have h2 := h1.snoc (MainThreadStep.event (.connack 0) rfl) (hquiet _ _ firstPoll rfl)
  have h3 := h2.snoc (MainThreadStep.connackInput 0 rfl rfl) (hquiet _ _ firstPoll rfl)
  have h4 := h3.snoc (MainThreadStep.keep rfl rfl) (hquiet _ _ firstPoll rfl)
  have h5 := h4.snoc (MainThreadStep.connected rfl rfl) (hquiet _ _ firstPoll rfl)
  have h6 := h5.snoc (MainThreadStep.subscribed 0 rfl) (hquiet _ _ firstPoll rfl)
  have h7 := h6.snoc (MainThreadStep.enter rfl rfl) (hquiet _ _ firstPoll rfl)
  have h8 := h7.snoc (MainThreadStep.watchdog rfl) (hquiet _ _ firstPoll rfl)
  have h9 := h8.snoc (MainThreadStep.process rfl rfl) (hquiet _ _ firstPoll rfl)
  have h10 := h9.snoc (MainThreadStep.poll 4000 0 ⟨false, false, false⟩ rfl le_rfl (by decide))
    ((fedInTime_iff ⟨0, rfl⟩).2.1 _ _ ⟨_, _, ⟨0, rfl⟩, h9.exec⟩ rfl (by decide) _ _)
  exact ⟨_, _, ((fedInTime_iff ⟨0, rfl⟩).1 _ _).mpr h10, rfl, rfl⟩

end Runs

end Tib
