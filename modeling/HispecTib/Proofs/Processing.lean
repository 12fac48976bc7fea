import HispecTib.Commons.MqttClient
import HispecTib.Proofs.Connection

/-!
# What `coo_mqtt_process` reports

* `reports_iff`: when the return code of one call says what its calls have found.
* `follows_of_reachable`: the main thread returns the code of `cooMqttProcess` each time.
* `process_reports`: for the calls and for all runs of the main thread.
-/

open CLib

namespace Tib

/-! ## One call -/

section Calls

variable (c : ProcessCalls)

/-- The poll failed, or it reported more than data. -/
def SocketFailed : Prop :=
  c.pollRc < 0 ∨
    0 < c.pollRc ∧ (c.revents.pollhup ∨ c.revents.pollerr ∨ c.revents.pollnval)

/-- `mqtt_input` or `mqtt_live` was called and failed. -/
def CallFailed : Prop :=
  (c.pollRc ≠ 0 ∧ c.revents.pollin) ∧ c.inputRc < 0 ∨ c.pollRc = 0 ∧ c.liveRc < 0

/-- The input was there and is consumed, or nothing came and `mqtt_live` succeeded. -/
def CallsSucceeded : Prop :=
  0 < c.pollRc ∧ c.revents.pollin ∧ c.inputRc = 0 ∨ c.pollRc = 0 ∧ c.liveRc = 0

/-- The return code is negative after a failure, and 0 only after a success. -/
structure Reports (rc : Int) : Prop where
  failure : SocketFailed c ∨ CallFailed c → rc < 0
  success : rc = 0 → CallsSucceeded c

/-- The poll timed out; or there was input, and it could not be read, or the socket was reported
closed with it, or the poll reported nothing but the input. -/
def PollOrInput : Prop :=
  c.pollRc = 0 ∨ c.revents.pollin ∧
    (c.inputRc < 0 ∨ c.inputRc = 0 ∧ (c.revents.pollhup ∨ c.revents.pollerr) ∨
      0 < c.pollRc ∧
        ¬ (c.revents.pollhup ∨ c.revents.pollerr ∨ c.revents.pollnval))

variable {c}

/-- After a timeout, the code is that of `mqtt_live`. -/
theorem reports_timeout (hpoll : c.pollRc = 0) : Reports c (cooMqttProcess c) := by
  have hcode : cooMqttProcess c = c.liveRc := by
    by_cases hlive : c.liveRc = 0 <;> simp [cooMqttProcess, hpoll, hlive]
  rw [hcode]
  refine ⟨fun hfail => ?_, fun hlive => Or.inr ⟨hpoll, hlive⟩⟩
  unfold SocketFailed CallFailed at hfail
  omega

/-- Without POLLIN, the code is 0 and nothing is done. -/
theorem not_reports_ignored (hpoll : c.pollRc ≠ 0) (hin : c.revents.pollin = false) :
    ¬ Reports c (cooMqttProcess c) := by
  have hcode : cooMqttProcess c = 0 := by
    simp [cooMqttProcess, hpoll, hin]
  intro h
  rcases h.success hcode with ⟨-, hin', -⟩ | ⟨hzero, -⟩
  · rw [hin] at hin'
    cases hin'
  · exact hpoll hzero

/-- After a poll that did not time out, the socket is alive if only the input was reported. -/
theorem not_socketFailed (hpoll : c.pollRc ≠ 0) : ¬ SocketFailed c ↔
    0 < c.pollRc ∧ ¬ (c.revents.pollhup ∨ c.revents.pollerr ∨ c.revents.pollnval) := by
  unfold SocketFailed
  rw [not_or, not_lt, not_and]
  constructor
  · rintro ⟨hle, hnone⟩
    have hpos := lt_of_le_of_ne hle hpoll.symm
    exact ⟨hpos, hnone hpos⟩
  · exact fun ⟨hpos, hnone⟩ => ⟨hpos.le, fun _ => hnone⟩

/-- With POLLIN, the input comes first, and the other events count after a success only. -/
theorem reports_input (hpoll : c.pollRc ≠ 0) (hin : c.revents.pollin = true) :
    Reports c (cooMqttProcess c) ↔
      c.inputRc < 0 ∨ c.inputRc = 0 ∧ (c.revents.pollhup ∨ c.revents.pollerr) ∨
        0 < c.pollRc ∧
          ¬ (c.revents.pollhup ∨ c.revents.pollerr ∨ c.revents.pollnval) := by
  have hcode : cooMqttProcess c = if c.inputRc ≠ 0 then c.inputRc
      else if c.revents.pollhup ∨ c.revents.pollerr then negEnotconn else 0 := by
    simp [cooMqttProcess, hpoll, hin]
  have hcall : CallFailed c ↔ c.inputRc < 0 := by
    simp [CallFailed, hpoll, hin]
  rw [← not_socketFailed hpoll, hcode]
  by_cases hzero : c.inputRc = 0
  · rw [if_neg (not_not.mpr hzero)]
    have hok : ¬ c.inputRc < 0 := hzero.not_lt
    by_cases hclosed : (c.revents.pollhup ∨ c.revents.pollerr : Prop)
    · rw [if_pos hclosed]
      have hneg : negEnotconn < 0 := by decide
      exact iff_of_true ⟨fun _ => hneg, fun h => absurd h hneg.ne⟩
        (Or.inr (Or.inl ⟨hzero, hclosed⟩))
    · rw [if_neg hclosed, or_iff_right hok, or_iff_right (not_and_of_not_right _ hclosed)]
      constructor
      · exact fun h hfail => lt_irrefl 0 (h.failure (Or.inl hfail))
      · intro halive
        refine ⟨fun hfail => absurd hfail (not_or.mpr ⟨halive, mt hcall.mp hok⟩), fun _ => ?_⟩
        exact Or.inl ⟨((not_socketFailed hpoll).mp halive).1, hin, hzero⟩
  · rw [if_pos hzero, or_iff_right (not_and_of_not_left _ hzero)]
    constructor
    · intro h
      exact or_iff_not_imp_right.mpr fun hfail => h.failure (Or.inl (not_not.mp hfail))
    · intro h
      refine ⟨fun hfail => ?_, fun hz => absurd hz hzero⟩
      rcases h with hneg | halive
      · exact hneg
      · exact hcall.mp (hfail.resolve_left halive)

theorem reports_iff (c : ProcessCalls) : Reports c (cooMqttProcess c) ↔ PollOrInput c := by
  unfold PollOrInput
  by_cases hpoll : c.pollRc = 0
  · exact iff_of_true (reports_timeout hpoll) (Or.inl hpoll)
  · rw [or_iff_right hpoll]
    cases hin : c.revents.pollin with
    | false => exact iff_of_false (not_reports_ignored hpoll hin) nofun
    | true => exact (reports_input hpoll hin).trans (and_iff_right rfl).symm

end Calls

/-! ## All calls of a run -/

/-- What a step adds to the calls of the current `coo_mqtt_process`. The poll is the first one; its
POLLNVAL, which no step looks at, comes with the label. -/
def ProcessCalls.after (c : ProcessCalls) : MainThreadLabel × Bool → ProcessCalls
  | (.poll _ rc revents, pollnval) =>
    ⟨rc, ⟨revents.pollin, revents.pollhup, revents.pollerr, pollnval⟩, 0, 0⟩
  | (.input rc, _) => { c with inputRc := rc }
  | (.live rc, _) => { c with liveRc := rc }
  | _ => c

/-- The main thread, with the calls of the last `coo_mqtt_process`. -/
def processRuns (env : Env) (w : World) : Sys where
  St := MainThread × ProcessCalls
  Label := MainThreadLabel × Bool
  start := fun s => (mainThread env w).start s.1 ∧ s.2 = ⟨0, ⟨false, false, false, false⟩, 0, 0⟩
  step := fun s l t => MainThreadStep env s.1 l.1 t.1 ∧ t.2 = s.2.after l

section Runs

variable {env : Env} {w : World} {b t : MainThread} {c : ProcessCalls} {l : MainThreadLabel}

/-- The invariant: where the main thread is in `coo_mqtt_process`, and what it returns, agree with
the calls. -/
def Follows (c : ProcessCalls) : MainPc → Prop
  | .reading revents => c.pollRc ≠ 0 ∧ c.revents.pollin = true ∧
      revents.pollhup = c.revents.pollhup ∧ revents.pollerr = c.revents.pollerr
  | .keepingAlive => c.pollRc = 0
  | .processed rc => rc = cooMqttProcess c
  | _ => True

theorem follows_poll (rc : Int) (revents : Revents) (pollnval : Bool) :
    Follows ⟨rc, ⟨revents.pollin, revents.pollhup, revents.pollerr, pollnval⟩, 0, 0⟩
      (pollNext rc revents) := by
  unfold pollNext
  by_cases hrc : rc = 0
  · rw [if_neg (not_not.mpr hrc)]
    exact hrc
  · rw [if_pos hrc]
    cases hin : revents.pollin with
    | true => exact ⟨hrc, rfl, rfl, rfl⟩
    | false =>
      change 0 = cooMqttProcess _
      simp [cooMqttProcess, hrc]

theorem Follows.input {revents : Revents} (h : Follows c (.reading revents)) (rc : Int) :
    Follows { c with inputRc := rc } (.processed (inputReturn rc revents)) := by
  obtain ⟨hpoll, hin, hhup, herr⟩ := h
  change inputReturn rc revents = cooMqttProcess _
  simp only [inputReturn, cooMqttProcess, if_pos hpoll, if_pos hin, hhup, herr, negEnotconn]

theorem Follows.live (h : Follows c .keepingAlive) (rc : Int) :
    Follows { c with liveRc := rc } (.processed rc) := by
  have hpoll : ¬ c.pollRc ≠ 0 := not_not.mpr h
  change rc = cooMqttProcess _
  by_cases hrc : rc = 0 <;> simp only [cooMqttProcess, if_neg hpoll, hrc] <;> simp [hrc]

theorem MainThreadStep.follows (hst : MainThreadStep env b l t) (pollnval : Bool)
    (h : Follows c b.pc) : Follows (c.after (l, pollnval)) t.pc := by
  cases hst with
  | thread _ _ | networkEvent _ _ _ | event _ _ | networkSleep _ _ _ _ => exact h
  | poll d rc revents _ _ _ => exact follows_poll rc revents pollnval
  | input rc hpc _ =>
    rw [hpc] at h
    exact h.input rc
  | live rc hpc =>
    rw [hpc] at h
    exact h.live rc
  | setup iface _ | connect rc _ | connackPoll d rc _ _ | processed _ =>
    dsimp only
    split_ifs <;> trivial
  | _ => trivial

theorem follows_of_reachable (h : (processRuns env w).Reachable (b, c)) : Follows c b.pc := by
  refine h.of_steps (P := fun s : MainThread × ProcessCalls => Follows s.2 s.1.pc) ?_ ?_
  · rintro ⟨b, c⟩ ⟨⟨t, hb⟩, -⟩
    obtain rfl : b = .boot w t := hb
    trivial
  · rintro (s : MainThread × ProcessCalls) (l : MainThreadLabel × Bool)
      (t : MainThread × ProcessCalls) hs ⟨hst, hcalls⟩
    rw [hcalls]
    exact MainThreadStep.follows hst l.2 hs

/-- The main loop comes back to `coo_mqtt_process` again and again, each time on a failed socket,
and each time it returns 0. -/
structure Spins (σ : Nat → MainThread × ProcessCalls) : Prop where
  again : ∀ n, ∃ m ≥ n, ∃ rc, (σ m).1.pc = .processed rc
  ignored : ∀ m rc, (σ m).1.pc = .processed rc → rc = 0 ∧ SocketFailed (σ m).2

/-- **Processing.** One `coo_mqtt_process` reports what its calls have found exactly when they meet
`PollOrInput`; so does each one in every run of the main thread; and an infinite run in which each
one meets it does not spin. -/
theorem process_reports (env : Env) (w : World) :
    (∀ c, Reports c (cooMqttProcess c) ↔ PollOrInput c) ∧
    (∀ b c rc, (processRuns env w).Reachable (b, c) → b.pc = .processed rc →
      (Reports c rc ↔ PollOrInput c)) ∧
    ∀ σ : Nat → MainThread × ProcessCalls, (processRuns env w).Forever σ →
      (∀ n rc, (σ n).1.pc = .processed rc → PollOrInput (σ n).2) → ¬ Spins σ := by
  have hrun : ∀ b c rc, (processRuns env w).Reachable (b, c) → b.pc = .processed rc →
      (Reports c rc ↔ PollOrInput c) := by
    intro b c rc h hpc
    have hfollows := follows_of_reachable h
    rw [hpc] at hfollows
    have hcode : rc = cooMqttProcess c := hfollows
    rw [hcode]
    exact reports_iff c
  refine ⟨reports_iff, hrun, fun σ hσ hcond hspins => ?_⟩
  obtain ⟨m, -, rc, hpc⟩ := hspins.again 0
  obtain ⟨rfl, hfailed⟩ := hspins.ignored m rc hpc
  have hreports := (hrun _ _ _ (hσ.reachable m) hpc).mpr (hcond m 0 hpc)
  exact lt_irrefl 0 (hreports.failure (Or.inl hfailed))

/-! ## A hang-up without input -/

/-- The run can be watched. -/
theorem processRuns_reachable {ls : List MainThreadLabel}
    (h : (mainRuns env w).Reachable (b, ls)) : ∃ c, (processRuns env w).Reachable (b, c) := by
  refine h.of_steps (P := fun s : MainThread × List MainThreadLabel =>
    ∃ c, (processRuns env w).Reachable (s.1, c)) ?_ ?_
  · rintro s ⟨hs, -⟩
    exact ⟨_, .start ⟨hs, rfl⟩⟩
  · rintro s l t ⟨c, hc⟩ ⟨hst, -⟩
    exact ⟨_, hc.next (l := (l, false)) ⟨hst, rfl⟩⟩

theorem processRuns_next (h : (processRuns env w).Reachable (b, c))
    (hst : MainThreadStep env b l t) :
    (processRuns env w).Reachable (t, c.after (l, false)) :=
  h.next (l := (l, false)) ⟨hst, rfl⟩

/-- The poll reports POLLHUP and nothing else. -/
def hangUp : ProcessCalls := ⟨1, ⟨false, true, false, false⟩, 0, 0⟩

/-- The main thread after a first connection, somewhere in the loop. -/
def hungUp (pc : MainPc) : MainThread × ProcessCalls := ({ firstConnack with pc }, hangUp)

/-- One round of the main loop. -/
def hangUpRound : Nat → MainThread × ProcessCalls
  | 0 => hungUp (.processed 0)
  | 1 => hungUp .testing
  | 2 => hungUp .feeding
  | 3 => hungUp .draining
  | _ => hungUp .polling

theorem hungUp_reachable :
    (processRuns setEnv .boot).Reachable (hungUp (.processed 0)) := by
  obtain ⟨c, h⟩ := processRuns_reachable firstConnack_reachable
  have h1 := processRuns_next h (.connected rfl rfl)
  have h2 := processRuns_next h1 (.subscribed 0 rfl)
  have h3 := processRuns_next h2 (.enter rfl rfl)
  have h4 := processRuns_next h3 (.watchdog rfl)
  have h5 := processRuns_next h4 (.process rfl rfl)
  exact processRuns_next h5 (.poll 0 1 ⟨false, true, false⟩ rfl (Nat.zero_le _) le_rfl)

theorem hangUpRound_steps (i : Nat) (hi : i < 5) :
    ∃ l, (processRuns setEnv .boot).step (hangUpRound i) l (hangUpRound ((i + 1) % 5)) := by
  match i, hi with
  | 0, _ => exact ⟨(.processed 0, false), .processed rfl, rfl⟩
  | 1, _ => exact ⟨(.enter, false), .enter rfl rfl, rfl⟩
  | 2, _ => exact ⟨(.watchdog, false), .watchdog rfl, rfl⟩
  | 3, _ => exact ⟨(.process, false), .process rfl rfl, rfl⟩
  | 4, _ =>
    exact ⟨(.poll 0 1 ⟨false, true, false⟩, false),
      .poll 0 1 ⟨false, true, false⟩ rfl (Nat.zero_le _) le_rfl, rfl⟩

/-- The code is 0, and the main loop spins. -/
theorem hangUp_ignored :
    ¬ Reports hangUp (cooMqttProcess hangUp) ∧
      ∃ σ : Nat → MainThread × ProcessCalls, (processRuns setEnv .boot).Forever σ ∧ Spins σ := by
  have hfailed : SocketFailed hangUp := Or.inr ⟨by decide, Or.inl rfl⟩
  have hcalls (i : Nat) : (hangUpRound i).2 = hangUp := by
    unfold hangUpRound
    split <;> rfl
  have hcode (i : Nat) (rc : Int) (hpc : (hangUpRound i).1.pc = .processed rc) : rc = 0 := by
    unfold hangUpRound at hpc
    split at hpc <;> cases hpc
    rfl
  refine ⟨not_reports_ignored (by decide) rfl, fun n => hangUpRound (n % 5), ?_, ?_, ?_⟩
  · exact Sys.forever_of_cycle (by decide) hungUp_reachable hangUpRound_steps
  · intro n
    refine ⟨5 * n, by omega, 0, ?_⟩
    rw [Nat.mul_mod_right]
    rfl
  · intro m rc hpc
    refine ⟨hcode _ rc hpc, ?_⟩
    rw [hcalls]
    exact hfailed

end Runs

end Tib
