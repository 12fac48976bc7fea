import HispecTib.Commons.Network

/-!
# The start of the network and the wait for it

`coo_network_init` registers `net_l4_mgmt_cb` twice, once for each mask, and the second
registration makes the node its own successor.

* `init_visits_first`: the first registration keeps the list.
* `init_unsound`: after a successful start no traversal of the list ends.

`coo_network_wait_ready` counts 100 ms for each sleep, in 32 bits.

* `waitEnds_iff`: when a wait with a timeout ends, and what it returns.
* `honoursTimeout_iff`: the timeout is kept unless the counter wraps before it gets there.
* `wait_down_ends_iff`: from 4294967293 ms on, a wait for a network that stays down never ends.
* `waitForever_iff`: a wait without a timeout ends when the network is up, and only then.
-/

namespace Tib

section Init

variable {xs : List CallbackPtr} {net : NetMgmt}

/-- The traversal ends and visits the callbacks `xs`, and `net_l4_mgmt_cb` once, with its mask. -/
structure CallbacksSound (xs : List CallbackPtr) (net : NetMgmt) : Prop where
  visits : ∃ ys, net.callbacks.Visits ys ∧ xs ⊆ ys ∧ ys.count netL4MgmtCb = 1
  mask_eq : net.eventMask netL4MgmtCb = netL4EventMask

/-- The list when `conn_mgr_all_if_up` is called. -/
theorem init_visits_first (h : net.callbacks.Visits xs) (hnew : netL4MgmtCb ∉ xs) {allIfUp : Int}
    (hfail : allIfUp ≠ 0) (eventCb : NetworkEventCb) :
    (cooNetworkInit true allIfUp eventCb net).2.callbacks.Visits (netL4MgmtCb :: xs) := by
  simp only [cooNetworkInit, Bool.not_true, Bool.false_eq_true, if_false, if_pos hfail]
  exact IntrusiveList.prepend_visits h hnew

/-- A start that succeeds has an interface, and registers the callback twice. -/
theorem init_callbacks {hasIface : Bool} {allIfUp : Int} {eventCb : NetworkEventCb}
    (hok : (cooNetworkInit hasIface allIfUp eventCb net).1 = 0) :
    (cooNetworkInit hasIface allIfUp eventCb net).2.callbacks =
      (net.callbacks.prepend netL4MgmtCb).prepend netL4MgmtCb := by
  cases hasIface with
  | false => exact absurd hok (by simp [cooNetworkInit, negEnetdown])
  | true =>
    by_cases hup : allIfUp = 0
    · subst hup
      rfl
    · simp only [cooNetworkInit, Bool.not_true, Bool.false_eq_true, if_false, ne_eq, hup,
        not_false_eq_true, if_true] at hok

/-- **The callback list.** Whatever is registered before, a successful start leaves a list that no
traversal gets to the end of. -/
theorem init_unsound (h : net.callbacks.Visits xs) (hnew : netL4MgmtCb ∉ xs) {hasIface : Bool}
    {allIfUp : Int} {eventCb : NetworkEventCb}
    (hok : (cooNetworkInit hasIface allIfUp eventCb net).1 = 0) :
    ¬ CallbacksSound xs (cooNetworkInit hasIface allIfUp eventCb net).2 := by
  rintro ⟨⟨ys, hys, -⟩, -⟩
  rw [init_callbacks hok] at hys
  have hfirst := IntrusiveList.prepend_visits h hnew
  exact IntrusiveList.prepend_of_mem hfirst List.mem_cons_self ys hys

end Init

/-- The stack with one callback, at address 1. -/
def oneCallback : NetMgmt where
  callbacks := ⟨some 1, fun _ => none⟩
  handler := fun cb => if cb = 1 then some (.other 1) else none
  eventMask := fun cb => if cb = 1 then [.ipv4AddrAdd] else []
  userEventCb := none

theorem oneCallback_unsound : ¬ CallbacksSound [1] (cooNetworkInit true 0 none oneCallback).2 := by
  have hvisits : oneCallback.callbacks.Visits [1] := .cons .nil
  exact init_unsound hvisits (by decide) rfl

/-- The stack before anything is registered. -/
def noCallbacks : NetMgmt := ⟨⟨none, fun _ => none⟩, fun _ => none, fun _ => [], none⟩

/-- The only callback is its own successor. -/
theorem noCallbacks_looped :
    noCallbacks.callbacks.Visits [] ∧ (cooNetworkInit true 0 none noCallbacks).1 = 0 ∧
      ¬ CallbacksSound [] (cooNetworkInit true 0 none noCallbacks).2 := by
  have hempty : noCallbacks.callbacks.Visits [] := .nil
  have hfirst := IntrusiveList.prepend_visits hempty (x := netL4MgmtCb) List.not_mem_nil
  refine ⟨hempty, rfl, fun h => ?_⟩
  obtain ⟨ys, hys, -⟩ := h.visits
  exact IntrusiveList.prepend_of_mem hfirst List.mem_cons_self ys hys

/-! ## The wait -/

section Wait

open WhileLoop NetworkWait

variable {reads : Nat → Bool} {timeoutMs : UInt32} {n k : Nat} {rc : Int}

/-- `coo_network_wait_ready` returns `rc` after `sleeps` sleeps. -/
def WaitEnds (reads : Nat → Bool) (timeoutMs : UInt32) (sleeps : Nat) (rc : Int) : Prop :=
  ∃ fuel, cooNetworkWaitReady reads timeoutMs fuel = some (rc, sleeps)

/-- The number of sleeps that a timeout stands for, rounded up. -/
def timeoutSleeps (timeoutMs : UInt32) : Nat := (timeoutMs.toNat + 99) / 100

/-- The network comes up in the sleep number `k`: the loop read it as down before, and both the
loop and the test behind it read it as up after that sleep. -/
structure UpIn (reads : Nat → Bool) (k : Nat) : Prop where
  pos : 0 < k
  down : ∀ i < k, reads i = false
  up : reads k = true ∧ reads (k + 1) = true

/-- The wait keeps its timeout, whatever the network does. -/
structure HonoursTimeout (timeoutMs : UInt32) : Prop where
  timed_out : ∀ reads : Nat → Bool, (∀ i, reads i = false) →
    WaitEnds reads timeoutMs (timeoutSleeps timeoutMs) negEtimedout
  in_time : ∀ (reads : Nat → Bool) (k : Nat), UpIn reads k → k ≤ timeoutSleeps timeoutMs →
    WaitEnds reads timeoutMs k 0

/-- The counter after `n` sleeps has lost its carries. -/
theorem sleep_iterate (n : Nat) :
    (sleep^[n] start).elapsed.toNat = 100 * n % 4294967296 ∧ (sleep^[n] start).sleeps = n := by
  induction n with
  | zero => exact ⟨rfl, rfl⟩
  | succ n ih =>
    obtain ⟨helapsed, hsleeps⟩ := ih
    rw [Function.iterate_succ_apply']
    refine ⟨?_, congrArg (· + 1) hsleeps⟩
    have hinterval : NetworkWait.checkInterval.toNat = 100 := rfl
    rw [sleep, UInt32.toNat_add, helapsed, hinterval]
    omega

/-- After `i` sleeps the wait sleeps once more. -/
def GoesOn (reads : Nat → Bool) (timeoutMs : UInt32) (i : Nat) : Prop :=
  reads i = false ∧ 100 * i % 4294967296 < timeoutMs.toNat

theorem goesOn_iff (i : Nat) :
    (!reads (sleep^[i] start).sleeps && decide ((sleep^[i] start).elapsed < timeoutMs)) = true ↔
      GoesOn reads timeoutMs i := by
  obtain ⟨helapsed, hsleeps⟩ := sleep_iterate i
  rw [Bool.and_eq_true, Bool.not_eq_true', decide_eq_true_eq, hsleeps, UInt32.lt_iff_toNat_lt,
    helapsed]
  rfl

/-- The loop ends at the first test that does not send it on. -/
theorem endsAfter_iff :
    EndsAfter (fun s : NetworkWait => !reads s.sleeps && s.elapsed < timeoutMs) sleep start n ↔
      (∀ i < n, GoesOn reads timeoutMs i) ∧ ¬ GoesOn reads timeoutMs n := by
  constructor
  · rintro ⟨hbefore, hafter⟩
    refine ⟨fun i hi => (goesOn_iff i).mp (hbefore i hi), fun hn => ?_⟩
    exact absurd ((goesOn_iff n).mpr hn) (Bool.eq_false_iff.mp hafter)
  · rintro ⟨hbefore, hafter⟩
    refine ⟨fun i hi => (goesOn_iff i).mpr (hbefore i hi), Bool.eq_false_iff.mpr fun hn => ?_⟩
    exact hafter ((goesOn_iff n).mp hn)

theorem waitEnds_iff (h : timeoutMs ≠ 0) : WaitEnds reads timeoutMs n rc ↔
    ((∀ i < n, GoesOn reads timeoutMs i) ∧ ¬ GoesOn reads timeoutMs n) ∧
      rc = if reads (n + 1) then 0 else negEtimedout := by
  rw [← endsAfter_iff]
  simp only [WaitEnds, cooNetworkWaitReady, if_neg h, exists_run_map_iff, Prod.mk.injEq,
    (sleep_iterate _).2]
  constructor
  · rintro ⟨m, hm, hrc, rfl⟩
    exact ⟨hm, by cases hlast : reads (m + 1) <;> simp [hlast, ← hrc]⟩
  · rintro ⟨hn, rfl⟩
    exact ⟨n, hn, by cases reads (n + 1) <;> simp, rfl⟩

/-- A wait ends after one number of sleeps only, with one return code. -/
theorem WaitEnds.unique {m : Nat} {rc' : Int} (h : timeoutMs ≠ 0)
    (hn : WaitEnds reads timeoutMs n rc) (hm : WaitEnds reads timeoutMs m rc') :
    n = m ∧ rc = rc' := by
  obtain ⟨hn, hrc⟩ := (waitEnds_iff h).mp hn
  obtain ⟨hm, hrc'⟩ := (waitEnds_iff h).mp hm
  obtain rfl : n = m := (endsAfter_iff.mpr hn).unique (endsAfter_iff.mpr hm)
  exact ⟨rfl, hrc.trans hrc'.symm⟩

/-- Up to this timeout the counter does not wrap before it gets there. -/
theorem goesOn_of_lt (hbound : timeoutMs.toNat ≤ 4294967200) {i : Nat}
    (hi : i < timeoutSleeps timeoutMs) (hdown : reads i = false) : GoesOn reads timeoutMs i := by
  refine ⟨hdown, ?_⟩
  unfold timeoutSleeps at hi
  omega

/-- **The timeout.** It is kept exactly if the last sleep does not carry the counter past
`2 ^ 32`. -/
theorem honoursTimeout_iff (hpos : 0 < timeoutMs.toNat) :
    HonoursTimeout timeoutMs ↔ timeoutMs.toNat ≤ 4294967200 := by
  have hne : timeoutMs ≠ 0 := fun h0 =>
    absurd (congrArg UInt32.toNat h0) (Nat.pos_iff_ne_zero.mp hpos)
  constructor
  · intro h
    obtain ⟨⟨-, hlast⟩, -⟩ := (waitEnds_iff hne).mp (h.timed_out (fun _ => false) fun _ => rfl)
    have hwrapped : ¬ 100 * timeoutSleeps timeoutMs % 4294967296 < timeoutMs.toNat :=
      fun hlt => hlast ⟨rfl, hlt⟩
    have hsize := timeoutMs.toNat_lt
    unfold timeoutSleeps at hwrapped
    omega
  · intro hbound
    refine ⟨fun reads hdown => ?_, fun reads k hup hk => ?_⟩
    · refine (waitEnds_iff hne).mpr ⟨⟨fun i hi => goesOn_of_lt hbound hi (hdown i), ?_⟩, ?_⟩
      · rintro ⟨-, hlt⟩
        unfold timeoutSleeps at hlt
        omega
      · rw [hdown]
        rfl
    · refine (waitEnds_iff hne).mpr ⟨⟨fun i hi => ?_, ?_⟩, ?_⟩
      · exact goesOn_of_lt hbound (Nat.lt_of_lt_of_le hi hk) (hup.down i hi)
      · rintro ⟨hdown, -⟩
        exact absurd hup.up.1 (by rw [hdown]; exact Bool.false_ne_true)
      · rw [hup.up.2]
        rfl

theorem honoursTimeout_thirtySeconds : HonoursTimeout 30000 :=
  (honoursTimeout_iff (by decide)).mpr (by decide)

theorem ends_of_not_goesOn (h : ¬ GoesOn reads timeoutMs k) :
    ∃ n, EndsAfter (fun s : NetworkWait => !reads s.sleeps && s.elapsed < timeoutMs) sleep start
      n :=
  ends_iff.mpr ⟨k, Bool.eq_false_iff.mpr fun ht => h ((goesOn_iff k).mp ht)⟩

/-- The counter only has multiples of 4, and takes all of them. -/
theorem wait_down_ends_iff (h : timeoutMs ≠ 0) :
    (∃ n rc, WaitEnds (fun _ => false) timeoutMs n rc) ↔ timeoutMs.toNat ≤ 4294967292 := by
  constructor
  · rintro ⟨n, rc, hends⟩
    obtain ⟨⟨-, hlast⟩, -⟩ := (waitEnds_iff h).mp hends
    have hstop : ¬ 100 * n % 4294967296 < timeoutMs.toNat := fun hlt => hlast ⟨rfl, hlt⟩
    omega
  · intro hbound
    -- the sleep after which the counter is largest
    have hlargest : ¬ GoesOn (fun _ => false) timeoutMs 1030792151 := fun hgo =>
      absurd hgo.2 (by omega)
    obtain ⟨n, hn⟩ := ends_of_not_goesOn hlargest
    exact ⟨n, negEtimedout, (waitEnds_iff h).mpr ⟨endsAfter_iff.mp hn, rfl⟩⟩

/-- With the longest timeout and no network, the wait goes on after every sleep. -/
theorem longestTimeout_unkept : 0 < (4294967295 : UInt32).toNat ∧
    (∀ n rc, ¬ WaitEnds (fun _ => false) 4294967295 n rc) ∧ ¬ HonoursTimeout 4294967295 := by
  have hnever : ∀ n rc, ¬ WaitEnds (fun _ => false) 4294967295 n rc := fun n rc hends =>
    absurd ((wait_down_ends_iff (by decide)).mp ⟨n, rc, hends⟩) (by decide)
  exact ⟨by decide, hnever, fun h => hnever _ _ (h.timed_out _ fun _ => rfl)⟩

theorem sleepForever_iterate (n : Nat) : (sleepForever^[n] start).sleeps = n := by
  induction n with
  | zero => rfl
  | succ n ih =>
    rw [Function.iterate_succ_apply', sleepForever]
    split <;> exact congrArg (· + 1) ih

/-- Without a timeout the wait ends when the network is read as up, and never otherwise. -/
theorem waitForever_iff : WaitEnds reads 0 n rc ↔
    ((∀ i < n, reads i = false) ∧ reads n = true) ∧ rc = 0 := by
  simp only [WaitEnds, cooNetworkWaitReady, if_true, exists_run_map_iff, Prod.mk.injEq,
    sleepForever_iterate]
  constructor
  · rintro ⟨m, hm, rfl, rfl⟩
    refine ⟨⟨fun i hi => ?_, ?_⟩, rfl⟩
    · simpa [sleepForever_iterate] using hm.before i hi
    · simpa [sleepForever_iterate] using hm.after
  · rintro ⟨⟨hbefore, hafter⟩, rfl⟩
    refine ⟨n, ⟨fun i hi => ?_, ?_⟩, rfl, rfl⟩
    · simpa [sleepForever_iterate] using hbefore i hi
    · simpa [sleepForever_iterate] using hafter

end Wait

end Tib
