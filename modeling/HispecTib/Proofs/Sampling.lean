import HispecTib.Base.Spaced
import HispecTib.Proofs.Telemetry

/-!
# The sampling loop and its clock

The steps of the threads, with a clock in milliseconds. An iteration of `photodiode_thread` reads
the clock when it starts, and once its sample is stored it sleeps for the rest of the interval.

What is taken for granted about the system work queue, which runs `photodiode_publish_handler`, is
`latency`: after the handler has found the queue empty, it finds it empty again before more than
`latency` milliseconds have passed. Before `main` has started the work, nothing is.

* `sampling_rate`: the iterations start 20 ms apart, so a second has at most 50.
* `samples_kept_iff`: no sample is purged once the handler runs, exactly if `latency < 60`. The
  bound is three intervals: the queue holds four samples, and the first may come late.
-/

namespace Tib

/-! ## The clock -/

/-- `PUBLISH_INTERVAL_MS`. -/
abbrev publishIntervalMs : Nat := 20

structure Sampling where
  fw : Firmware
  /-- `k_uptime_get()`. -/
  clock : Nat
  /-- `start`, in an iteration. -/
  start : Option Nat
  /-- When the sleep after an iteration ends, or the first wait for the ADC. -/
  wake : Nat
  /-- When the handler last found the queue empty. -/
  emptied : Option Nat
  /-- All values of `start`, the last one first. -/
  starts : List Nat

inductive SamplingLabel where
  | tick (d : Nat)
  | begin
  | produce (l : Label)
  | store
  | emptied
  | thread (l : Label)

variable (env : Env) (latency : Nat)

/-- `photodiode_thread` takes its steps in an iteration. -/
inductive SamplingStep : Sampling → SamplingLabel → Sampling → Prop
  | tick {b : Sampling} (d : Nat) :
      (∀ t ∈ b.emptied, b.clock + d ≤ t + latency) →
      SamplingStep b (.tick d) { b with clock := b.clock + d }
  | begin {b : Sampling} :
      b.start = none → b.wake ≤ b.clock → SamplingStep b .begin
        { b with start := some b.clock, starts := b.clock :: b.starts }
  | produce {b : Sampling} {l : Label} {fw : Firmware} :
      l.isProducer = true → l ≠ .store → b.start.isSome = true → Step env b.fw l fw →
      SamplingStep b (.produce l) { b with fw }
  | store {b : Sampling} {fw : Firmware} {t : Nat} :
      -- Without time left there is no sleep.
      b.start = some t → Step env b.fw .store fw → SamplingStep b .store
        { b with
          fw
          start := none
          wake := b.clock + (publishIntervalMs - (b.clock - t)) }
  | emptied {b : Sampling} :
      b.fw.sample = none → b.fw.photodiodeQueue.get? = none →
      SamplingStep b .emptied { b with emptied := some b.clock }
  | thread {b : Sampling} {l : Label} {fw : Firmware} :
      l.isProducer = false → Step env b.fw l fw → SamplingStep b (.thread l) { b with fw }

/-- The firmware with its clock, from any time at which the threads start. -/
def sampling (w : World) : Sys where
  St := Sampling
  Label := SamplingLabel
  start := fun b => ∃ clock wake, b = ⟨.boot w, clock, none, wake, none, []⟩
  step := SamplingStep env latency

/-! ## The rate -/

section Rate

variable {env : Env} {latency : Nat} {w : World} {b b' : Sampling} {l : SamplingLabel}

/-- The iterations so far, and when the next one can start. -/
structure Regular (b : Sampling) : Prop where
  spaced : Spaced publishIntervalMs b.starts
  begun : ∀ t ∈ b.start, t ∈ b.starts ∧ t ≤ b.clock ∧ ∀ s ∈ b.starts, s ≤ t
  rested : b.start = none → ∀ s ∈ b.starts, s + publishIntervalMs ≤ b.wake

theorem Regular.step (h : Regular b) (hst : SamplingStep env latency b l b') : Regular b' := by
  cases hst with
  | tick d _ =>
    refine ⟨h.spaced, fun t ht => ?_, h.rested⟩
    obtain ⟨hmem, hle, hlast⟩ := h.begun t ht
    exact ⟨hmem, Nat.le_add_right_of_le hle, hlast⟩
  | begin hsleep hwake =>
    have hearlier : ∀ s ∈ b.starts, s + publishIntervalMs ≤ b.clock :=
      fun s hs => (h.rested hsleep s hs).trans hwake
    refine ⟨h.spaced.cons hearlier, fun t ht => ?_, nofun⟩
    obtain rfl : b.clock = t := Option.some.inj ht
    refine ⟨List.mem_cons_self, le_rfl, List.forall_mem_cons.mpr ⟨le_rfl, fun s hs => ?_⟩⟩
    exact (Nat.le_add_right _ _).trans (hearlier s hs)
  | store hstart _ =>
    refine ⟨h.spaced, nofun, fun _ s hs => ?_⟩
    obtain ⟨-, hle, hlast⟩ := h.begun _ hstart
    have hs' := hlast s hs
    dsimp only
    omega
  | produce _ _ _ _ => exact ⟨h.spaced, h.begun, h.rested⟩
  | emptied _ _ => exact ⟨h.spaced, h.begun, h.rested⟩
  | thread _ _ => exact ⟨h.spaced, h.begun, h.rested⟩

theorem regular_of_reachable (h : (sampling env latency w).Reachable b) : Regular b := by
  refine h.of_steps ?_ fun b l b' hb hst => hb.step hst
  rintro b ⟨clock, wake, rfl⟩
  exact ⟨.nil _, nofun, fun _ _ hs => absurd hs List.not_mem_nil⟩

/-- **The sampling rate.** In every run, whatever the ADC and the queues do, any two iterations
start at least 20 ms apart, and a window of `len` milliseconds has at most `len / 20` starts,
rounded up. -/
theorem sampling_rate (h : (sampling env latency w).Reachable b) (a len : Nat) :
    Spaced publishIntervalMs b.starts ∧
      (b.starts.filter fun t => a ≤ t ∧ t < a + len).length ≤ (len + 19) / 20 :=
  ⟨(regular_of_reachable h).spaced, (regular_of_reachable h).spaced.rate_le (by decide) a len⟩

/-- The second iteration starts as early as it can. -/
theorem first_start_rate : ∃ b : Sampling, b.starts = [25, 5] ∧
    Spaced publishIntervalMs b.starts ∧
    (b.starts.filter fun t => 0 ≤ t ∧ t < 0 + 1000).length ≤ 50 := by
  have h0 : (sampling setEnv 30 .boot).Reachable ⟨.boot .boot, 5, none, 0, none, []⟩ :=
    .start ⟨5, 0, rfl⟩
  have h1 := h0.next (SamplingStep.begin rfl (Nat.zero_le 5))
  have h2 := h1.next (SamplingStep.produce (l := .measure 1 2 3) rfl (by simp) rfl
    (Step.measure 1 2 3 rfl))
  have h3 := h2.next (SamplingStep.store rfl (Step.store rfl rfl))
  have h4 := h3.next (SamplingStep.tick 20 (by simp))
  have h5 := h4.next (SamplingStep.begin rfl (Nat.le_refl 25))
  exact ⟨_, rfl, sampling_rate h5 0 1000⟩

end Rate

/-! ## Purges -/

section Purges

variable {env : Env} {w : World} {latency : Nat} {b b' : Sampling} {l : SamplingLabel}

/-- Once the handler has found the queue empty: a sample finds room, and a purge finds nothing. -/
def Sampling.Kept (b : Sampling) : Prop := b.emptied ≠ none →
  (∀ m, b.fw.photodiode = .storing m → b.fw.photodiodeQueue.items.length < 4) ∧
    ∀ m, b.fw.photodiode = .purging m → b.fw.photodiodeQueue.items = []

/-- The start of the iteration under way, or else the earliest of the next. -/
def Sampling.next (b : Sampling) : Nat := b.start.getD b.wake

/-- With `n + 1` samples in the queue, the next iteration is at least `n` intervals after the time
at which the queue was empty. -/
structure KeepsUp (latency : Nat) (b : Sampling) : Prop where
  begun : ∀ t ∈ b.start, t ≤ b.clock
  resting : b.start = none → b.fw.photodiode = .sampling
  late : ∀ t ∈ b.emptied, t ≤ b.clock ∧ b.clock ≤ t + latency
  queued : ∀ t ∈ b.emptied, ∀ n, b.fw.photodiodeQueue.items.length = n + 1 →
    t + 20 * n ≤ b.next
  purged : ∀ t ∈ b.emptied, ∀ m, b.fw.photodiode = .purging m → b.fw.photodiodeQueue.items = []

/-- The handler only takes samples out, and the other threads leave them. -/
theorem Step.queue_shrinks {s t : Firmware} {l : Label} (hst : Step env s l t)
    (hl : l.isProducer = false) :
    t.photodiodeQueue.items.length ≤ s.photodiodeQueue.items.length := by
  cases hst with
  | measure yj hk time _ => cases hl
  | store _ _ => cases hl
  | full _ _ => cases hl
  | purge _ => cases hl
  | collect _ hget =>
    rw [MsgQueue.get?_items hget, List.length_cons]
    exact Nat.le_succ _
  | _ => exact le_rfl

/-- There is room in an iteration. -/
theorem KeepsUp.room (h : KeepsUp latency b) (hlat : latency < 60) (hstart : b.start ≠ none)
    (hemptied : b.emptied ≠ none) : b.fw.photodiodeQueue.items.length < 4 := by
  obtain ⟨t, ht⟩ := Option.ne_none_iff_exists'.mp hstart
  obtain ⟨t₀, ht₀⟩ := Option.ne_none_iff_exists'.mp hemptied
  by_contra hfull
  have hlen : b.fw.photodiodeQueue.items.length = 3 + 1 :=
    le_antisymm b.fw.photodiodeQueue.bounded (not_lt.mp hfull)
  have hnext : t₀ + 20 * 3 ≤ t := by
    have hq := h.queued t₀ ht₀ 3 hlen
    rwa [Sampling.next, ht] at hq
  have hclock := (h.late t₀ ht₀).2
  have hbegun := h.begun t ht
  omega

theorem KeepsUp.kept (h : KeepsUp latency b) (hlat : latency < 60) : b.Kept := by
  intro hemptied
  obtain ⟨t₀, ht₀⟩ := Option.ne_none_iff_exists'.mp hemptied
  refine ⟨fun m hm => h.room hlat (fun hnone => ?_) hemptied, h.purged t₀ ht₀⟩
  rw [h.resting hnone] at hm
  cases hm

theorem KeepsUp.step (h : KeepsUp latency b) (hlat : latency < 60)
    (hst : SamplingStep env latency b l b') : KeepsUp latency b' := by
  cases hst with
  | tick d hd =>
    refine ⟨fun t ht => Nat.le_add_right_of_le (h.begun t ht), h.resting, fun t ht => ?_, h.queued,
      h.purged⟩
    exact ⟨Nat.le_add_right_of_le (h.late t ht).1, hd t ht⟩
  | begin hsleep hwake =>
    refine ⟨fun t ht => ?_, nofun, h.late, fun t ht n hn => ?_, h.purged⟩
    · obtain rfl : b.clock = t := Option.some.inj ht
      exact le_rfl
    · have hq := h.queued t ht n hn
      rw [Sampling.next, hsleep] at hq
      exact hq.trans hwake
  | produce hprod hne hstart hfw =>
    have hstart' : b.start ≠ none := Option.isSome_iff_ne_none.mp hstart
    have hresting {p : Photodiode} : b.start = none → p = .sampling := fun h => absurd h hstart'
    cases hfw with
    | measure yj hk time hs =>
      refine ⟨h.begun, hresting, h.late, h.queued, fun t ht m hm => ?_⟩
      cases hm
    | full hs hput =>
      -- A put can only fail before the handler runs.
      refine ⟨h.begun, hresting, h.late, h.queued, fun t ht m hm => ?_⟩
      have hroom := h.room hlat hstart' (Option.ne_none_iff_exists'.mpr ⟨t, ht⟩)
      rw [MsgQueue.put?_eq_none.mp hput] at hroom
      exact absurd hroom (lt_irrefl 4)
    | purge hs =>
      refine ⟨h.begun, hresting, h.late, fun t ht n hn => ?_, fun t ht m hm => rfl⟩
      cases hn
    | store _ _ => exact absurd rfl hne
    | _ => cases hprod
  | store hstart hfw =>
    rename_i t
    cases hfw with
    | store hs hput =>
      have hitems := MsgQueue.put?_items hput
      refine ⟨nofun, fun _ => rfl, h.late, fun t₀ ht₀ n hn => ?_, fun t₀ ht₀ m hm => ?_⟩
      · have hn' : b.fw.photodiodeQueue.items.length = n := by
          rw [hitems, List.length_append, List.length_singleton] at hn
          exact Nat.succ.inj hn
        have hclock := (h.late t₀ ht₀).1
        have hbegun := h.begun t hstart
        change t₀ + 20 * n ≤ b.clock + (20 - (b.clock - t))
        cases n with
        | zero => omega
        | succ n =>
          have hq := h.queued t₀ ht₀ n hn'
          rw [Sampling.next, hstart, Option.getD_some] at hq
          omega
      · cases hm
  | emptied hsample hget =>
    have hnil : b.fw.photodiodeQueue.items = [] := by
      by_contra hne
      obtain ⟨m, q, hsome⟩ := MsgQueue.get?_of_ne_nil hne
      rw [hget] at hsome
      cases hsome
    refine ⟨h.begun, h.resting, fun t ht => ?_, fun t _ n hn => ?_, fun _ _ _ _ => hnil⟩
    · obtain rfl : b.clock = t := Option.some.inj ht
      exact ⟨le_rfl, Nat.le_add_right _ _⟩
    · dsimp only at hn
      rw [hnil] at hn
      cases hn
  | thread hl hfw =>
    obtain ⟨hphoto, -, hempty⟩ := hfw.producer_other hl
    have hshrinks := hfw.queue_shrinks hl
    refine ⟨h.begun, fun hnone => hphoto.trans (h.resting hnone), h.late, fun t ht n hn => ?_,
      fun t ht m hm => hempty (h.purged t ht m (hphoto ▸ hm))⟩
    obtain ⟨k, hk⟩ : ∃ k, b.fw.photodiodeQueue.items.length = k + 1 :=
      Nat.exists_eq_add_one.mpr (by dsimp only at hn; omega)
    have hq := h.queued t ht k hk
    dsimp only at hn
    change t + 20 * n ≤ b.next
    omega

theorem keepsUp_of_reachable (hlat : latency < 60) (h : (sampling env latency w).Reachable b) :
    KeepsUp latency b := by
  refine h.of_steps ?_ fun b l b' hb hst => hb.step hlat hst
  rintro b ⟨clock, wake, rfl⟩
  exact ⟨nofun, fun _ => rfl, nofun, nofun, nofun⟩

/-! ### A late first sample -/

/-- A sample of a resting thread that need not wait any longer. -/
theorem sample_stored (h : (sampling env latency w).Reachable b) (hstart : b.start = none)
    (hwake : b.wake ≤ b.clock) (hphoto : b.fw.photodiode = .sampling)
    (hroom : b.fw.photodiodeQueue.items.length < 4) :
    ∃ b', (sampling env latency w).Reachable b' ∧ b'.start = none ∧
      b'.wake = b.clock + 20 ∧ b'.clock = b.clock ∧ b'.emptied = b.emptied ∧
      b'.fw.photodiode = .sampling ∧
      b'.fw.photodiodeQueue.items.length = b.fw.photodiodeQueue.items.length + 1 := by
  have h1 := h.next (SamplingStep.begin hstart hwake)
  have h2 := h1.next (SamplingStep.produce (l := .measure 0 0 0) rfl (by simp) rfl
    (Step.measure 0 0 0 hphoto))
  have h3 := h2.next (SamplingStep.store rfl
    (Step.store rfl (MsgQueue.put?_of_lt hroom (photodiodeMsg 0 0 0))))
  refine ⟨_, h3, rfl, ?_, rfl, rfl, rfl, List.length_append⟩
  exact congrArg (b.clock + ·) (congrArg (20 - ·) (Nat.sub_self b.clock))

/-- The same one interval later, if the handler may be that late. -/
theorem sample_stored_later {t : Nat} (h : (sampling env latency w).Reachable b)
    (hstart : b.start = none) (hwake : b.wake = b.clock + 20)
    (hphoto : b.fw.photodiode = .sampling) (hroom : b.fw.photodiodeQueue.items.length < 4)
    (hemptied : b.emptied = some t) (hlate : b.clock + 20 ≤ t + latency) :
    ∃ b', (sampling env latency w).Reachable b' ∧ b'.start = none ∧
      b'.wake = b'.clock + 20 ∧ b'.clock = b.clock + 20 ∧
      b'.emptied = some t ∧ b'.fw.photodiode = .sampling ∧
      b'.fw.photodiodeQueue.items.length = b.fw.photodiodeQueue.items.length + 1 := by
  have htick := h.next (SamplingStep.tick 20 fun t' ht' => by
    obtain rfl : t = t' := Option.some.inj (hemptied.symm.trans ht')
    exact hlate)
  obtain ⟨b', hb', hstart', hwake', hclock', hemptied', hphoto', hlen'⟩ :=
    sample_stored htick hstart hwake.le hphoto hroom
  exact ⟨b', hb', hstart', hclock' ▸ hwake', hclock', hemptied'.trans hemptied, hphoto', hlen'⟩

/-- The first sample comes one interval after its iteration has started, right after the handler has
found the queue empty. -/
theorem first_sample_late (env : Env) (w : World) (latency : Nat) :
    ∃ b, (sampling env latency w).Reachable b ∧ b.start = none ∧ b.wake = b.clock ∧
      b.clock = 20 ∧ b.emptied = some 20 ∧ b.fw.photodiode = .sampling ∧
      b.fw.photodiodeQueue.items.length = 1 := by
  have h0 : (sampling env latency w).Reachable ⟨.boot w, 0, none, 0, none, []⟩ :=
    .start ⟨0, 0, rfl⟩
  have h1 := h0.next (SamplingStep.begin rfl le_rfl)
  have h2 := h1.next (SamplingStep.tick 20 (by simp))
  have h3 := h2.next (SamplingStep.emptied rfl rfl)
  have h4 := h3.next (SamplingStep.produce (l := .measure 0 0 0) rfl (by simp) rfl
    (Step.measure 0 0 0 rfl))
  have h5 := h4.next (SamplingStep.store rfl (Step.store rfl rfl))
  exact ⟨_, h5, rfl, rfl, rfl, rfl, rfl, rfl⟩

/-- A handler that may be late by three intervals loses samples. -/
theorem sample_lost (env : Env) (w : World) (hlat : 60 ≤ latency) :
    ∃ b, (sampling env latency w).Reachable b ∧ ¬ b.Kept := by
  obtain ⟨b₁, h₁, hstart₁, hwake₁, hclock₁, hemptied₁, hphoto₁, hlen₁⟩ :=
    first_sample_late env w latency
  obtain ⟨b₂, h₂, hstart₂, hwake₂, hclock₂, hemptied₂, hphoto₂, hlen₂⟩ :=
    sample_stored h₁ hstart₁ hwake₁.le hphoto₁ (by omega)
  obtain ⟨b₃, h₃, hstart₃, hwake₃, hclock₃, hemptied₃, hphoto₃, hlen₃⟩ :=
    sample_stored_later h₂ hstart₂ (by omega) hphoto₂ (by omega) (hemptied₂.trans hemptied₁)
      (by omega)
  obtain ⟨b₄, h₄, hstart₄, hwake₄, hclock₄, hemptied₄, hphoto₄, hlen₄⟩ :=
    sample_stored_later h₃ hstart₃ hwake₃ hphoto₃ (by omega) hemptied₃ (by omega)
  have hlate : ∀ t ∈ b₄.emptied, b₄.clock + 20 ≤ t + latency := fun t ht => by
    obtain rfl : 20 = t := Option.some.inj (hemptied₄.symm.trans ht)
    omega
  have h₅ := h₄.next (SamplingStep.tick 20 hlate)
  have h₆ := h₅.next (SamplingStep.begin hstart₄ hwake₄.le)
  have h₇ := h₆.next (SamplingStep.produce (l := .measure 0 0 0) rfl (by simp) rfl
    (Step.measure 0 0 0 hphoto₄))
  refine ⟨_, h₇, fun hkept => ?_⟩
  have hroom := (hkept (by rw [hemptied₄]; exact Option.some_ne_none _)).1 _ rfl
  have hfull : b₄.fw.photodiodeQueue.items.length = 4 := by omega
  exact absurd hroom (by simp [hfull])

/-- **No sample is purged** once the handler runs, in any run, exactly if the handler finds the
queue empty more often than every three intervals. -/
theorem samples_kept_iff (env : Env) (w : World) (latency : Nat) :
    (∀ b, (sampling env latency w).Reachable b → b.Kept) ↔ latency < 60 := by
  constructor
  · intro hkept
    by_contra hlat
    obtain ⟨b, hb, hlost⟩ := sample_lost env w (not_lt.mp hlat)
    exact hlost (hkept b hb)
  · exact fun hlat b hb => (keepsUp_of_reachable hlat hb).kept hlat

end Purges

end Tib
