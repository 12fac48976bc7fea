import HispecTib.Base.Sys

/-!
# Fair behaviours and what they lead to

A behaviour is an infinite execution with its labels. At a moment without a label nothing happens,
so a behaviour of a system is a behaviour of every system that it refines (`Behaviour.refines`).

* `WeaklyFair A`: steps with a label in `A` do not stay enabled for ever without being taken.
  `StronglyFair A`: they are not enabled again and again without being taken.
* `LeadsTo σ p q`: whenever `p` holds, `q` holds then or later. `LeadsTo.descend` is its induction.
* `WeaklyFair.leadsTo`, `StronglyFair.leadsTo`: `p` lasts until `q`, and a step in `A` brings `q`.
-/

namespace Sys

/-! ## Leads-to -/

section LeadsTo

variable {St : Type} {σ : Nat → St} {p p' q r : St → Prop}

/-- Whenever `p` holds, `q` holds then or later. -/
def LeadsTo (σ : Nat → St) (p q : St → Prop) : Prop := ∀ n, p (σ n) → ∃ m, n ≤ m ∧ q (σ m)

theorem LeadsTo.trans (h : LeadsTo σ p q) (h' : LeadsTo σ q r) : LeadsTo σ p r := by
  intro n hp
  obtain ⟨m, hnm, hq⟩ := h n hp
  obtain ⟨k, hmk, hr⟩ := h' m hq
  exact ⟨k, Nat.le_trans hnm hmk, hr⟩

/-- What does not have `q` at once has to lead to it. -/
theorem LeadsTo.of_or {r : St → Prop} (h : ∀ n, p (σ n) → q (σ n) ∨ r (σ n))
    (h' : LeadsTo σ r q) :
    LeadsTo σ p q := by
  intro n hp
  rcases h n hp with hq | hr
  · exact ⟨n, Nat.le_refl n, hq⟩
  · exact h' n hr

/-- **Induction.** If `p` leads to `q` or to `p` with a smaller measure, it leads to `q`. -/
theorem LeadsTo.descend (f : St → Nat)
    (h : ∀ k, LeadsTo σ (fun s => p s ∧ f s = k) fun s => q s ∨ p s ∧ f s < k) :
    LeadsTo σ p q := by
  suffices h' : ∀ k n, p (σ n) → f (σ n) < k → ∃ m, n ≤ m ∧ q (σ m) from
    fun n hp => h' _ n hp (Nat.lt_succ_self _)
  intro k
  induction k with
  | zero => exact fun n _ hlt => absurd hlt (Nat.not_lt_zero _)
  | succ k ih =>
    intro n hp hlt
    obtain ⟨m, hnm, hq | ⟨hp', hlt'⟩⟩ := h _ n ⟨hp, rfl⟩
    · exact ⟨m, hnm, hq⟩
    · obtain ⟨j, hmj, hq⟩ := ih m hp' (by omega)
      exact ⟨j, Nat.le_trans hnm hmj, hq⟩

end LeadsTo

/-! ## Behaviours -/

variable {S : Sys}

/-- The states and the labels of an infinite execution from a reachable state. -/
structure Behaviour (S : Sys) (σ : Nat → S.St) (ℓ : Nat → Option S.Label) : Prop where
  reach : S.Reachable (σ 0)
  next : ∀ n, S.StepOrStay (σ n) (ℓ n) (σ (n + 1))

/-- A step with a label in `A` is possible. -/
def Enabled (S : Sys) (A : S.Label → Prop) (s : S.St) : Prop := ∃ l t, A l ∧ S.step s l t

/-- At moment `n` a step with a label in `A` is taken. -/
def Occurs {Label : Type} (A : Label → Prop) (ℓ : Nat → Option Label) (n : Nat) : Prop :=
  ∃ l, ℓ n = some l ∧ A l

section Behaviour

variable {σ : Nat → S.St} {ℓ : Nat → Option S.Label} {A : S.Label → Prop} {p q : S.St → Prop}

theorem StepOrStay.cases {s t : S.St} {l : Option S.Label} (h : S.StepOrStay s l t) :
    t = s ∨ ∃ l', l = some l' ∧ S.step s l' t := by
  cases l with
  | none => exact Or.inl h
  | some l' => exact Or.inr ⟨l', rfl, h⟩

theorem Behaviour.reachable (h : S.Behaviour σ ℓ) (n : Nat) : S.Reachable (σ n) := by
  induction n with
  | zero => exact h.reach
  | succ n ih =>
    rcases (h.next n).cases with hstay | ⟨l, -, hst⟩
    · rwa [hstay]
    · exact ih.next hst

/-- What the steps outside `A` keep lasts for as long as no step in `A` is taken. -/
theorem Behaviour.lasts_without (h : S.Behaviour σ ℓ)
    (hkeep : ∀ s l t, S.Reachable s → ¬ A l → p s → S.step s l t → p t) {n m : Nat} (hnm : n ≤ m)
    (hp : p (σ n)) (hno : ∀ k, n ≤ k → ¬ Occurs A ℓ k) : p (σ m) := by
  induction hnm with
  | refl => exact hp
  | step hk ih =>
    rcases (h.next _).cases with hstay | ⟨l, hl, hst⟩
    · rwa [hstay]
    · exact hkeep _ l _ (h.reachable _) (fun hA => hno _ hk ⟨l, hl, hA⟩) ih hst

/-- What every step keeps lasts. -/
theorem Behaviour.lasts (h : S.Behaviour σ ℓ)
    (hkeep : ∀ s l t, S.Reachable s → p s → S.step s l t → p t) {n m : Nat} (hnm : n ≤ m)
    (hp : p (σ n)) : p (σ m) :=
  h.lasts_without (A := fun _ => False) (fun s l t hr _ => hkeep s l t hr) hnm hp fun _ _ => by
    rintro ⟨_, -, hfalse⟩
    exact hfalse

/-- What every step keeps until `q` lasts while `q` does not come. -/
theorem Behaviour.lasts_until (h : S.Behaviour σ ℓ)
    (hkeep : ∀ s l t, S.Reachable s → p s → S.step s l t → p t ∨ q t) {n m : Nat} (hnm : n ≤ m)
    (hp : p (σ n)) (hno : ∀ k, n ≤ k → ¬ q (σ k)) : p (σ m) := by
  induction hnm with
  | refl => exact hp
  | step hk ih =>
    rcases (h.next _).cases with hstay | ⟨l, -, hst⟩
    · rwa [hstay]
    · exact (hkeep _ l _ (h.reachable _) ih hst).resolve_right (hno _ (Nat.le_succ_of_le hk))

/-- What lasts until `q`, and leads to something that rules it out without `q`, leads to `q`. -/
theorem Behaviour.leadsTo_until {r : S.St → Prop} (h : S.Behaviour σ ℓ)
    (hkeep : ∀ s l t, S.Reachable s → p s → S.step s l t → p t ∨ q t) (hr : LeadsTo σ p r)
    (hpr : ∀ s, p s → r s → q s) : LeadsTo σ p q := by
  intro n hp
  by_contra hnever
  push Not at hnever
  obtain ⟨m, hnm, hm⟩ := hr n hp
  exact hnever m hnm (hpr _ (h.lasts_until hkeep hnm hp hnever) hm)

/-- A behaviour of a system is a behaviour of a system that it refines. -/
theorem Behaviour.refines {T : Sys} {abs : S.St → T.St} {lab : S.St → S.Label → Option T.Label}
    (href : Refines S T abs lab) (h : S.Behaviour σ ℓ) :
    T.Behaviour (fun n => abs (σ n)) fun n => (ℓ n).bind (lab (σ n)) := by
  refine ⟨href.reachable h.reach, fun n => ?_⟩
  have hnext := h.next n
  cases hl : ℓ n with
  | none =>
    rw [hl] at hnext
    exact congrArg abs hnext
  | some l =>
    rw [hl] at hnext
    exact href.step _ l _ (h.reachable n) hnext

/-- An execution is a behaviour that stops at its end. -/
theorem Exec.behaviour {s t : S.St} {ls : List S.Label} (hs : S.Reachable s) (h : S.Exec s ls t) :
    ∃ σ ℓ, S.Behaviour σ ℓ ∧ σ 0 = s ∧ ∀ n, ls.length ≤ n → σ n = t := by
  induction h with
  | nil => exact ⟨fun _ => s, fun _ => none, ⟨hs, fun _ => rfl⟩, rfl, fun _ _ => rfl⟩
  | @snoc t u ls l _ hlast ih =>
    obtain ⟨σ, ℓ, hb, h0, hend⟩ := ih
    refine ⟨fun n => if n ≤ ls.length then σ n else u,
      fun n => if n < ls.length then ℓ n else if n = ls.length then some l else none,
      ⟨?_, fun n => ?_⟩, ?_, fun n hn => ?_⟩
    · rw [if_pos (Nat.zero_le _), h0]
      exact hs
    · rcases Nat.lt_trichotomy n ls.length with hlt | heq | hgt
      · have hle : n ≤ ls.length := Nat.le_of_lt hlt
        simp only [hlt, hle, Nat.succ_le_iff.mpr hlt, if_true]
        exact hb.next n
      · have hnot : ¬ ls.length + 1 ≤ ls.length := Nat.not_succ_le_self _
        simp only [heq, Nat.lt_irrefl, Nat.le_refl, hnot, if_true, if_false]
        rw [hend _ (Nat.le_refl _)]
        exact hlast
      · have hnot : ¬ n + 1 ≤ ls.length := by omega
        simp only [Nat.not_lt.mpr (Nat.le_of_lt hgt), Nat.not_le.mpr hgt, Nat.ne_of_gt hgt, hnot,
          if_false]
        rfl
    · exact (if_pos (Nat.zero_le _)).trans h0
    · rw [List.length_append, List.length_singleton] at hn
      exact if_neg (by omega)

/-! ## Fairness -/

/-- From no moment on, steps in `A` are always enabled and never taken. -/
def WeaklyFair (S : Sys) (A : S.Label → Prop) (σ : Nat → S.St) (ℓ : Nat → Option S.Label) : Prop :=
  ∀ n, (∀ m, n ≤ m → S.Enabled A (σ m)) → ∃ m, n ≤ m ∧ Occurs A ℓ m

/-- From no moment on, steps in `A` are enabled again and again and never taken. -/
def StronglyFair (S : Sys) (A : S.Label → Prop) (σ : Nat → S.St) (ℓ : Nat → Option S.Label) :
    Prop :=
  ∀ n, (∀ m, n ≤ m → ∃ k, m ≤ k ∧ S.Enabled A (σ k)) → ∃ m, n ≤ m ∧ Occurs A ℓ m

theorem StronglyFair.weaklyFair (h : S.StronglyFair A σ ℓ) : S.WeaklyFair A σ ℓ :=
  fun n hen => h n fun m hnm => ⟨m, Nat.le_refl m, hen m hnm⟩

/-- Steps that are not enabled in the end need not be taken. -/
theorem StronglyFair.of_end {s : S.St} {n₀ : Nat} (hend : ∀ n, n₀ ≤ n → σ n = s)
    (h : ¬ S.Enabled A s) : S.StronglyFair A σ ℓ := by
  intro n hen
  obtain ⟨k, hk, henabled⟩ := hen (max n n₀) (Nat.le_max_left _ _)
  rw [hend k (Nat.le_trans (Nat.le_max_right _ _) hk)] at henabled
  exact absurd henabled h

/-- If `p` lasts until `q`, and a step in `A` comes while it lasts and brings `q`. -/
theorem Behaviour.leadsTo_of_occurs (h : S.Behaviour σ ℓ)
    (hkeep : ∀ s l t, S.Reachable s → p s → S.step s l t → p t ∨ q t)
    (hact : ∀ s l t, S.Reachable s → p s → A l → S.step s l t → q t)
    (hocc : ∀ n, (∀ m, n ≤ m → p (σ m)) → (∀ m, n ≤ m → ¬ q (σ m)) →
      ∃ m, n ≤ m ∧ Occurs A ℓ m) : LeadsTo σ p q := by
  intro n hp
  by_contra hnever
  push Not at hnever
  have hlasts : ∀ m, n ≤ m → p (σ m) := fun m hnm => h.lasts_until hkeep hnm hp hnever
  obtain ⟨m, hnm, l, hl, hA⟩ := hocc n hlasts hnever
  have hst := h.next m
  rw [hl] at hst
  exact hnever (m + 1) (Nat.le_succ_of_le hnm) (hact _ l _ (h.reachable m) (hlasts m hnm) hA hst)

/-- **Progress by strong fairness.** -/
theorem StronglyFair.leadsTo (hfair : S.StronglyFair A σ ℓ) (h : S.Behaviour σ ℓ)
    (hkeep : ∀ s l t, S.Reachable s → p s → S.step s l t → p t ∨ q t)
    (hact : ∀ s l t, S.Reachable s → p s → A l → S.step s l t → q t)
    (hen : LeadsTo σ p fun s => S.Enabled A s ∨ q s) : LeadsTo σ p q := by
  refine h.leadsTo_of_occurs hkeep hact fun n hp hq => hfair n fun m hnm => ?_
  obtain ⟨k, hmk, henabled | hq'⟩ := hen m (hp m hnm)
  · exact ⟨k, hmk, henabled⟩
  · exact absurd hq' (hq k (Nat.le_trans hnm hmk))

/-- **Progress by weak fairness.** -/
theorem WeaklyFair.leadsTo (hfair : S.WeaklyFair A σ ℓ) (h : S.Behaviour σ ℓ)
    (hkeep : ∀ s l t, S.Reachable s → p s → S.step s l t → p t ∨ q t)
    (hact : ∀ s l t, S.Reachable s → p s → A l → S.step s l t → q t)
    (hen : ∀ s, S.Reachable s → p s → S.Enabled A s ∨ q s) : LeadsTo σ p q :=
  h.leadsTo_of_occurs hkeep hact fun n hp hq => hfair n fun m hnm =>
    (hen _ (h.reachable m) (hp m hnm)).resolve_right (hq m hnm)

end Behaviour

end Sys
