import Mathlib.Algebra.BigOperators.Group.List.Basic
import Mathlib.Tactic.Common

/-!
# Transition systems

A system has states, starting states and labelled atomic steps. The steps of every thread and of
the environment are labels of one relation, so a statement about all executions is a statement
about every interleaving.

* `Sys.Exec s ls t`: the labels `ls`, taken in order, lead from `s` to `t`.
* `Sys.Exec.keeps`: what every step keeps, an execution keeps. `Sys.Reachable.of_steps`: with the
  starting states, a property of every reachable state. `Sys.Exec.keeps_add` sums what the steps
  cost.
* `Sys.ExecWith K s ls t`: an execution all of whose steps are in `K`. `Sys.execWith_iff` turns a
  property of all states of an execution into a condition on its steps.
* `Sys.Forever σ`: an infinite execution from a reachable state. `Sys.forever_of_cycle` goes round
  a cycle of states for ever.
* `Sys.Refines S T abs lab`: a step of `S` is a step of `T` under `abs`, or `T` does not see it.
* `Sys.logged obs`: the system with a record of what `obs` sees of its steps.
-/

/-- A labelled transition system. -/
structure Sys where
  St : Type
  Label : Type
  start : St → Prop
  step : St → Label → St → Prop

namespace Sys

variable {S : Sys}

/-- Executions, extended at the end. -/
inductive Exec (S : Sys) : S.St → List S.Label → S.St → Prop
  | nil (s : S.St) : Exec S s [] s
  | snoc {s t u : S.St} {ls : List S.Label} {l : S.Label} :
      Exec S s ls t → S.step t l u → Exec S s (ls ++ [l]) u

/-- The states that some execution from a starting state leads to. -/
def Reachable (S : Sys) (t : S.St) : Prop := ∃ s ls, S.start s ∧ S.Exec s ls t

theorem Reachable.start {s : S.St} (h : S.start s) : S.Reachable s := ⟨s, [], h, .nil s⟩

/-- One more step of a reachable state. -/
theorem Reachable.next {t u : S.St} {l : S.Label} (h : S.Reachable t) (hst : S.step t l u) :
    S.Reachable u := by
  obtain ⟨s, ls, hs, hex⟩ := h
  exact ⟨s, _, hs, hex.snoc hst⟩

theorem Exec.keeps {P : S.St → Prop} (hstep : ∀ s l t, P s → S.step s l t → P t) {s t : S.St}
    {ls : List S.Label} (h : S.Exec s ls t) (hs : P s) : P t := by
  induction h with
  | nil => exact hs
  | snoc _ hlast ih => exact hstep _ _ _ ih hlast

/-- A bound that every step raises by its cost is raised, along an execution, by all of them. -/
theorem Exec.keeps_add {M : Type} [AddMonoid M] (cost : S.Label → M) {P : M → S.St → Prop}
    (hstep : ∀ n s l t, P n s → S.step s l t → P (n + cost l) t) {s t : S.St} {ls : List S.Label}
    (h : S.Exec s ls t) {n : M} (hs : P n s) : P (n + (ls.map cost).sum) t := by
  induction h with
  | nil =>
    rw [List.map_nil, List.sum_nil, add_zero]
    exact hs
  | snoc _ hlast ih =>
    rw [List.map_append, List.sum_append, List.map_singleton, List.sum_singleton, ← add_assoc]
    exact hstep _ _ _ _ ih hlast

theorem Reachable.of_steps {P : S.St → Prop} (hstart : ∀ s, S.start s → P s)
    (hstep : ∀ s l t, P s → S.step s l t → P t) {t : S.St} (h : S.Reachable t) : P t := by
  obtain ⟨s, ls, hs, hex⟩ := h
  exact hex.keeps hstep (hstart s hs)

/-! ## Properties of all steps of an execution -/

section ExecWith

/-- Executions all of whose steps are in `K`. -/
inductive ExecWith (S : Sys) (K : S.St → S.Label → S.St → Prop) :
    S.St → List S.Label → S.St → Prop
  | nil (s : S.St) : ExecWith S K s [] s
  | snoc {s t u : S.St} {ls : List S.Label} {l : S.Label} :
      ExecWith S K s ls t → S.step t l u → K t l u → ExecWith S K s (ls ++ [l]) u

variable {K K' : S.St → S.Label → S.St → Prop} {P : S.St → Prop} {G : S.St → S.Label → Prop}

theorem ExecWith.exec {s t : S.St} {ls : List S.Label} (h : S.ExecWith K s ls t) :
    S.Exec s ls t := by
  induction h with
  | nil => exact .nil _
  | snoc _ hlast _ ih => exact ih.snoc hlast

/-- What every step in `K` keeps, an execution keeps. -/
theorem ExecWith.keeps (hstep : ∀ s l t, P s → S.step s l t → K s l t → P t) {s t : S.St}
    {ls : List S.Label} (h : S.ExecWith K s ls t) (hs : P s) : P t := by
  induction h with
  | nil => exact hs
  | snoc _ hlast hK ih => exact hstep _ _ _ ih hlast hK

/-- The last state of an execution all of whose states have `P`. -/
theorem ExecWith.last {s t : S.St} {ls : List S.Label} (h : S.ExecWith (fun _ _ t => P t) s ls t)
    (hs : P s) : P t := by
  cases h with
  | nil => exact hs
  | snoc _ _ hP => exact hP

/-- If a step from a reachable state with `P` leads to a state with `P` exactly when it meets `G`,
then an execution has `P` in all its states exactly when all its steps meet `G`. -/
theorem execWith_iff (hstep : ∀ s l t, S.Reachable s → P s → S.step s l t → (P t ↔ G s l))
    {s t : S.St} {ls : List S.Label} (hs : S.start s) (hP : P s) :
    S.ExecWith (fun _ _ t => P t) s ls t ↔ S.ExecWith (fun s l _ => G s l) s ls t := by
  constructor
  · intro h
    induction h with
    | nil => exact .nil _
    | snoc hinit hlast hPu ih =>
      exact ih.snoc hlast
        ((hstep _ _ _ ⟨_, _, hs, hinit.exec⟩ (hinit.last hP) hlast).mp hPu)
  · intro h
    induction h with
    | nil => exact .nil _
    | snoc hinit hlast hG ih =>
      exact ih.snoc hlast
        ((hstep _ _ _ ⟨_, _, hs, hinit.exec⟩ (ih.last hP) hlast).mpr hG)

end ExecWith

/-! ## Infinite executions -/

section Forever

variable {σ : Nat → S.St}

/-- The states `σ` of an infinite execution that starts in a reachable state. -/
structure Forever (S : Sys) (σ : Nat → S.St) : Prop where
  reach : S.Reachable (σ 0)
  next : ∀ n, ∃ l, S.step (σ n) l (σ (n + 1))

theorem Forever.reachable (h : S.Forever σ) (n : Nat) : S.Reachable (σ n) := by
  induction n with
  | zero => exact h.reach
  | succ n ih =>
    obtain ⟨l, hst⟩ := h.next n
    exact ih.next hst

theorem forever_of_cycle {k : Nat} (hk : 0 < k) {c : Nat → S.St} (h : S.Reachable (c 0))
    (hstep : ∀ i < k, ∃ l, S.step (c i) l (c ((i + 1) % k))) : S.Forever fun n => c (n % k) := by
  refine ⟨?_, fun n => ?_⟩
  · rw [Nat.zero_mod]
    exact h
  · have hlast := hstep (n % k) (Nat.mod_lt n hk)
    rwa [Nat.mod_add_mod] at hlast

end Forever

/-! ## Refinement -/

section Refinement

variable {T : Sys} {abs : S.St → T.St} {lab : S.St → S.Label → Option T.Label}

/-- What a step with the abstract label `l` is, from `s` to `t`: a step, or nothing. -/
def StepOrStay (T : Sys) (s : T.St) (l : Option T.Label) (t : T.St) : Prop :=
  match l with
  | some l => T.step s l t
  | none => t = s

/-- Forward simulation along `abs`: from a reachable state, a step whose label abstracts to `some l`
is the step `l` of `T`, and one whose label abstracts to `none` changes nothing there. -/
structure Refines (S T : Sys) (abs : S.St → T.St) (lab : S.St → S.Label → Option T.Label) :
    Prop where
  start : ∀ s, S.start s → T.start (abs s)
  step : ∀ s l t, S.Reachable s → S.step s l t → T.StepOrStay (abs s) (lab s l) (abs t)

theorem Refines.reachable (h : Refines S T abs lab) {s : S.St} (hs : S.Reachable s) :
    T.Reachable (abs s) := by
  refine (hs.of_steps (P := fun s => S.Reachable s ∧ T.Reachable (abs s)) ?_ ?_).2
  · exact fun s hs => ⟨.start hs, .start (h.start s hs)⟩
  · rintro s l t ⟨hs, ha⟩ hst
    refine ⟨hs.next hst, ?_⟩
    have hstep := h.step s l t hs hst
    cases hl : lab s l with
    | some l' =>
      rw [hl] at hstep
      exact ha.next hstep
    | none =>
      rw [hl] at hstep
      have heq : abs t = abs s := hstep
      rwa [heq]

end Refinement

/-! ## Records -/

section Logged

variable {α : Type}

/-- The system with the record of what `obs` sees of its steps. -/
def logged (S : Sys) (obs : S.St → S.Label → List α) : Sys where
  St := S.St × List α
  Label := S.Label
  start := fun s => S.start s.1 ∧ s.2 = []
  step := fun s l t => S.step s.1 l t.1 ∧ t.2 = s.2 ++ obs s.1 l

variable {obs : S.St → S.Label → List α}

/-- The record is a matter of looking on: a system with a record refines the one without. -/
theorem logged_refines (S : Sys) (obs : S.St → S.Label → List α) :
    Refines (S.logged obs) S Prod.fst fun _ l => some l :=
  ⟨fun _ h => h.1, fun _ _ _ _ h => h.1⟩

/-- Every execution has a record. -/
theorem Exec.logged (obs : S.St → S.Label → List α) {s t : S.St} {ls : List S.Label}
    (h : S.Exec s ls t) (es : List α) : ∃ es', (S.logged obs).Exec (s, es) ls (t, es') := by
  induction h with
  | nil => exact ⟨es, .nil _⟩
  | snoc _ hlast ih =>
    obtain ⟨es', hex⟩ := ih
    exact ⟨_, hex.snoc ⟨hlast, rfl⟩⟩

theorem Reachable.logged (obs : S.St → S.Label → List α) {t : S.St} (h : S.Reachable t) :
    ∃ es, (S.logged obs).Reachable (t, es) := by
  obtain ⟨s, ls, hs, hex⟩ := h
  obtain ⟨es, hex'⟩ := hex.logged obs []
  exact ⟨es, (s, []), ls, ⟨hs, rfl⟩, hex'⟩

/-- A refinement passes on the record of what the abstract system would see. -/
theorem Refines.logged {T : Sys} {abs : S.St → T.St} {lab : S.St → S.Label → Option T.Label}
    (h : Refines S T abs lab) (obs : T.St → T.Label → List α) :
    Refines (S.logged fun s l => (lab s l).elim [] (obs (abs s))) (T.logged obs)
      (fun s => (abs s.1, s.2)) fun s l => lab s.1 l := by
  refine ⟨fun s hs => ⟨h.start _ hs.1, hs.2⟩, ?_⟩
  rintro (s : S.St × List α) (l : S.Label) (t : S.St × List α) hs ⟨hst, hlog⟩
  have hlog : t.2 = s.2 ++ (lab s.1 l).elim [] (obs (abs s.1)) := hlog
  have hstep := h.step s.1 l t.1 ((logged_refines S _).reachable hs) hst
  cases hl : lab s.1 l with
  | some l' =>
    rw [hl] at hstep hlog
    exact ⟨hstep, hlog⟩
  | none =>
    rw [hl] at hstep hlog
    have hstep : abs t.1 = abs s.1 := hstep
    exact Prod.ext hstep (hlog.trans (List.append_nil _))

end Logged

end Sys
