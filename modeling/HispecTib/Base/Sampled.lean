import Mathlib.Data.List.Forall2
import Mathlib.Order.MinMax
import Mathlib.Tactic.Common

/-!
# Sampled systems

A system that takes one input after the other, `step : σ → ι → ο × σ`, with one output for each.

* `after`, `outputs`: the state after a run and its outputs.
* `after_inv`, `outputs_inv`: what every step preserves holds after every run, and what it implies
  of one output holds of all of them.
* `outputs_rel`: two runs on related inputs have related outputs, if each step keeps the states
  related and relates its two outputs.
* `saturate lo hi x`: the value of `[lo, hi]` that is nearest to `x`, by two comparisons.
-/

namespace Sampled

section Runs

variable {σ ι ο : Type} {step : σ → ι → ο × σ}

def after (step : σ → ι → ο × σ) (s : σ) (is : List ι) : σ := is.foldl (fun s i => (step s i).2) s

def outputs (step : σ → ι → ο × σ) : σ → List ι → List ο
  | _, [] => []
  | s, i :: is => (step s i).1 :: outputs step (step s i).2 is

theorem after_inv {P : σ → Prop} (hstep : ∀ s i, P s → P (step s i).2) (is : List ι) {s : σ}
    (hs : P s) : P (after step s is) := by
  induction is generalizing s with
  | nil => exact hs
  | cons i is ih => exact ih (hstep s i hs)

theorem outputs_inv {P : σ → Prop} {Q : ο → Prop}
    (hstep : ∀ s i, P s → Q (step s i).1 ∧ P (step s i).2) (is : List ι) {s : σ} (hs : P s) :
    ∀ o ∈ outputs step s is, Q o := by
  induction is generalizing s with
  | nil => exact fun o ho => absurd ho List.not_mem_nil
  | cons i is ih =>
    obtain ⟨hout, hnext⟩ := hstep s i hs
    intro o ho
    rcases List.mem_cons.mp ho with rfl | ho
    · exact hout
    · exact ih hnext o ho

theorem outputs_rel {S : σ → σ → Prop} {I : ι → ι → Prop} {O : ο → ο → Prop}
    (hstep : ∀ s s' i i', S s s' → I i i' →
      O (step s i).1 (step s' i').1 ∧ S (step s i).2 (step s' i').2)
    {s s' : σ} (hs : S s s') {is is' : List ι} (his : List.Forall₂ I is is') :
    List.Forall₂ O (outputs step s is) (outputs step s' is') := by
  induction his generalizing s s' with
  | nil => exact .nil
  | cons hi _ ih =>
    obtain ⟨hout, hnext⟩ := hstep _ _ _ _ hs hi
    exact .cons hout (ih hnext)

end Runs

section Saturation

variable {α : Type*} [LinearOrder α] {lo hi x y : α}

def saturate (lo hi x : α) : α := if x > hi then hi else if x < lo then lo else x

theorem saturate_eq (h : lo ≤ hi) (x : α) : saturate lo hi x = max lo (min x hi) := by
  unfold saturate
  split_ifs with hhi hlo
  · rw [min_eq_right hhi.le, max_eq_right h]
  · rw [min_eq_left (not_lt.mp hhi), max_eq_left hlo.le]
  · rw [min_eq_left (not_lt.mp hhi), max_eq_right (not_lt.mp hlo)]

theorem le_saturate (h : lo ≤ hi) (x : α) : lo ≤ saturate lo hi x := by
  rw [saturate_eq h]
  exact le_max_left _ _

theorem saturate_le (h : lo ≤ hi) (x : α) : saturate lo hi x ≤ hi := by
  rw [saturate_eq h]
  exact max_le h (min_le_right _ _)

theorem saturate_mono (h : lo ≤ hi) (hxy : x ≤ y) : saturate lo hi x ≤ saturate lo hi y := by
  rw [saturate_eq h, saturate_eq h]
  exact max_le_max_left lo (min_le_min_right hi hxy)

end Saturation

end Sampled
