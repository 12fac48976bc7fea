import Mathlib.Data.Nat.Find
import Mathlib.Logic.Function.Iterate
import Mathlib.Tactic.Common

/-!
# While loops

`run cond body fuel s` is `while (cond) body` from the state `s`, given up after `fuel` tests of the
condition. `EndsAfter cond body s n`: the loop ends after `n` rounds.

* `run_eq_some_iff`, `exists_run_map_iff`: the loop gives a result, with enough fuel, exactly if it
  ends, and then the result is the state after its rounds.
* `EndsAfter.unique`: a loop ends after one number of rounds only.
* `ends_iff`: a loop ends exactly if the condition fails after some number of rounds.
-/

namespace WhileLoop

variable {σ : Type} {cond : σ → Bool} {body : σ → σ} {s t : σ} {fuel m n : Nat}

def run (cond : σ → Bool) (body : σ → σ) : Nat → σ → Option σ
  | 0, _ => none
  | fuel + 1, s => if cond s then run cond body fuel (body s) else some s

/-- The condition holds before each of the first `n` rounds and fails after them. -/
structure EndsAfter (cond : σ → Bool) (body : σ → σ) (s : σ) (n : Nat) : Prop where
  before : ∀ i < n, cond (body^[i] s) = true
  after : cond (body^[n] s) = false

theorem endsAfter_zero : EndsAfter cond body s 0 ↔ cond s = false :=
  ⟨fun h => h.after, fun h => ⟨fun i hi => absurd hi (Nat.not_lt_zero i), h⟩⟩

theorem endsAfter_succ (hs : cond s = true) :
    EndsAfter cond body s (n + 1) ↔ EndsAfter cond body (body s) n := by
  constructor
  · rintro ⟨hbefore, hafter⟩
    exact ⟨fun i hi => hbefore (i + 1) (Nat.succ_lt_succ hi), hafter⟩
  · rintro ⟨hbefore, hafter⟩
    refine ⟨fun i hi => ?_, hafter⟩
    cases i with
    | zero => exact hs
    | succ i => exact hbefore i (Nat.lt_of_succ_lt_succ hi)

theorem EndsAfter.unique (hm : EndsAfter cond body s m) (hn : EndsAfter cond body s n) :
    m = n := by
  rcases Nat.lt_trichotomy m n with h | h | h
  · exact absurd (hn.before m h) (by rw [hm.after]; exact Bool.false_ne_true)
  · exact h
  · exact absurd (hm.before n h) (by rw [hn.after]; exact Bool.false_ne_true)

theorem run_eq_some_iff : run cond body fuel s = some t ↔
    ∃ n < fuel, EndsAfter cond body s n ∧ body^[n] s = t := by
  induction fuel generalizing s with
  | zero => exact iff_of_false (by simp [run]) (by simp)
  | succ fuel ih =>
    rw [run]
    by_cases hs : cond s = true
    · rw [if_pos hs, ih]
      constructor
      · rintro ⟨n, hn, hends, ht⟩
        exact ⟨n + 1, Nat.succ_lt_succ hn, (endsAfter_succ hs).mpr hends, ht⟩
      · rintro ⟨n, hn, hends, ht⟩
        cases n with
        | zero => exact absurd hs (by rw [endsAfter_zero.mp hends]; exact Bool.false_ne_true)
        | succ n => exact ⟨n, Nat.lt_of_succ_lt_succ hn, (endsAfter_succ hs).mp hends, ht⟩
    · rw [if_neg hs, Option.some_inj]
      have hzero : EndsAfter cond body s 0 := endsAfter_zero.mpr (Bool.eq_false_iff.mpr hs)
      constructor
      · rintro rfl
        exact ⟨0, Nat.succ_pos fuel, hzero, rfl⟩
      · rintro ⟨n, -, hends, ht⟩
        obtain rfl : n = 0 := hends.unique hzero
        exact ht

/-- With enough fuel the loop gives a result if it ends. -/
theorem exists_run_iff : (∃ fuel, run cond body fuel s = some t) ↔
    ∃ n, EndsAfter cond body s n ∧ body^[n] s = t := by
  constructor
  · rintro ⟨fuel, hrun⟩
    obtain ⟨n, -, h⟩ := run_eq_some_iff.mp hrun
    exact ⟨n, h⟩
  · rintro ⟨n, h⟩
    exact ⟨n + 1, run_eq_some_iff.mpr ⟨n, Nat.lt_succ_self n, h⟩⟩

/-- The same for a result that is read off the final state. -/
theorem exists_run_map_iff {β : Type} {f : σ → β} {y : β} :
    (∃ fuel, (run cond body fuel s).map f = some y) ↔
      ∃ n, EndsAfter cond body s n ∧ f (body^[n] s) = y := by
  constructor
  · rintro ⟨fuel, hrun⟩
    obtain ⟨t, ht, hy⟩ := Option.map_eq_some_iff.mp hrun
    obtain ⟨n, hn, rfl⟩ := exists_run_iff.mp ⟨fuel, ht⟩
    exact ⟨n, hn, hy⟩
  · rintro ⟨n, hn, hy⟩
    obtain ⟨fuel, hrun⟩ := exists_run_iff.mpr ⟨n, hn, rfl⟩
    exact ⟨fuel, Option.map_eq_some_iff.mpr ⟨_, hrun, hy⟩⟩

theorem ends_iff : (∃ n, EndsAfter cond body s n) ↔ ∃ n, cond (body^[n] s) = false := by
  constructor
  · rintro ⟨n, h⟩
    exact ⟨n, h.after⟩
  · intro h
    refine ⟨Nat.find h, fun i hi => ?_, Nat.find_spec h⟩
    exact Bool.of_not_eq_false (Nat.find_min h hi)

end WhileLoop
