import Mathlib.Tactic.Common

/-!
# Times that keep a distance

The times at which something happened, the last one first, of which any two are at least `gap`
apart. In a window of length `len` there are at most `len / gap` of them, rounded up.
-/

/-- Each time is at least `gap` after those behind it. -/
def Spaced (gap : Nat) (times : List Nat) : Prop :=
  times.Pairwise fun later earlier => earlier + gap ≤ later

namespace Spaced

variable {gap : Nat} {times : List Nat}

theorem nil (gap : Nat) : Spaced gap [] := List.Pairwise.nil

theorem cons {t : Nat} (h : Spaced gap times) (ht : ∀ earlier ∈ times, earlier + gap ≤ t) :
    Spaced gap (t :: times) := List.Pairwise.cons ht h

theorem filter (h : Spaced gap times) (p : Nat → Bool) : Spaced gap (times.filter p) :=
  List.Pairwise.filter p h

/-- From `a` on, the last of `n + 1` times is at least `n` gaps away. -/
theorem last_ge {a t : Nat} (h : Spaced gap (t :: times)) (ha : ∀ s ∈ t :: times, a ≤ s) :
    a + times.length * gap ≤ t := by
  induction times generalizing t with
  | nil => simpa using ha t List.mem_cons_self
  | cons s times ih =>
    obtain ⟨hlast, hrest⟩ := List.pairwise_cons.mp h
    have hs : a + times.length * gap ≤ s :=
      ih hrest fun x hx => ha x (List.mem_cons_of_mem _ hx)
    have hst : s + gap ≤ t := hlast s List.mem_cons_self
    rw [List.length_cons, Nat.succ_mul]
    omega

/-- **The rate.** The number of times in a window. -/
theorem rate_le (h : Spaced gap times) (hgap : 0 < gap) (a len : Nat) :
    (times.filter fun t => a ≤ t ∧ t < a + len).length ≤ (len + gap - 1) / gap := by
  have hwindow : ∀ t ∈ times.filter fun t => a ≤ t ∧ t < a + len, a ≤ t ∧ t < a + len :=
    fun t ht => of_decide_eq_true (List.mem_filter.mp ht).2
  have hspaced := h.filter fun t => a ≤ t ∧ t < a + len
  generalize (times.filter fun t => a ≤ t ∧ t < a + len) = inside at *
  cases inside with
  | nil => exact Nat.zero_le _
  | cons t inside =>
    have hlast : a + inside.length * gap ≤ t := hspaced.last_ge fun s hs => (hwindow s hs).1
    have ht : t < a + len := (hwindow t List.mem_cons_self).2
    rw [Nat.le_div_iff_mul_le hgap, List.length_cons, Nat.succ_mul]
    omega

end Spaced
