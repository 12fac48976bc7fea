import Mathlib.Logic.Function.Basic
import Mathlib.Tactic.Common

/-!
# Sequences of writes

A sequence of writes `ws` takes a map to the map after them, the later write winning.

* `writes_of_notMem`: keys that are not written keep their values.
* `writes_of_const`: a key that is only ever written with one value has it.
* `writes_again`: to make the same writes again changes nothing.
* `writes_comm`: sequences that write disjoint keys commute.
-/

section Writes

variable {κ ν : Type}

/-- The keys that are written. -/
def writtenKeys (ws : List (κ × ν)) : List κ := ws.map Prod.fst

@[simp] theorem writtenKeys_cons (k : κ) (v : ν) (ws : List (κ × ν)) :
    writtenKeys ((k, v) :: ws) = k :: writtenKeys ws := rfl

variable [DecidableEq κ]

/-- The map after the writes `ws`, in order. -/
def writes (ws : List (κ × ν)) (m : κ → ν) : κ → ν :=
  ws.foldl (fun m w => Function.update m w.1 w.2) m

@[simp] theorem writes_nil (m : κ → ν) : writes [] m = m := rfl

@[simp] theorem writes_cons (k : κ) (v : ν) (ws : List (κ × ν)) (m : κ → ν) :
    writes ((k, v) :: ws) m = writes ws (Function.update m k v) := rfl

variable {ws ws' : List (κ × ν)} {k : κ} {v : ν}

theorem writes_of_notMem (h : k ∉ writtenKeys ws) (m : κ → ν) : writes ws m k = m k := by
  induction ws generalizing m with
  | nil => rfl
  | cons w ws ih =>
    obtain ⟨hne, hrest⟩ := not_or.mp (mt List.mem_cons.mpr h)
    rw [writes_cons, ih hrest, Function.update_of_ne hne]

/-- The value at a key depends on the value there before, and on no other. -/
theorem writes_congr (ws : List (κ × ν)) {m m' : κ → ν} (h : m k = m' k) :
    writes ws m k = writes ws m' k := by
  induction ws generalizing m m' with
  | nil => exact h
  | cons w ws ih =>
    refine ih ?_
    by_cases hk : k = w.1
    · subst hk
      simp
    · simp [Function.update_of_ne hk, h]

theorem writes_of_const (hmem : k ∈ writtenKeys ws) (hv : ∀ w ∈ ws, w.1 = k → w.2 = v)
    (m : κ → ν) : writes ws m k = v := by
  induction ws generalizing m with
  | nil => cases hmem
  | cons w ws ih =>
    have hv' := fun x hx => hv x (List.mem_cons_of_mem _ hx)
    by_cases hlater : k ∈ writtenKeys ws
    · exact ih hlater hv' _
    · -- The first write is the only one of `k`.
      obtain rfl : k = w.1 := (List.mem_cons.mp hmem).resolve_right hlater
      rw [writes_cons, writes_of_notMem hlater, Function.update_self]
      exact hv w List.mem_cons_self rfl

/-- What a written key has afterwards does not depend on the map. -/
theorem writes_of_mem (h : k ∈ writtenKeys ws) (m m' : κ → ν) : writes ws m k = writes ws m' k := by
  induction ws generalizing m m' with
  | nil => cases h
  | cons w ws ih =>
    by_cases hlater : k ∈ writtenKeys ws
    · exact ih hlater _ _
    · obtain rfl : k = w.1 := (List.mem_cons.mp h).resolve_right hlater
      rw [writes_cons, writes_cons]
      exact writes_congr ws (by simp)

/-- Writes that are made again change nothing. -/
theorem writes_again (ws : List (κ × ν)) (m : κ → ν) : writes ws (writes ws m) = writes ws m := by
  funext k
  by_cases hk : k ∈ writtenKeys ws
  · exact writes_of_mem hk _ _
  · rw [writes_of_notMem hk]

theorem writes_comm (h : ∀ k ∈ writtenKeys ws, k ∉ writtenKeys ws') (m : κ → ν) :
    writes ws' (writes ws m) = writes ws (writes ws' m) := by
  funext k
  by_cases hk : k ∈ writtenKeys ws
  · rw [writes_of_notMem (h k hk), writes_congr ws (writes_of_notMem (h k hk) m)]
  · rw [writes_of_notMem hk, writes_congr ws' (writes_of_notMem hk m)]

end Writes
