import HispecTib.Base.Prog

/-!
# What a program adds to a measure

A measure of the state that programs only let grow: elapsed time, calls made, bytes written.
`Adds m n x` bounds the growth in one run of `x`. The bound of a sequence is the sum of the bounds
of its parts, and that of a loop is the bound of its body times the number of items.
-/

/-- A run of `x` adds at most `n` to the measure `m`. -/
def Adds {σ α : Type} (m : σ → Nat) (n : Nat) (x : Prog σ α) : Prop := ∀ s, m (x s).post ≤ m s + n

namespace Adds

variable {σ α β : Type} {m : σ → Nat} {n k : Nat}

theorem mono {x : Prog σ α} (h : Adds m n x) (hn : n ≤ k) : Adds m k x :=
  fun s => Nat.le_trans (h s) (Nat.add_le_add_left hn _)

theorem of_keeps {x : Prog σ α} (h : Keeps m x) : Adds m n x :=
  fun s => Nat.le_trans (Nat.le_of_eq (h s)) (Nat.le_add_right _ _)

theorem pure (a : α) : Adds m n (Pure.pure a : Prog σ α) := of_keeps (Keeps.pure a)

theorem get : Adds m n (Prog.get : Prog σ σ) := of_keeps Keeps.get

theorem act {f : σ → α × σ} (h : ∀ s, m (f s).2 ≤ m s + n) : Adds m n (Prog.act f) := h

theorem bind {x : Prog σ β} {f : β → Prog σ α} (hx : Adds m n x) (hf : ∀ b, Adds m k (f b)) :
    Adds m (n + k) (x >>= f) := by
  intro s
  calc m (f (x s).val (x s).post).post ≤ m (x s).post + k := hf _ _
    _ ≤ m s + n + k := Nat.add_le_add_right (hx s) k
    _ = m s + (n + k) := Nat.add_assoc _ _ _

/-- The parts share the bound of the whole. -/
theorem bind_le {l : Nat} {x : Prog σ β} {f : β → Prog σ α} (hx : Adds m n x)
    (hf : ∀ b, Adds m k (f b)) (hl : n + k ≤ l) : Adds m l (x >>= f) := (hx.bind hf).mono hl

/-- A part that adds nothing. -/
theorem getBind {f : σ → Prog σ α} (hf : ∀ s, Adds m n (f s)) : Adds m n (Prog.get >>= f) :=
  get.bind_le hf (Nat.le_of_eq (Nat.zero_add n))

theorem ite {c : Prop} [Decidable c] {x y : Prog σ α} (hx : c → Adds m n x)
    (hy : ¬ c → Adds m n y) : Adds m n (if c then x else y) := by
  split
  · rename_i hc; exact hx hc
  · rename_i hc; exact hy hc

theorem firstSome {f : β → Prog σ (Option α)} {bs : List β} (h : ∀ b ∈ bs, Adds m n (f b)) :
    Adds m (n * bs.length) (Prog.firstSome f bs) := by
  induction bs with
  | nil => exact pure none
  | cons b bs ih =>
    refine (h b List.mem_cons_self).bind_le (k := n * bs.length) (fun r => ?_) ?_
    · cases r with
      | none => exact ih fun b hb => h b (List.mem_cons_of_mem _ hb)
      | some a => exact pure _
    · exact Nat.le_of_eq (by rw [List.length_cons, Nat.mul_succ, Nat.add_comm])

/-- **Runs.** -/
theorem mapList {f : β → Prog σ α} {bs : List β} (h : ∀ b ∈ bs, Adds m n (f b)) :
    Adds m (n * bs.length) (Prog.mapList f bs) := by
  induction bs with
  | nil => exact pure []
  | cons b bs ih =>
    refine (h b List.mem_cons_self).bind_le (k := n * bs.length) (fun a => ?_) ?_
    · exact (ih fun b hb => h b (List.mem_cons_of_mem _ hb)).bind_le (fun as => pure _)
        (Nat.le_of_eq (Nat.add_zero _))
    · exact Nat.le_of_eq (by rw [List.length_cons, Nat.mul_succ, Nat.add_comm])

end Adds
