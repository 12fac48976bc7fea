import HispecTib.Base.Prog

/-!
# What programs preserve, and two runs that a view does not tell apart

A view is what somebody sees of the state.

* `Preserves P x`: a run of `x` from a state with `P` ends in one.
* `Alike v R x y`: from states that look alike, `x` and `y` end with values related by `R` and in
  states that look alike. The rules follow the constructs of `Prog`; a value that nobody looks at
  is related by `True`.
* `Unwinds I D v f g`: the items outside `D` do not change the view, and for the items in `D` the
  two bodies agree.
* `Unwinds.purge`: in a run of all items, those in `D` have the values, and the view has the end,
  of a run of the items in `D` alone.
-/

/-- From a state with `P`, a run ends in a state with `P`. -/
def Preserves {σ α : Type} (P : σ → Prop) (x : Prog σ α) : Prop := ∀ s, P s → P (x s).post

namespace Preserves

variable {σ α β : Type} {P : σ → Prop}

theorem pure (a : α) : Preserves P (Pure.pure a : Prog σ α) := fun _ hs => hs

theorem bind {x : Prog σ α} {f : α → Prog σ β} (hx : Preserves P x)
    (hf : ∀ a, Preserves P (f a)) : Preserves P (x >>= f) :=
  fun s hs => hf _ _ (hx s hs)

theorem get : Preserves P (Prog.get : Prog σ σ) := fun _ hs => hs

/-- After a read of the state, the rest starts from the state that was read. -/
theorem getBind {f : σ → Prog σ α} (h : ∀ s, P s → P (f s s).post) :
    Preserves P (Prog.get >>= f) := h

theorem modify {f : σ → σ} (h : ∀ s, P s → P (f s)) : Preserves P (Prog.modify f) := h

theorem act {f : σ → α × σ} (h : ∀ s, P s → P (f s).2) : Preserves P (Prog.act f) := h

theorem ite {c : Prop} [Decidable c] {x y : Prog σ α} (hx : c → Preserves P x)
    (hy : ¬ c → Preserves P y) : Preserves P (if c then x else y) := by
  split
  · rename_i hc; exact hx hc
  · rename_i hc; exact hy hc

theorem firstSome {f : β → Prog σ (Option α)} {bs : List β} (h : ∀ b ∈ bs, Preserves P (f b)) :
    Preserves P (Prog.firstSome f bs) := by
  induction bs with
  | nil => exact pure none
  | cons b bs ih =>
    refine (h b List.mem_cons_self).bind fun r => ?_
    cases r with
    | none => exact ih fun b hb => h b (List.mem_cons_of_mem _ hb)
    | some a => exact pure _

theorem mapList {f : β → Prog σ α} {bs : List β} (h : ∀ b ∈ bs, Preserves P (f b)) :
    Preserves P (Prog.mapList f bs) := by
  induction bs with
  | nil => exact pure []
  | cons b bs ih =>
    refine (h b List.mem_cons_self).bind fun a => ?_
    exact (ih fun b hb => h b (List.mem_cons_of_mem _ hb)).bind fun as => pure _

/-- What every item establishes for itself and none destroys, holds of all items in the end. -/
theorem mapList_each {Q : β → σ → Prop} {f : β → Prog σ α} {bs : List β}
    (hown : ∀ b ∈ bs, ∀ s, Q b (f b s).post) (hkeep : ∀ b, ∀ c ∈ bs, Preserves (Q b) (f c))
    (s : σ) :
    ∀ b ∈ bs, Q b (Prog.mapList f bs s).post := by
  induction bs generalizing s with
  | nil => exact fun b hb => absurd hb List.not_mem_nil
  | cons b bs ih =>
    have htail : ∀ b' ∈ bs, Q b' (Prog.mapList f bs (f b s).post).post :=
      ih (fun c hc => hown c (List.mem_cons_of_mem _ hc))
        (fun b' c hc => hkeep b' c (List.mem_cons_of_mem _ hc)) _
    have hhead : Q b (Prog.mapList f bs (f b s).post).post :=
      mapList (fun c hc => hkeep b c (List.mem_cons_of_mem _ hc)) _ (hown b List.mem_cons_self s)
    exact List.forall_mem_cons.mpr ⟨hhead, htail⟩

/-- A view is kept when each of its values is preserved. -/
theorem keeps {ρ : Type} {v : σ → ρ} {x : Prog σ α}
    (h : ∀ r, Preserves (fun s => v s = r) x) : Keeps v x :=
  fun s => h (v s) s rfl

end Preserves

/-- From states that look alike: related values, and states that look alike. -/
def Alike {σ ρ α β : Type} (v : σ → ρ) (R : α → β → Prop) (x : Prog σ α) (y : Prog σ β) : Prop :=
  ∀ s t, v s = v t → R (x s).val (y t).val ∧ v (x s).post = v (y t).post

namespace Alike

open Prog

variable {σ ρ α α' β β' : Type} {v : σ → ρ} {R : α → β → Prop} {R' : α' → β' → Prop}
  {x : Prog σ α} {y : Prog σ β}

theorem conseq {Q : α → β → Prop} (h : Alike v R x y) (hR : ∀ a b, R a b → Q a b) :
    Alike v Q x y := by
  intro s t hv
  obtain ⟨hval, hpost⟩ := h s t hv
  exact ⟨hR _ _ hval, hpost⟩

theorem pure {a : α} {b : β} (h : R a b) :
    Alike v R (Pure.pure a : Prog σ α) (Pure.pure b : Prog σ β) :=
  fun _ _ hv => ⟨h, hv⟩

theorem bind {f : α → Prog σ α'} {g : β → Prog σ β'} (hx : Alike v R x y)
    (hf : ∀ a b, R a b → Alike v R' (f a) (g b)) : Alike v R' (x >>= f) (y >>= g) := by
  intro s t hv
  obtain ⟨hval, hpost⟩ := hx s t hv
  exact hf _ _ hval _ _ hpost

/-- The second parts go on with the same value. -/
theorem bindEq {x y : Prog σ α} {f : α → Prog σ α'} {g : α → Prog σ β'} (hx : Alike v Eq x y)
    (hf : ∀ a, Alike v R' (f a) (g a)) : Alike v R' (x >>= f) (y >>= g) :=
  hx.bind fun a _ hab => hab ▸ hf a

/-- After reads of states that look alike, the rest starts from these states. -/
theorem getBind {f g : σ → Prog σ α'} {Q : α' → α' → Prop}
    (h : ∀ s t, v s = v t → Alike v Q (f s) (g t)) :
    Alike v Q (Prog.get >>= f) (Prog.get >>= g) :=
  fun s t hv => h s t hv s t hv

theorem modify {f g : σ → σ} (h : ∀ s t, v s = v t → v (f s) = v (g t)) :
    Alike v Eq (Prog.modify f) (Prog.modify g) :=
  fun s t hv => ⟨rfl, h s t hv⟩

theorem act {f : σ → α × σ} {g : σ → β × σ}
    (h : ∀ s t, v s = v t → R (f s).1 (g t).1 ∧ v (f s).2 = v (g t).2) :
    Alike v R (Prog.act f) (Prog.act g) := h

theorem ite {c : Prop} [Decidable c] {x' : Prog σ α} {y' : Prog σ β} (h : c → Alike v R x y)
    (h' : ¬ c → Alike v R x' y') : Alike v R (if c then x else x') (if c then y else y') := by
  split
  · rename_i hc; exact h hc
  · rename_i hc; exact h' hc

/-- Programs that do not change the view agree up to their values. -/
theorem of_keeps (hx : Keeps v x) (hy : Keeps v y) : Alike v (fun _ _ => True) x y :=
  fun s t hv => ⟨trivial, (hx s).trans (hv.trans (hy t).symm)⟩

theorem firstSome {f g : β → Prog σ (Option α)} {bs : List β}
    (h : ∀ b ∈ bs, Alike v Eq (f b) (g b)) :
    Alike v Eq (Prog.firstSome f bs) (Prog.firstSome g bs) := by
  induction bs with
  | nil => exact pure rfl
  | cons b bs ih =>
    refine (h b List.mem_cons_self).bind fun r r' hr => ?_
    subst hr
    cases r with
    | none => exact ih fun b hb => h b (List.mem_cons_of_mem _ hb)
    | some a => exact pure rfl

end Alike

/-! ## Runs without the items outside -/

section Purge

variable {σ ρ α β : Type} {I : σ → Prop} {D : β → Prop} {v : σ → ρ} {f g : β → Prog σ α}

/-- The items outside `D` keep the view while `I` holds, which every item keeps; for the items in
`D`, the two bodies agree. -/
structure Unwinds (I : σ → Prop) (D : β → Prop) (v : σ → ρ) (f g : β → Prog σ α) : Prop where
  keeps : ∀ b s, I s → I (f b s).post
  outside : ∀ b s, ¬ D b → I s → v (f b s).post = v s
  inside : ∀ b, D b → Alike v Eq (f b) (g b)

/-- The values that the items in `D` have in a run. -/
def valuesIn (D : β → Prop) [DecidablePred D] (f : β → Prog σ α) : List β → σ → List α
  | [], _ => []
  | b :: bs, s =>
    let rest := valuesIn D f bs (f b s).post
    if D b then (f b s).val :: rest else rest

/-- **Purging a run.** -/
theorem Unwinds.purge [DecidablePred D] (h : Unwinds I D v f g) (bs : List β) {s t : σ}
    (hs : I s) (hv : v s = v t) :
    valuesIn D f bs s = (Prog.mapList g (bs.filter D) t).val ∧
      v (Prog.mapList f bs s).post = v (Prog.mapList g (bs.filter D) t).post := by
  induction bs generalizing s t with
  | nil => exact ⟨rfl, hv⟩
  | cons b bs ih =>
    by_cases hb : D b
    · obtain ⟨hval, hpost⟩ := h.inside b hb s t hv
      obtain ⟨hvals, hend⟩ := ih (h.keeps b s hs) hpost
      rw [List.filter_cons_of_pos (by simpa using hb)]
      refine ⟨?_, hend⟩
      simp only [valuesIn, if_pos hb, hval, hvals]
      rfl
    · have hpost := (h.outside b s hb hs).trans hv
      obtain ⟨hvals, hend⟩ := ih (h.keeps b s hs) hpost
      rw [List.filter_cons_of_neg (by simpa using hb)]
      refine ⟨?_, hend⟩
      rw [valuesIn, if_neg hb, hvals]

end Purge
