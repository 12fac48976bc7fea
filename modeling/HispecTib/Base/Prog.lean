import Mathlib.Tactic.Common

/-!
# Programs over a state that expose intermediate states

`Prog σ α` is a state-passing program that also lists the states at its **observation points**: a
program observes the state by running a primitive made with `Prog.act`, and the points of a
sequence are the points of its parts in order. A property of every intermediate state of a run is
a property of `Run.points`.

* `Triple P J x Q`: from a state with `P`, every observation point of `x` has `J`, and `x` ends
  with a value and a state that have `Q`. Programs are total, so this is total correctness.
* `Yields x Q`: from every state, `x` ends with a value that has `Q`.
* `Keeps f x`: `x` does not change what `f` reads of the state.
* `Prog.firstSome f bs`: the C loop `for b in bs` whose body may `return`; the rule
  `Triple.firstSome` takes an invariant that depends on the items already done.
* `Prog.mapList f bs`: runs `f` on every item, in order.
-/

/-- The outcome of one run. -/
structure Run (σ α : Type) where
  val : α
  post : σ
  points : List σ

def Prog (σ α : Type) := σ → Run σ α

namespace Prog

variable {σ α β : Type}

protected def pure (a : α) : Prog σ α := fun s => ⟨a, s, []⟩

protected def bind (x : Prog σ α) (f : α → Prog σ β) : Prog σ β := fun s =>
  let r := x s
  let r' := f r.val r.post
  ⟨r'.val, r'.post, r.points ++ r'.points⟩

instance : Monad (Prog σ) where
  pure := Prog.pure
  bind := Prog.bind

/-- The current state. -/
def get : Prog σ σ := fun s => ⟨s, s, []⟩

/-- A state change that is not an observation point. -/
def modify (f : σ → σ) : Prog σ Unit := fun s => ⟨(), f s, []⟩

/-- A primitive with an observation point right before it. -/
def act (f : σ → α × σ) : Prog σ α := fun s => ⟨(f s).1, (f s).2, [s]⟩

/-- The loop over `bs` that ends at the first item for which the body returns a value. -/
def firstSome (f : β → Prog σ (Option α)) : List β → Prog σ (Option α)
  | [] => pure none
  | b :: bs => do
    match ← f b with
    | some a => pure (some a)
    | none => firstSome f bs

/-- `f` on every item, in order. -/
def mapList (f : β → Prog σ α) : List β → Prog σ (List α)
  | [] => pure []
  | b :: bs => do
    let a ← f b
    let as ← mapList f bs
    pure (a :: as)

section Runs

variable (s : σ)

@[simp] theorem pure_run (a : α) : (pure a : Prog σ α) s = ⟨a, s, []⟩ := rfl

@[simp] theorem bind_run (x : Prog σ α) (f : α → Prog σ β) :
    (x >>= f) s = ⟨(f (x s).val (x s).post).val, (f (x s).val (x s).post).post,
      (x s).points ++ (f (x s).val (x s).post).points⟩ := rfl

@[simp] theorem get_run : (get : Prog σ σ) s = ⟨s, s, []⟩ := rfl

@[simp] theorem modify_run (f : σ → σ) : modify f s = ⟨(), f s, []⟩ := rfl

@[simp] theorem act_run (f : σ → α × σ) : act f s = ⟨(f s).1, (f s).2, [s]⟩ := rfl

theorem ite_run {c : Prop} [Decidable c] (x y : Prog σ α) :
    (if c then x else y) s = if c then x s else y s := by split <;> rfl

/-- An item without a result: the loop goes on from the state that it left. -/
theorem firstSome_cons_none {f : β → Prog σ (Option α)} {b : β} (h : (f b s).val = none)
    (bs : List β) :
    (firstSome f (b :: bs) s).val = (firstSome f bs (f b s).post).val ∧
      (firstSome f (b :: bs) s).post = (firstSome f bs (f b s).post).post := by
  simp only [firstSome, bind_run, h, and_self]

theorem mapList_append_post (f : β → Prog σ α) (bs cs : List β) :
    (mapList f (bs ++ cs) s).post = (mapList f cs (mapList f bs s).post).post := by
  induction bs generalizing s with
  | nil => rfl
  | cons b bs ih => simpa [mapList] using ih _

theorem mapList_append_val (f : β → Prog σ α) (bs cs : List β) :
    (mapList f (bs ++ cs) s).val =
      (mapList f bs s).val ++ (mapList f cs (mapList f bs s).post).val := by
  induction bs generalizing s with
  | nil => rfl
  | cons b bs ih => simpa [mapList] using ih _

/-- The `i`-th value is that of `f` run after the first `i` items. -/
theorem mapList_getElem? (f : β → Prog σ α) (bs : List β) (i : Nat) :
    (mapList f bs s).val[i]? = bs[i]?.map fun b => (f b (mapList f (bs.take i) s).post).val := by
  induction bs generalizing s i with
  | nil => rfl
  | cons b bs ih =>
    cases i with
    | zero => rfl
    | succ i => simpa [mapList] using ih (f b s).post i

theorem mapList_length (f : β → Prog σ α) (bs : List β) :
    (mapList f bs s).val.length = bs.length := by
  induction bs generalizing s with
  | nil => rfl
  | cons b bs ih => simpa [mapList] using ih _

end Runs

end Prog

/-- From `P`, every observation point has `J` and the run ends in `Q`. -/
def Triple {σ α : Type} (P J : σ → Prop) (x : Prog σ α) (Q : α → σ → Prop) : Prop :=
  ∀ s, P s → (∀ p ∈ (x s).points, J p) ∧ Q (x s).val (x s).post

namespace Triple

open Prog

variable {σ α β : Type} {P P' J : σ → Prop} {Q Q' : α → σ → Prop} {x : Prog σ α}

theorem conseq (h : Triple P J x Q) (hp : ∀ s, P' s → P s) (hq : ∀ a s, Q a s → Q' a s) :
    Triple P' J x Q' := by
  intro s hs
  obtain ⟨hj, hQ⟩ := h s (hp s hs)
  exact ⟨hj, hq _ _ hQ⟩

theorem pre (h : Triple P J x Q) (hp : ∀ s, P' s → P s) : Triple P' J x Q :=
  h.conseq hp fun _ _ hq => hq

theorem post (h : Triple P J x Q) (hq : ∀ a s, Q a s → Q' a s) : Triple P J x Q' :=
  h.conseq (fun _ hp => hp) hq

theorem pure {a : α} (h : ∀ s, P s → Q a s) : Triple P J (Pure.pure a : Prog σ α) Q := by
  intro s hs
  exact ⟨by simp, h s hs⟩

theorem bind {R : β → σ → Prop} {f : α → Prog σ β} (hx : Triple P J x Q)
    (hf : ∀ a, Triple (Q a) J (f a) R) : Triple P J (x >>= f) R := by
  intro s hs
  obtain ⟨hj, hq⟩ := hx s hs
  obtain ⟨hj', hr⟩ := hf _ _ hq
  refine ⟨fun p hp => ?_, hr⟩
  rcases List.mem_append.mp hp with hp | hp
  · exact hj p hp
  · exact hj' p hp

theorem get : Triple P J (Prog.get : Prog σ σ) fun a s => a = s ∧ P s := by
  intro s hs
  exact ⟨by simp, rfl, hs⟩

/-- After a read of the state, the rest starts from the state that was read. -/
theorem getBind {k : σ → Prog σ α} (h : ∀ s, P s → Triple (· = s) J (k s) Q) :
    Triple P J (Prog.get >>= k) Q := by
  refine Triple.get.bind fun s => ?_
  rintro s' ⟨rfl, hs⟩
  exact h s hs s rfl

theorem modify {f : σ → σ} {R : σ → Prop} (h : ∀ s, P s → R (f s)) :
    Triple P J (Prog.modify f) fun _ => R := by
  intro s hs
  exact ⟨by simp, h s hs⟩

theorem act {f : σ → α × σ} (hj : ∀ s, P s → J s) (h : ∀ s, P s → Q (f s).1 (f s).2) :
    Triple P J (Prog.act f) Q := by
  intro s hs
  refine ⟨fun p hp => ?_, h s hs⟩
  obtain rfl : p = s := by simpa using hp
  exact hj p hs

theorem ite {c : Prop} [Decidable c] {y : Prog σ α} (hx : c → Triple P J x Q)
    (hy : ¬ c → Triple P J y Q) : Triple P J (if c then x else y) Q := by
  split
  · rename_i h; exact hx h
  · rename_i h; exact hy h

/-- **Loops with an early exit.** `I` is indexed by the items already done. -/
theorem firstSome {f : β → Prog σ (Option α)} {I : List β → σ → Prop} {Q : Option α → σ → Prop}
    {bs : List β} (hbody : ∀ done b rest, bs = done ++ b :: rest →
      Triple (I done) J (f b) fun r s => match r with
        | none => I (done ++ [b]) s
        | some a => Q (some a) s)
    (hend : ∀ s, I bs s → Q none s) : Triple (I []) J (Prog.firstSome f bs) Q := by
  suffices h : ∀ rest done, bs = done ++ rest → Triple (I done) J (Prog.firstSome f rest) Q from
    h bs [] rfl
  intro rest
  induction rest with
  | nil =>
    intro done hd
    rw [List.append_nil] at hd
    exact Triple.pure fun s hs => hend s (hd ▸ hs)
  | cons b rest ih =>
    intro done hd
    refine (hbody done b rest hd).bind fun r => ?_
    cases r with
    | none => exact ih (done ++ [b]) (by simpa using hd)
    | some a => exact Triple.pure fun s hs => hs

/-- **Runs.** What every item keeps, a whole run keeps. -/
theorem mapList {f : β → Prog σ α} {I : σ → Prop} {bs : List β}
    (h : ∀ b ∈ bs, Triple I J (f b) fun _ => I) :
    Triple I J (Prog.mapList f bs) fun _ => I := by
  induction bs with
  | nil => exact Triple.pure fun s hs => hs
  | cons b bs ih =>
    refine (h b List.mem_cons_self).bind fun a => ?_
    refine (ih fun b hb => h b (List.mem_cons_of_mem _ hb)).bind fun as => ?_
    exact Triple.pure fun s hs => hs

end Triple

/-- From every state, the value of `x` has `Q`. -/
def Yields {σ α : Type} (x : Prog σ α) (Q : α → Prop) : Prop := ∀ s, Q (x s).val

namespace Yields

variable {σ α β : Type} {Q : α → Prop}

theorem pure {a : α} (h : Q a) : Yields (Pure.pure a : Prog σ α) Q := fun _ => h

/-- Only the last part of a sequence gives the value. -/
theorem bind {x : Prog σ β} {f : β → Prog σ α} (h : ∀ b, Yields (f b) Q) :
    Yields (x >>= f) Q :=
  fun s => h (x s).val (x s).post

/-- The first part passes on a value with `R`. -/
theorem bind' {R : β → Prop} {x : Prog σ β} {f : β → Prog σ α} (hx : Yields x R)
    (h : ∀ b, R b → Yields (f b) Q) : Yields (x >>= f) Q :=
  fun s => h _ (hx s) (x s).post

theorem ite {c : Prop} [Decidable c] {x y : Prog σ α} (hx : c → Yields x Q)
    (hy : ¬ c → Yields y Q) : Yields (if c then x else y) Q := by
  split
  · rename_i h; exact hx h
  · rename_i h; exact hy h

theorem firstSome {f : β → Prog σ (Option α)} {bs : List β}
    (h : ∀ b ∈ bs, Yields (f b) fun r => ∀ a ∈ r, Q a) :
    Yields (Prog.firstSome f bs) fun r => ∀ a ∈ r, Q a := by
  induction bs with
  | nil => exact Yields.pure fun a ha => by cases ha
  | cons b bs ih =>
    refine Yields.bind' (h b List.mem_cons_self) fun r hr => ?_
    cases r with
    | none => exact ih fun b hb => h b (List.mem_cons_of_mem _ hb)
    | some a => exact Yields.pure hr

end Yields

/-- `x` does not change what `f` reads of the state. -/
def Keeps {σ α ρ : Type} (f : σ → ρ) (x : Prog σ α) : Prop := ∀ s, f (x s).post = f s

namespace Keeps

variable {σ α β ρ : Type} {f : σ → ρ}

theorem pure (a : α) : Keeps f (Pure.pure a : Prog σ α) := fun _ => rfl

theorem get : Keeps f (Prog.get : Prog σ σ) := fun _ => rfl

theorem modify {g : σ → σ} (h : ∀ s, f (g s) = f s) : Keeps f (Prog.modify g) := h

theorem act {g : σ → α × σ} (h : ∀ s, f (g s).2 = f s) : Keeps f (Prog.act g) := h

theorem bind {x : Prog σ α} {k : α → Prog σ β} (hx : Keeps f x) (hk : ∀ a, Keeps f (k a)) :
    Keeps f (x >>= k) :=
  fun s => (hk _ _).trans (hx s)

theorem ite {c : Prop} [Decidable c] {x y : Prog σ α} (hx : c → Keeps f x)
    (hy : ¬ c → Keeps f y) : Keeps f (if c then x else y) := by
  split
  · rename_i h; exact hx h
  · rename_i h; exact hy h

theorem firstSome {g : β → Prog σ (Option α)} {bs : List β} (h : ∀ b ∈ bs, Keeps f (g b)) :
    Keeps f (Prog.firstSome g bs) := by
  induction bs with
  | nil => exact Keeps.pure none
  | cons b bs ih =>
    refine (h b List.mem_cons_self).bind fun r => ?_
    cases r with
    | none => exact ih fun b hb => h b (List.mem_cons_of_mem _ hb)
    | some a => exact Keeps.pure _

theorem mapList {g : β → Prog σ α} {bs : List β} (h : ∀ b ∈ bs, Keeps f (g b)) :
    Keeps f (Prog.mapList g bs) := by
  induction bs with
  | nil => exact Keeps.pure []
  | cons b bs ih =>
    refine (h b List.mem_cons_self).bind fun a => ?_
    exact (ih fun b hb => h b (List.mem_cons_of_mem _ hb)).bind fun as => Keeps.pure _

/-- What a program keeps, it keeps under any view. -/
theorem comp {τ : Type} {x : Prog σ α} (h : Keeps f x) (g : ρ → τ) :
    Keeps (fun s => g (f s)) x :=
  fun s => congrArg g (h s)

/-- What holds of the part that a program keeps, holds after it. -/
theorem triple {x : Prog σ α} {P : ρ → Prop} (h : Keeps f x) :
    Triple (fun s => P (f s)) (fun _ => True) x fun _ s => P (f s) := by
  intro s hs
  have hpost : P (f (x s).post) := by rwa [h s]
  exact ⟨fun _ _ => trivial, hpost⟩

end Keeps
