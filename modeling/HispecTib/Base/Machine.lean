import HispecTib.Base.Prog

/-!
# Sequential machines

A machine takes requests one at a time and answers each. It says what a service is for; a program
that serves commands is checked against it.

* `Machine.run`: the answers to a list of requests, and the state afterwards.
* `Machine.ServedBy`: one command of a program is one request of the machine, under a relation of
  their states. `ServedBy.mapList` goes from one command to a run.
* `Machine.Repeatable`: a request that is made again at once has the same answer and changes
  nothing more. `run_repeat`: so a repeated request is one answer more, and nothing else.
-/

structure Machine (σ ρ α : Type) where
  step : σ → ρ → σ × α

namespace Machine

variable {σ ρ α κ β τ : Type}

/-- The answers, and the state afterwards. -/
def run (M : Machine σ ρ α) : List ρ → σ → List α × σ
  | [], s => ([], s)
  | r :: rs, s =>
    let rest := M.run rs (M.step s r).1
    ((M.step s r).2 :: rest.1, rest.2)

variable (M : Machine σ ρ α)

@[simp] theorem run_nil (s : σ) : M.run [] s = ([], s) := rfl

@[simp] theorem run_cons (r : ρ) (rs : List ρ) (s : σ) : M.run (r :: rs) s =
    ((M.step s r).2 :: (M.run rs (M.step s r).1).1, (M.run rs (M.step s r).1).2) := rfl

theorem run_append (rs rs' : List ρ) (s : σ) : M.run (rs ++ rs') s =
    ((M.run rs s).1 ++ (M.run rs' (M.run rs s).2).1, (M.run rs' (M.run rs s).2).2) := by
  induction rs generalizing s with
  | nil => rfl
  | cons r rs ih => simp [ih]

@[simp] theorem run_length (rs : List ρ) (s : σ) : (M.run rs s).1.length = rs.length := by
  induction rs generalizing s with
  | nil => rfl
  | cons r rs ih => simp [ih]

/-- Requests that leave the state alone, in a run. -/
theorem run_keeps {rs : List ρ} {s : σ} (h : ∀ r ∈ rs, (M.step s r).1 = s) :
    (M.run rs s).2 = s := by
  induction rs with
  | nil => rfl
  | cons r rs ih =>
    rw [run_cons, h r List.mem_cons_self]
    exact ih fun r' hr' => h r' (List.mem_cons_of_mem r hr')

/-! ## Programs -/

/-- A command is the request that it reads as, and its value is the answer in words. -/
def ServedBy (R : τ → σ → Prop) (read : κ → ρ) (render : κ → α → β) (serve : κ → Prog τ β) :
    Prop :=
  ∀ c t s, R t s → (serve c t).val = render c (M.step s (read c)).2 ∧
    R (serve c t).post (M.step s (read c)).1

variable {M} {R : τ → σ → Prop} {read : κ → ρ} {render : κ → α → β} {serve : κ → Prog τ β}

/-- **Runs.** -/
theorem ServedBy.mapList (h : M.ServedBy R read render serve) (cs : List κ) {t : τ} {s : σ}
    (hts : R t s) :
    (Prog.mapList serve cs t).val = List.zipWith render cs (M.run (cs.map read) s).1 ∧
      R (Prog.mapList serve cs t).post (M.run (cs.map read) s).2 := by
  induction cs generalizing t s with
  | nil => exact ⟨rfl, hts⟩
  | cons c cs ih =>
    obtain ⟨hval, hpost⟩ := h c t s hts
    obtain ⟨hvals, hend⟩ := ih hpost
    refine ⟨?_, hend⟩
    rw [List.map_cons, run_cons, List.zipWith_cons_cons, ← hval, ← hvals]
    rfl

/-! ## Repeated requests -/

variable (M) in
/-- The second of two equal requests has the same answer, and changes nothing. -/
def Repeatable : Prop := ∀ s r, M.step (M.step s r).1 r = M.step s r

theorem Repeatable.run_repeat (h : M.Repeatable) (rs : List ρ) (r : ρ) (rs' : List ρ) (s : σ) :
    ∃ a as, (M.run (rs ++ r :: rs') s).1 = (M.run rs s).1 ++ a :: as ∧
      (M.run (rs ++ r :: r :: rs') s).1 = (M.run rs s).1 ++ a :: a :: as ∧
      (M.run (rs ++ r :: r :: rs') s).2 = (M.run (rs ++ r :: rs') s).2 := by
  refine ⟨(M.step (M.run rs s).2 r).2, (M.run rs' (M.step (M.run rs s).2 r).1).1, ?_, ?_, ?_⟩
  · rw [run_append, run_cons]
  · rw [run_append, run_cons, run_cons, h]
  · rw [run_append, run_append, run_cons, run_cons, run_cons, h]

end Machine
