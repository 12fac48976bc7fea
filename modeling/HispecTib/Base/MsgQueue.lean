import Mathlib.Tactic.Common

/-!
# Bounded message queues

A first-in first-out queue with room for `cap` messages. The bound is a field, so an overfull
queue cannot be built. `put?` and `get?` do not wait: they fail on a full and on an empty queue. A
blocking put is a step that is enabled only when `put?` succeeds.
-/

structure MsgQueue (α : Type) (cap : Nat) where
  items : List α
  bounded : items.length ≤ cap

namespace MsgQueue

variable {α β : Type} {cap : Nat}

def empty : MsgQueue α cap := ⟨[], Nat.zero_le _⟩

theorem append_bounded {q : MsgQueue α cap} (h : q.items.length < cap) (a : α) :
    (q.items ++ [a]).length ≤ cap := by
  rw [List.length_append, List.length_singleton]
  exact h

/-- The queue with `a` at its end, if there is room. -/
def put? (q : MsgQueue α cap) (a : α) : Option (MsgQueue α cap) :=
  if h : q.items.length < cap then some ⟨q.items ++ [a], append_bounded h a⟩ else none

/-- The first message and the rest, if there is one. -/
def get? (q : MsgQueue α cap) : Option (α × MsgQueue α cap) :=
  match h : q.items with
  | [] => none
  | a :: rest => some (a, ⟨rest, by have := q.bounded; rw [h, List.length_cons] at this; omega⟩)

/-- A put without waiting whose result is ignored: a full queue drops the message. -/
def offer (q : MsgQueue α cap) (a : α) : MsgQueue α cap := (q.put? a).getD q

/-- The queue with every message seen through `f`. -/
def map (f : α → β) (q : MsgQueue α cap) : MsgQueue β cap :=
  ⟨q.items.map f, by rw [List.length_map]; exact q.bounded⟩

@[simp] theorem empty_items : (empty : MsgQueue α cap).items = [] := rfl

theorem put?_items {q q' : MsgQueue α cap} {a : α} (h : q.put? a = some q') :
    q'.items = q.items ++ [a] := by
  unfold put? at h
  split at h
  · simp only [Option.some.injEq] at h
    rw [← h]
  · cases h

theorem put?_eq_none {q : MsgQueue α cap} {a : α} : q.put? a = none ↔ q.items.length = cap := by
  have := q.bounded
  unfold put?
  split <;> simp <;> omega

/-- A queue with room accepts the message. -/
theorem put?_of_lt {q : MsgQueue α cap} (h : q.items.length < cap) (a : α) :
    q.put? a = some ⟨q.items ++ [a], append_bounded h a⟩ := dif_pos h

theorem get?_items {q q' : MsgQueue α cap} {a : α} (h : q.get? = some (a, q')) :
    q.items = a :: q'.items := by
  unfold get? at h
  split at h
  · cases h
  · rename_i b rest hq
    simp only [Option.some.injEq, Prod.mk.injEq] at h
    rw [hq, ← h.1, ← h.2]

/-- A queue with a message gives its first one. -/
theorem get?_of_ne_nil {q : MsgQueue α cap} (h : q.items ≠ []) :
    ∃ a q', q.get? = some (a, q') := by
  cases hget : q.get? with
  | some r => exact ⟨r.1, r.2, rfl⟩
  | none =>
    unfold get? at hget
    split at hget
    · rename_i hnil
      exact absurd hnil h
    · cases hget

/-- An ignored put appends the message or leaves the queue as it is. -/
theorem offer_items (q : MsgQueue α cap) (a : α) :
    (q.offer a).items = q.items ++ [a] ∨ (q.offer a).items = q.items := by
  unfold offer
  cases h : q.put? a with
  | none => exact Or.inr rfl
  | some q' => exact Or.inl (put?_items h)

/-- Whatever its result, a put of a message that `f` does not see. -/
theorem offer_filterMap {f : α → Option β} {a : α} (h : f a = none) (q : MsgQueue α cap) :
    (q.offer a).items.filterMap f = q.items.filterMap f := by
  rcases q.offer_items a with hq | hq
  · simp [hq, h]
  · rw [hq]

/-- An ignored put appends the message exactly when there is room. -/
theorem offer_eq_append_iff (q : MsgQueue α cap) (a : α) :
    (q.offer a).items = q.items ++ [a] ↔ q.items.length < cap := by
  constructor
  · intro h
    by_contra hfull
    have hput : q.put? a = none := dif_neg hfull
    simp [offer, hput] at h
  · intro h
    rw [offer, put?_of_lt h a]
    rfl

theorem map_offer (f : α → β) (q : MsgQueue α cap) (a : α) :
    (q.map f).offer (f a) = (q.offer a).map f := by
  by_cases h : q.items.length < cap
  · simp [offer, put?, map, h]
  · simp [offer, put?, map, h]

end MsgQueue
