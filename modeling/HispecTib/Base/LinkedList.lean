import Mathlib.Logic.Function.Basic

/-!
# Intrusive singly linked lists

The nodes are objects of any kind that have a `next` field, and the list is a pointer to the first
one; `none` is the null pointer. A node can be in the list once at most, since it has one `next`.

* `Visits l xs`: the traversal of `l` visits the nodes `xs` and ends. There is at most one such
  `xs` (`Walk.unique`), and no node comes twice in it (`Visits.nodup`).
* `prepend`: `node.next := head; head := node`, without a look at the list.
* `prepend_visits`: a new node comes first and the others stay.
* `prepend_of_mem`: after a prepend of a node that is in the list, no traversal ends.
-/

/-- The pointer to the first node, and the `next` field of every node. -/
structure IntrusiveList (α : Type) where
  head : Option α
  next : α → Option α

namespace IntrusiveList

variable {α : Type} {next next' : α → Option α} {p : Option α} {x : α} {xs ys : List α}

/-- From the pointer `p` on, the traversal visits `xs` and ends. -/
inductive Walk (next : α → Option α) : Option α → List α → Prop
  | nil : Walk next none []
  | cons {x : α} {xs : List α} (h : Walk next (next x) xs) : Walk next (some x) (x :: xs)

theorem Walk.unique (hx : Walk next p xs) (hy : Walk next p ys) : xs = ys := by
  induction hx generalizing ys with
  | nil =>
    cases hy
    rfl
  | cons _ ih =>
    cases hy with
    | cons hy => rw [ih hy]

/-- The links of the nodes that come are all that counts. -/
theorem Walk.congr (h : Walk next p xs) (hsame : ∀ y ∈ xs, next' y = next y) :
    Walk next' p xs := by
  induction h with
  | nil => exact .nil
  | cons _ ih =>
    have hrest := ih fun y hy => hsame y (List.mem_cons_of_mem _ hy)
    rw [← hsame _ List.mem_cons_self] at hrest
    exact .cons hrest

/-- From a node that comes on, the traversal visits a last part of the nodes. -/
theorem Walk.from_mem (h : Walk next p xs) (hx : x ∈ xs) :
    ∃ zs, (x :: zs).length ≤ xs.length ∧ Walk next (some x) (x :: zs) := by
  induction h with
  | nil => cases hx
  | @cons y ys hwalk ih =>
    rcases List.mem_cons.mp hx with rfl | hmem
    · exact ⟨ys, Nat.le_refl _, .cons hwalk⟩
    · obtain ⟨zs, hlen, hzs⟩ := ih hmem
      exact ⟨zs, Nat.le_succ_of_le hlen, hzs⟩

/-- A node that came twice would come again and again. -/
theorem Walk.nodup (h : Walk next p xs) : xs.Nodup := by
  induction h with
  | nil => exact List.nodup_nil
  | @cons y ys hwalk ih =>
    refine List.nodup_cons.mpr ⟨fun hmem => ?_, ih⟩
    obtain ⟨zs, hlen, hzs⟩ := hwalk.from_mem hmem
    have hsame : y :: ys = y :: zs := (Walk.cons hwalk).unique hzs
    rw [← hsame] at hlen
    exact absurd hlen (Nat.not_succ_le_self _)

/-- The traversal of the list visits `xs` and ends. -/
def Visits (l : IntrusiveList α) (xs : List α) : Prop := Walk l.next l.head xs

variable {l : IntrusiveList α}

theorem Visits.nodup (h : l.Visits xs) : xs.Nodup := Walk.nodup h

variable [DecidableEq α]

/-- `x.next := head; head := x`. -/
def prepend (l : IntrusiveList α) (x : α) : IntrusiveList α :=
  ⟨some x, Function.update l.next x l.head⟩

@[simp] theorem prepend_next (l : IntrusiveList α) (x : α) :
    (l.prepend x).next = Function.update l.next x l.head := rfl

theorem prepend_visits (h : l.Visits xs) (hx : x ∉ xs) : (l.prepend x).Visits (x :: xs) := by
  refine .cons ?_
  rw [prepend_next, Function.update_self]
  exact Walk.congr h fun y hy => Function.update_of_ne (ne_of_mem_of_not_mem hy hx) _ _

/-- A link that is changed at `x` does not keep the traversal from reaching `x`. -/
theorem Walk.mem_of_update {q : Option α} (h : Walk next p xs) (hx : x ∈ xs)
    (h' : Walk (Function.update next x q) p ys) : x ∈ ys := by
  induction h generalizing ys with
  | nil => cases hx
  | @cons y zs _ ih =>
    cases h' with
    | cons h' =>
      by_cases hyx : y = x
      · exact hyx ▸ List.mem_cons_self
      · rw [Function.update_of_ne hyx] at h'
        have hmem := (List.mem_cons.mp hx).resolve_left fun hxy => hyx hxy.symm
        exact List.mem_cons_of_mem _ (ih hmem h')

/-- The node is reached through its own link again. -/
theorem prepend_of_mem (h : l.Visits xs) (hx : x ∈ xs) (ys : List α) :
    ¬ (l.prepend x).Visits ys := by
  intro hv
  have hnodup := hv.nodup
  cases hv with
  | cons hv =>
    rw [prepend_next, Function.update_self] at hv
    exact (List.nodup_cons.mp hnodup).1 (Walk.mem_of_update h hx hv)

end IntrusiveList
