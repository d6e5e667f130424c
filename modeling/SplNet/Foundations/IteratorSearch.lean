import Mathlib.Data.List.Basic

/-!
# Loops over an iterator

A loop `while (it.hasNext()) { x = it.next(); if (p x) { …; break; } }` leaves two things behind:
whether it stopped early, and the loop variable `x`. When the loop stopped early the variable is the
first match, which is `List.find?`. When it ran to the end the variable is the **last element
visited**, which need not satisfy `p` at all; `loopVariable` is the variable in both cases.

The order in which an unordered collection is visited is a permutation of its contents. The first
match is independent of that order as soon as all matches are equal (`find?_eq_of_perm`).

A loop that removes from the queue it iterates over is safe here because each removal drops the
first occurrence of an element already visited: every element is visited once, and the loop filters
(`foldl_erase_eq_filter`).
-/

namespace IteratorSearch

variable {α : Type*}

/-- The loop variable after the search loop, starting from `x`. -/
def loopVariable (p : α → Bool) (x : Option α) : List α → Option α
  | [] => x
  | y :: ys => if p y then some y else loopVariable p (some y) ys

theorem loopVariable_of_find?_eq_some {p : α → Bool} {x : Option α} {ys : List α} {y : α}
    (h : ys.find? p = some y) : loopVariable p x ys = some y := by
  induction ys generalizing x with
  | nil => simp at h
  | cons z zs ih =>
    rw [loopVariable]
    by_cases hz : p z
    · rw [List.find?_cons_of_pos hz] at h
      rw [if_pos hz, h]
    · rw [List.find?_cons_of_neg hz] at h
      rw [if_neg hz]
      exact ih h

/-- A search that fails leaves the last visited element behind. -/
theorem loopVariable_of_find?_eq_none {p : α → Bool} {x : Option α} {ys : List α}
    (h : ys.find? p = none) : loopVariable p x ys = ys.getLast?.or x := by
  induction ys generalizing x with
  | nil => rfl
  | cons z zs ih =>
    rw [List.find?_eq_none] at h
    have hz : ¬ p z = true := h z (List.mem_cons_self)
    have hzs : zs.find? p = none := List.find?_eq_none.2 fun y hy ↦ h y (List.mem_cons_of_mem z hy)
    rw [loopVariable, if_neg hz, ih hzs]
    cases zs with
    | nil => rfl
    | cons w ws => simp [List.getLast?_cons]

/-- The loop variable is one of the visited elements. -/
theorem mem_of_loopVariable_eq_some {p : α → Bool} {ys : List α} {y : α}
    (h : loopVariable p none ys = some y) : y ∈ ys := by
  rcases hfind : ys.find? p with - | z
  · rw [loopVariable_of_find?_eq_none hfind, Option.or_none] at h
    exact List.mem_of_getLast? h
  · rw [loopVariable_of_find?_eq_some hfind] at h
    exact Option.some.inj h ▸ List.mem_of_find?_eq_some hfind

/-- The loop variable is the first match, or the last element when there is none. -/
theorem loopVariable_eq_some_iff {p : α → Bool} {ys : List α} {y : α} :
    loopVariable p none ys = some y ↔
      ys.find? p = some y ∨ ys.find? p = none ∧ ys.getLast? = some y := by
  rcases hfind : ys.find? p with - | z
  · rw [loopVariable_of_find?_eq_none hfind, Option.or_none]
    simp
  · rw [loopVariable_of_find?_eq_some hfind]
    simp

/-- When at most one element matches, the first match does not depend on the visiting order. -/
theorem find?_eq_of_perm {p : α → Bool} {xs ys : List α} (hperm : xs.Perm ys)
    (huniq : ∀ a ∈ xs, ∀ b ∈ xs, p a → p b → a = b) : xs.find? p = ys.find? p := by
  rcases hx : xs.find? p with - | a
  · symm
    rw [List.find?_eq_none] at hx ⊢
    exact fun y hy ↦ hx y (hperm.mem_iff.2 hy)
  · have ha := List.mem_of_find?_eq_some hx
    rcases hy : ys.find? p with - | b
    · exact absurd (List.find?_some hx) (List.find?_eq_none.1 hy a (hperm.mem_iff.1 ha))
    · have hb := hperm.mem_iff.2 (List.mem_of_find?_eq_some hy)
      rw [huniq a ha b hb (List.find?_some hx) (List.find?_some hy)]

/-! ### Removing while iterating -/

section Erase

variable [DecidableEq α]

private theorem foldl_erase_append (p : α → Bool) (visited rest : List α) :
    rest.foldl (fun queue x ↦ if p x then queue.erase x else queue)
        (visited.filter (fun x ↦ !p x) ++ rest) =
      (visited ++ rest).filter fun x ↦ !p x := by
  induction rest generalizing visited with
  | nil => simp
  | cons x rest ih =>
    rw [List.foldl_cons]
    have hsnoc := ih (visited ++ [x])
    rw [List.append_assoc, List.singleton_append] at hsnoc
    by_cases hx : p x
    · -- the first occurrence left in the queue is the one being visited
      have hnot : x ∉ visited.filter fun x ↦ !p x := by simp [hx]
      rw [if_pos hx, List.erase_append_right _ hnot, List.erase_cons_head, ← hsnoc]
      simp [hx]
    · rw [if_neg hx, ← hsnoc]
      simp [hx]

/-- **Dropping the matching elements while iterating keeps exactly the others.** -/
theorem foldl_erase_eq_filter (p : α → Bool) (xs : List α) :
    xs.foldl (fun queue x ↦ if p x then queue.erase x else queue) xs = xs.filter fun x ↦ !p x :=
  foldl_erase_append p [] xs

end Erase

end IteratorSearch
