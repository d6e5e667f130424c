import Mathlib.Data.Set.Insert
import Mathlib.Logic.Relation

/-!
# Following and blocking

The abstract purpose of follow lists and block lists, over any type of users: who follows whom and
who has blocked whom, as two sets of pairs. A user can follow anybody who has not blocked it, can
stop following, and can block anybody, which ends the following in both directions. Blocks are
never lifted.

The one law: **whoever is blocked does not follow the blocker**, now (`Step.enforced`) and after any
further steps (`not_follows_of_blocked`).
-/

/-- Who follows whom, and who has blocked whom. -/
structure BlockGraph (α : Type*) where
  /-- The pairs of a follower and a followed user. -/
  follows : Set (α × α)
  /-- The pairs of a blocker and a blocked user. -/
  blocks : Set (α × α)

namespace BlockGraph

variable {α : Type*} {g g' : BlockGraph α}

/-- One change. -/
inductive Step (g : BlockGraph α) : BlockGraph α → Prop
  | follow (a b : α) (h : (b, a) ∉ g.blocks) : Step g ⟨insert (a, b) g.follows, g.blocks⟩
  | unfollow (a b : α) : Step g ⟨g.follows \ {(a, b)}, g.blocks⟩
  | block (a b : α) : Step g ⟨g.follows \ {(a, b), (b, a)}, insert (a, b) g.blocks⟩

/-- Whoever is blocked does not follow the blocker. -/
def Enforced (g : BlockGraph α) : Prop := ∀ a b, (a, b) ∈ g.blocks → (b, a) ∉ g.follows

theorem Step.enforced (h : Step g g') (hg : Enforced g) : Enforced g' := by
  intro a b hblocks hfollows
  cases h
  case follow a' b' hnew =>
    rcases hfollows with heq | hfollows
    · obtain ⟨rfl, rfl⟩ := Prod.mk.inj heq
      exact hnew hblocks
    · exact hg a b hblocks hfollows
  case unfollow => exact hg a b hblocks hfollows.1
  case block a' b' =>
    rcases hblocks with heq | hblocks
    · obtain ⟨rfl, rfl⟩ := Prod.mk.inj heq
      exact hfollows.2 (Or.inr rfl)
    · exact hg a b hblocks hfollows.1

theorem Step.blocks_subset (h : Step g g') : g.blocks ⊆ g'.blocks := by
  cases h
  case follow => exact subset_rfl
  case unfollow => exact subset_rfl
  case block a b => exact Set.subset_insert _ _

/-- Any number of changes. -/
def Steps : BlockGraph α → BlockGraph α → Prop := Relation.ReflTransGen Step

theorem Steps.enforced (h : Steps g g') (hg : Enforced g) : Enforced g' := by
  induction h with
  | refl => exact hg
  | tail _ hstep ih => exact hstep.enforced ih

theorem Steps.blocks_subset (h : Steps g g') : g.blocks ⊆ g'.blocks := by
  induction h with
  | refl => exact subset_rfl
  | tail _ hstep ih => exact ih.trans hstep.blocks_subset

/-- **A blocked user never follows the blocker again.** -/
theorem Steps.not_follows_of_blocked (h : Steps g g') (hg : Enforced g) {a b : α}
    (hab : (a, b) ∈ g.blocks) : (b, a) ∉ g'.follows :=
  h.enforced hg a b (h.blocks_subset hab)

end BlockGraph
