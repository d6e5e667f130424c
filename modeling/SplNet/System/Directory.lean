import Mathlib.Data.Set.Basic
import Mathlib.Logic.Function.Basic

/-!
# The directory

What the server is for, without maps, references and searches: who has an account, who sits at which
connection, who follows whom, and who has blocked whom. Names, passwords and clients are of any
types, and a request concerns the user of **exactly** the name it gives.

A request is granted, refused or not answered (`Directory.Grants`, `Directory.Ignores`), and a
request that is granted changes the directory (`Directory.apply`); nothing else does.
-/

namespace SplNet

/-- What a client is to the directory. -/
inductive Standing (ν : Type*)
  | guest
  | user (name : ν)
  /-- A client that has logged out. -/
  | gone

/-- The accounts, the sessions and the two relations among the users. -/
structure Directory (ν π κ : Type*) where
  password : ν → Option π
  standing : κ → Standing ν
  /-- The first one follows the second one. -/
  follows : Set (ν × ν)
  /-- The first one has blocked the second one. -/
  blocks : Set (ν × ν)

/-- What a client asks for. -/
inductive Request (ν π : Type*)
  | register (name : ν) (password : π)
  | login (name : ν) (password : π)
  | logout
  | follow (name : ν)
  | unfollow (name : ν)
  | block (name : ν)

/-- What becomes of a request. -/
inductive Verdict
  | granted
  | refused
  | ignored

namespace Directory

variable {ν π κ : Type*}

/-- Nobody has an account. -/
def empty : Directory ν π κ where
  password := fun _ ↦ none
  standing := fun _ ↦ .guest
  follows := ∅
  blocks := ∅

section Requests

variable (d : Directory ν π κ) (c : κ)

/-- The client is this user, and the user stands in a relation to another one. -/
def Asks (other : ν) (x : ν × ν) : Prop := d.standing c = .user x.1 ∧ x.2 = other

/-- The request is granted. -/
def Grants : Request ν π → Prop
  | .register name _ => d.password name = none
  | .login name password => d.password name = some password ∧ ∀ c', d.standing c' ≠ .user name
  | .logout => ∃ my, d.standing c = .user my
  | .follow name => d.password name ≠ none ∧
      ∃ my, d.standing c = .user my ∧ (my, name) ∉ d.follows ∧ (name, my) ∉ d.blocks
  | .unfollow name => d.password name ≠ none ∧
      ∃ my, d.standing c = .user my ∧ (my, name) ∈ d.follows
  | .block name => d.password name ≠ none ∧
      ∃ my, d.standing c = .user my ∧ (my, name) ∉ d.blocks

/-- The request gets no answer: a client that is no user wants to follow somebody. -/
def Ignores : Request ν π → Prop
  | .follow name | .unfollow name => d.password name ≠ none ∧ ∀ my, d.standing c ≠ .user my
  | _ => False

/-- A client that has logged out asks for nothing more, and a client logs in once. -/
def Expects (request : Request ν π) : Prop :=
  d.standing c ≠ .gone ∧ ∀ name password, request = .login name password → d.standing c = .guest

open Classical in
/-- What becomes of a request. -/
noncomputable def verdict (request : Request ν π) : Verdict :=
  if d.Grants c request then .granted
  else if d.Ignores c request then .ignored
  else .refused

variable [DecidableEq ν] [DecidableEq κ]

/-- What a request does that is granted. -/
def apply : Request ν π → Directory ν π κ
  | .register name password =>
    { d with password := Function.update d.password name (some password) }
  | .login name _ => { d with standing := Function.update d.standing c (.user name) }
  | .logout => { d with standing := Function.update d.standing c .gone }
  | .follow name => { d with follows := {x | x ∈ d.follows ∨ d.Asks c name x} }
  | .unfollow name => { d with follows := {x | x ∈ d.follows ∧ ¬ d.Asks c name x} }
  | .block name =>
    { d with
      -- neither of the two follows the other any more
      follows := {x | x ∈ d.follows ∧ ¬ d.Asks c name x ∧ ¬ d.Asks c name x.swap}
      blocks := {x | x ∈ d.blocks ∨ d.Asks c name x} }

open Classical in
/-- The directory after a request. -/
noncomputable def next (request : Request ν π) : Directory ν π κ :=
  if d.Grants c request then d.apply c request else d

variable {d c} {request : Request ν π}

theorem next_of_grants (h : d.Grants c request) : d.next c request = d.apply c request := if_pos h

theorem next_of_not_grants (h : ¬ d.Grants c request) : d.next c request = d := if_neg h

omit [DecidableEq ν] [DecidableEq κ] in
theorem verdict_of_grants (h : d.Grants c request) : d.verdict c request = .granted := if_pos h

omit [DecidableEq ν] [DecidableEq κ] in
theorem verdict_of_ignores (h : ¬ d.Grants c request) (hignores : d.Ignores c request) :
    d.verdict c request = .ignored := by
  rw [verdict, if_neg h, if_pos hignores]

omit [DecidableEq ν] [DecidableEq κ] in
theorem verdict_of_refuses (h : ¬ d.Grants c request) (hignores : ¬ d.Ignores c request) :
    d.verdict c request = .refused := by
  rw [verdict, if_neg h, if_neg hignores]

/-- The standing of a client changes with its own LOGIN and LOGOUT only. -/
theorem standing_next (d : Directory ν π κ) (c c' : κ) (request : Request ν π) :
    (d.next c request).standing c' = d.standing c' ∨
      c = c' ∧ ((∃ name password, request = .login name password ∧
          (d.next c request).standing c' = .user name) ∨
        request = .logout ∧ (d.next c request).standing c' = .gone) := by
  by_cases hgrants : d.Grants c request
  · rw [next_of_grants hgrants]
    cases request with
    | register name password => exact .inl rfl
    | login name password =>
      by_cases hc : c = c'
      · subst hc
        exact .inr ⟨rfl, .inl ⟨name, password, rfl, Function.update_self ..⟩⟩
      · exact .inl (Function.update_of_ne (Ne.symm hc) ..)
    | logout =>
      by_cases hc : c = c'
      · subst hc
        exact .inr ⟨rfl, .inr ⟨rfl, Function.update_self ..⟩⟩
      · exact .inl (Function.update_of_ne (Ne.symm hc) ..)
    | follow name => exact .inl rfl
    | unfollow name => exact .inl rfl
    | block name => exact .inl rfl
  · rw [next_of_not_grants hgrants]
    exact .inl rfl

end Requests

end Directory

end SplNet
