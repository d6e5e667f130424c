import SplNet.Foundations.BlockGraph
import SplNet.Srv.StoreInvariant

/-!
# The follow lists and the block lists

The two lists of every user are duplicate-free lists of registered users (`FollowLists`), so that
removing one occurrence removes the user, and the server is an instance of `BlockGraph`: every event
makes one abstract change or none (`Effect.graphSteps`). The block law then comes from the abstract
graph.
-/

namespace SplNet

open BlockGraph

/-! ### The lists -/

/-- The lists hold registered users, each at most once. -/
structure FollowLists (s : Server) : Prop where
  followers_nodup : ∀ r, (s.user r).followers.Nodup
  blockingUsers_nodup : ∀ r, (s.user r).blockingUsers.Nodup
  followers_registered : ∀ {r other}, other ∈ (s.user r).followers → s.Registered other
  blockingUsers_registered : ∀ {r other}, other ∈ (s.user r).blockingUsers → s.Registered other

theorem followLists_init (mode : ServerMode) : FollowLists (Server.init mode) where
  followers_nodup _ := List.nodup_nil
  blockingUsers_nodup _ := List.nodup_nil
  followers_registered h := absurd h List.not_mem_nil
  blockingUsers_registered h := absurd h List.not_mem_nil

section Lists

variable {s s' : Server} {e : Event} {my other : UserRef}

/-- The list lost elements, or won one new element, a registered user. -/
def ListStep (s : Server) (xs ys : List UserRef) : Prop :=
  ys.Sublist xs ∨ ∃ x, x ∉ xs ∧ s.Registered x ∧ ys = xs ++ [x]

theorem ListStep.nodup {xs ys : List UserRef} (h : ListStep s xs ys) (hxs : xs.Nodup) :
    ys.Nodup := by
  rcases h with hsub | ⟨x, hx, -, rfl⟩
  · exact hxs.sublist hsub
  · rw [List.nodup_append]
    refine ⟨hxs, List.nodup_singleton x, ?_⟩
    rintro y hy z hz rfl
    exact hx (List.mem_singleton.1 hz ▸ hy)

theorem ListStep.registered {xs ys : List UserRef} (h : ListStep s xs ys)
    (hxs : ∀ x ∈ xs, s.Registered x) {y : UserRef} (hy : y ∈ ys) : s.Registered y := by
  rcases h with hsub | ⟨x, -, hx, rfl⟩
  · exact hxs y (hsub.subset hy)
  · rcases List.mem_append.1 hy with hy | hy
    · exact hxs y hy
    · rw [List.mem_singleton.1 hy]
      exact hx

/-- Every list after BLOCK is a sublist of the list before. -/
theorem blockUser_followers_sublist (s : Server) (my other r : UserRef) :
    ((blockUser s my other).user r).followers.Sublist (s.user r).followers := by
  rw [blockUser_followers]
  split_ifs with h₁ h₂ h₃
  · subst h₁ h₂
    exact List.erase_sublist.trans List.erase_sublist
  · subst h₁
    exact List.erase_sublist
  · subst h₃
    exact List.erase_sublist
  · exact List.Sublist.refl _

/-- What an event does to a follow list. -/
theorem Effect.followers_step (h : Effect s e s') (hs : Coherent s) (r : UserRef) :
    ListStep s (s.user r).followers (s'.user r).followers := by
  rcases h.graph hs with hsame | ⟨env, c, m, text, my, other, -, hfollow, rfl⟩ |
    ⟨env, c, m, text, my, other, -, -, rfl⟩ | ⟨env, c, m, my, other, -, -, rfl⟩
  · exact Or.inl (by rw [hsame.followers])
  · rw [addFollow_followers]
    split
    case isTrue hr =>
      subst hr
      have hreg := (Surroundings.findContained_eq_some hfollow.target).1
      exact Or.inr ⟨other, hfollow.new, hreg, rfl⟩
    case isFalse => exact Or.inl (List.Sublist.refl _)
  · rw [dropFollow_followers]
    split
    case isTrue hr => exact Or.inl (hr ▸ List.erase_sublist)
    case isFalse => exact Or.inl (List.Sublist.refl _)
  · exact Or.inl (blockUser_followers_sublist s my other r)

/-- What an event does to a block list. -/
theorem Effect.blockingUsers_step (h : Effect s e s') (hs : Coherent s) (r : UserRef) :
    ListStep s (s.user r).blockingUsers (s'.user r).blockingUsers := by
  rcases h.graph hs with hsame | ⟨env, c, m, text, my, other, -, -, rfl⟩ |
    ⟨env, c, m, text, my, other, -, -, rfl⟩ | ⟨env, c, m, my, other, -, hblock, rfl⟩
  · exact Or.inl (by rw [hsame.blockingUsers])
  · exact Or.inl (by rw [addFollow_eq_except])
  · exact Or.inl (by rw [dropFollow_eq_except])
  · rw [blockUser_blockingUsers]
    split
    case isTrue hr =>
      subst hr
      have hreg := (Surroundings.findContained_eq_some hblock.target).1
      exact Or.inr ⟨other, hblock.new, hreg, rfl⟩
    case isFalse => exact Or.inl (List.Sublist.refl _)

/-- The lists stay lists of registered users without duplicates. -/
theorem Effect.followLists (h : Effect s e s') (hs : Coherent s) (hl : FollowLists s) :
    FollowLists s' where
  followers_nodup r := (h.followers_step hs r).nodup (hl.followers_nodup r)
  blockingUsers_nodup r := (h.blockingUsers_step hs r).nodup (hl.blockingUsers_nodup r)
  followers_registered {r _} hr := h.registered_mono hs
    ((h.followers_step hs r).registered (fun _ hx ↦ hl.followers_registered hx) hr)
  blockingUsers_registered {r _} hr := h.registered_mono hs
    ((h.blockingUsers_step hs r).registered (fun _ hx ↦ hl.blockingUsers_registered hx) hr)

/-- The invariants of a reachable store. -/
theorem followLists_of_reachable {mode : ServerMode} (h : (serverMachine mode).Reachable s) :
    FollowLists s :=
  h.invariant (followLists_init mode) fun s e hs hl ↦
    (effect_next mode s e).followLists (coherent_of_reachable hs) hl

/-! ### The graph -/

/-- Who follows whom and who has blocked whom. -/
def graphOf (s : Server) : BlockGraph UserRef where
  follows := {p | p.2 ∈ (s.user p.1).followers}
  blocks := {p | p.2 ∈ (s.user p.1).blockingUsers}

@[simp] theorem mem_follows {a b : UserRef} :
    (a, b) ∈ (graphOf s).follows ↔ b ∈ (s.user a).followers := Iff.rfl

@[simp] theorem mem_blocks {a b : UserRef} :
    (a, b) ∈ (graphOf s).blocks ↔ b ∈ (s.user a).blockingUsers := Iff.rfl

theorem graphOf_eq {g : BlockGraph UserRef}
    (hfollows : ∀ a b, b ∈ (s.user a).followers ↔ (a, b) ∈ g.follows)
    (hblocks : ∀ a b, b ∈ (s.user a).blockingUsers ↔ (a, b) ∈ g.blocks) : graphOf s = g := by
  obtain ⟨follows, blocks⟩ := g
  exact congrArg₂ BlockGraph.mk (Set.ext fun p ↦ hfollows p.1 p.2) (Set.ext fun p ↦ hblocks p.1 p.2)

theorem graphOf_addFollow (s : Server) (my other : UserRef) :
    graphOf (addFollow s my other) =
      ⟨insert (my, other) (graphOf s).follows, (graphOf s).blocks⟩ := by
  refine graphOf_eq (fun a b ↦ ?_) (fun a b ↦ ?_)
  · rw [addFollow_followers]
    by_cases ha : a = my
    · simp [ha, or_comm]
    · simp [ha]
  · rw [addFollow_eq_except]
    rfl

/-- Without duplicates, dropping one occurrence drops the user. -/
theorem graphOf_dropFollow (hl : FollowLists s) (my other : UserRef) :
    graphOf (dropFollow s my other) =
      ⟨(graphOf s).follows \ {(my, other)}, (graphOf s).blocks⟩ := by
  refine graphOf_eq (fun a b ↦ ?_) (fun a b ↦ ?_)
  · rw [dropFollow_followers]
    by_cases ha : a = my
    · simp [ha, (hl.followers_nodup my).mem_erase_iff, and_comm]
    · simp [ha]
  · rw [dropFollow_eq_except]
    rfl

theorem graphOf_blockUser (hl : FollowLists s) (my other : UserRef) :
    graphOf (blockUser s my other) =
      ⟨(graphOf s).follows \ {(my, other), (other, my)},
        insert (my, other) (graphOf s).blocks⟩ := by
  refine graphOf_eq (fun a b ↦ ?_) (fun a b ↦ ?_)
  · have hmy := (hl.followers_nodup my).erase other
    rw [blockUser_followers]
    by_cases hother : a = other
    · by_cases hself : other = my
      · subst hother hself
        simp [hmy.mem_erase_iff, (hl.followers_nodup a).mem_erase_iff, and_comm]
      · simp [hother, hself, (hl.followers_nodup other).mem_erase_iff, and_comm]
    · by_cases ha : a = my
      · subst ha
        simp [hother, (hl.followers_nodup a).mem_erase_iff, and_comm]
      · simp [hother, ha]
  · rw [blockUser_blockingUsers]
    by_cases ha : a = my
    · simp [ha, or_comm]
    · simp [ha]

/-- **The server is a `BlockGraph`**: an event is one abstract change, or none. -/
theorem Effect.graphSteps (h : Effect s e s') (hs : Coherent s) (hl : FollowLists s) :
    Steps (graphOf s) (graphOf s') := by
  rcases h.graph hs with hsame | ⟨env, c, m, text, my, other, -, hfollow, rfl⟩ |
    ⟨env, c, m, text, my, other, -, -, rfl⟩ | ⟨env, c, m, my, other, -, -, rfl⟩
  · have heq : graphOf s' = graphOf s :=
      graphOf_eq (fun _ _ ↦ by rw [hsame.followers]; rfl)
        (fun _ _ ↦ by rw [hsame.blockingUsers]; rfl)
    rw [heq]
    exact Relation.ReflTransGen.refl
  · rw [graphOf_addFollow]
    exact Relation.ReflTransGen.single (.follow my other hfollow.unblocked)
  · rw [graphOf_dropFollow hl]
    exact Relation.ReflTransGen.single (.unfollow my other)
  · rw [graphOf_blockUser hl]
    exact Relation.ReflTransGen.single (.block my other)

/-- A stretch of a run is a stretch of abstract changes. -/
theorem graphSteps_along (mode : ServerMode) {pre es : List Event} (hpre : pre <+: es) :
    Steps (graphOf ((serverMachine mode).stateAfter pre))
      (graphOf ((serverMachine mode).stateAfter es)) :=
  LabelledMachine.related_along (R := fun s s' ↦ Steps (graphOf s) (graphOf s'))
    (fun _ ↦ Relation.ReflTransGen.refl) (fun h₁ h₂ ↦ Relation.ReflTransGen.trans h₁ h₂)
    (fun s e hs ↦ (effect_next mode s e).graphSteps (coherent_of_reachable hs)
      (followLists_of_reachable hs)) hpre

theorem enforced_stateAfter (mode : ServerMode) (es : List Event) :
    Enforced (graphOf ((serverMachine mode).stateAfter es)) :=
  (graphSteps_along mode List.nil_prefix).enforced fun _ _ h ↦ absurd h List.not_mem_nil

end Lists

/-! ### The law -/

/-- **The follow and block lists of every reachable state** hold registered users without
duplicates, and a user who was blocked at any time does not follow the blocker. -/
theorem follow_graph_invariant (mode : ServerMode) (es : List Event) :
    FollowLists ((serverMachine mode).stateAfter es) ∧
      ∀ pre, pre <+: es → ∀ a b,
        b ∈ (((serverMachine mode).stateAfter pre).user a).blockingUsers →
          a ∉ (((serverMachine mode).stateAfter es).user b).followers :=
  ⟨followLists_of_reachable ⟨es, rfl⟩, fun pre hpre _ _ hab ↦
    (graphSteps_along mode hpre).not_follows_of_blocked (enforced_stateAfter mode pre) hab⟩

end SplNet
