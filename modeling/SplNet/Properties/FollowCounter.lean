import SplNet.Properties.FollowGraph
import SplNet.Srv.History

/-!
# The follow counter

A user has a list of the users he follows and a counter for its length. FOLLOW and UNFOLLOW change
both alike (`CountsFollowers.addFollow`, `CountsFollowers.dropFollow`); BLOCK takes the two users
off each other's lists and leaves the counters alone. So the counters agree with the lists all along
a run exactly when no BLOCK is carried out between users one of whom follows the other
(`counts_followers_iff`).
-/

namespace SplNet

open LabelledMachine

/-- The counter of the user is the length of his list, as a Java `short`. -/
def CountsFollowers (u : User) : Prop := u.following = Int16.ofNat u.followers.length

instance (u : User) : Decidable (CountsFollowers u) := inferInstanceAs (Decidable (_ = _))

/-- **The counters of all registered users agree with their lists.** -/
def Server.CountersAgree (s : Server) : Prop := ∀ r, s.Registered r → CountsFollowers (s.user r)

instance (s : Server) : Decidable s.CountersAgree :=
  inferInstanceAs (Decidable (∀ r, s.Registered r → CountsFollowers (s.user r)))

/-- The event is no BLOCK that is carried out between users one of whom follows the other. -/
def BlocksStrangers (s : Server) (e : Event) : Prop :=
  ∀ my other, Blocks my other s e → other ∉ (s.user my).followers ∧ my ∉ (s.user other).followers

section Counters

variable {s s' : Server} {e : Event} {my other r : UserRef}

theorem ofNat_succ_ne (n : ℕ) : Int16.ofNat (n + 1) ≠ Int16.ofNat n := by
  intro h
  rw [Int16.ofNat_add] at h
  have hone : (1 : Int16) = 0 := by
    calc (1 : Int16) = Int16.ofNat n + Int16.ofNat 1 - Int16.ofNat n := by
          rw [Int16.add_comm, Int16.add_sub_cancel]
          rfl
      _ = 0 := by rw [h, Int16.sub_self]
  exact absurd hone (by decide)

/-- Without the counter, a list keeps its counter right exactly when it keeps its length. -/
theorem countsFollowers_erase_iff {u u' : User} (h : CountsFollowers u)
    (hcounter : u'.following = u.following) (hlist : u'.followers = u.followers.erase r) :
    CountsFollowers u' ↔ r ∉ u.followers := by
  rw [CountsFollowers] at h
  rw [CountsFollowers, hcounter, hlist, h]
  constructor
  · intro hlen hmem
    rw [← List.length_erase_add_one hmem] at hlen
    exact ofNat_succ_ne _ hlen
  · intro hmem
    rw [List.erase_of_not_mem hmem]

theorem CountsFollowers.addFollow (h : CountsFollowers (s.user r)) (my other : UserRef) :
    CountsFollowers ((addFollow s my other).user r) := by
  rw [CountsFollowers] at h
  rw [SplNet.addFollow, Server.modifyUser_user]
  split
  case isTrue hr =>
    subst hr
    show (s.user r).following + 1 = Int16.ofNat ((s.user r).followers ++ [other]).length
    rw [List.length_append, Int16.ofNat_add, h]
    rfl
  case isFalse => exact h

theorem CountsFollowers.dropFollow (h : CountsFollowers (s.user r))
    (hmem : other ∈ (s.user my).followers) : CountsFollowers ((dropFollow s my other).user r) := by
  rw [CountsFollowers] at h
  rw [SplNet.dropFollow, Server.modifyUser_user]
  split
  case isTrue hr =>
    subst hr
    have hpos : 1 ≤ (s.user r).followers.length := List.length_pos_of_mem hmem
    show (s.user r).following - 1 = Int16.ofNat ((s.user r).followers.erase other).length
    rw [List.length_erase_of_mem hmem, Int16.ofNat_sub _ _ hpos, h]
    rfl
  case isFalse => exact h

/-- What an event does to the lists and their counters. -/
theorem Effect.counters (h : Effect s e s') (hs : Coherent s) :
    (∀ r, (s'.user r).followers = (s.user r).followers ∧
        (s'.user r).following = (s.user r).following) ∨
      (∃ my other, s' = addFollow s my other) ∨
      (∃ my other, other ∈ (s.user my).followers ∧ s' = dropFollow s my other) ∨
      ∃ my other, Blocks my other s e ∧ s' = blockUser s my other := by
  cases h
  case accept => exact Or.inl fun _ ↦ ⟨rfl, rfl⟩
  case unchanged => exact Or.inl fun _ ↦ ⟨rfl, rfl⟩
  case register => exact Or.inl fun r ↦ by rw [Effect.putUser_user_eq hs]; exact ⟨rfl, rfl⟩
  case login => exact Or.inl fun r ↦ by rw [startSession_eq_except]; exact ⟨rfl, rfl⟩
  case logout => exact Or.inl fun r ↦ by rw [deActivate_eq_except]; exact ⟨rfl, rfl⟩
  case follow => exact Or.inr (Or.inl ⟨_, _, rfl⟩)
  case unfollow h => exact Or.inr (Or.inr (Or.inl ⟨_, _, h.followed, rfl⟩))
  case post => exact Or.inl fun r ↦ by rw [queuePost_eq_except]; exact ⟨rfl, rfl⟩
  case block h =>
    have hconn := hs.mem_of_findActive h.session
    exact Or.inr (Or.inr (Or.inr ⟨_, _, ⟨_, _, _, rfl, hconn, h⟩, rfl⟩))

/-- A registered user was registered before, or is new and has an empty list. -/
theorem Effect.countsFollowers (h : Effect s e s') (hs : Coherent s) (hagree : s.CountersAgree)
    (hr : s'.Registered r) : CountsFollowers (s.user r) := by
  obtain ⟨k, hk⟩ := hr
  rcases h.accounts with hsame | ⟨_, _, _, _, haccepts, rfl⟩
  · exact hagree r ⟨k, hsame.usersMap ▸ hk⟩
  · rcases (haccepts.mem_usersMap hs _).1 hk with ⟨-, rfl⟩ | hold
    · rw [hs.unused le_rfl]
      decide
    · exact hagree r ⟨k, hold⟩

/-- BLOCK takes each of the two users off the list of the other, also when they are the same
user. -/
theorem blockUser_followers_of_nodup (hl : FollowLists s) (my other r : UserRef) :
    ((blockUser s my other).user r).followers =
      if r = my then (s.user my).followers.erase other
      else if r = other then (s.user other).followers.erase my else (s.user r).followers := by
  rw [blockUser_followers]
  by_cases hmy : r = my
  · by_cases hother : r = other
    · obtain rfl : other = my := hother.symm.trans hmy
      have hgone : other ∉ (s.user other).followers.erase other :=
        (hl.followers_nodup other).not_mem_erase
      rw [if_pos hother, if_pos rfl, if_pos hmy, List.erase_of_not_mem hgone]
    · rw [if_neg hother, if_pos hmy, if_pos hmy]
  · by_cases hother : r = other
    · rw [if_pos hother, if_neg hmy, if_pos hother, if_neg (hother ▸ hmy)]
    · rw [if_neg hother, if_neg hmy, if_neg hmy, if_neg hother]

/-- **A BLOCK keeps the counters right** exactly between users who do not follow each other. -/
theorem countersAgree_blockUser_iff (hl : FollowLists s) (h : s.CountersAgree)
    (hmy : s.Registered my) (hother : s.Registered other) :
    (blockUser s my other).CountersAgree ↔
      other ∉ (s.user my).followers ∧ my ∉ (s.user other).followers := by
  have hcounter : ∀ r, ((blockUser s my other).user r).following = (s.user r).following :=
    fun r ↦ by rw [blockUser_eq_except]
  have hreg : ∀ r, (blockUser s my other).Registered r ↔ s.Registered r :=
    fun r ↦ by rw [blockUser_eq_user]; rfl
  have hlist := blockUser_followers_of_nodup hl my other
  constructor
  · intro hagree
    refine ⟨?_, fun hmem ↦ ?_⟩
    · exact (countsFollowers_erase_iff (h my hmy) (hcounter my) (by rw [hlist, if_pos rfl])).1
        (hagree my ((hreg my).2 hmy))
    · have hlost : ((blockUser s my other).user other).followers =
          (s.user other).followers.erase my := by
        rw [hlist]
        by_cases hself : other = my
        · rw [if_pos hself, hself]
        · rw [if_neg hself, if_pos rfl]
      exact (countsFollowers_erase_iff (h other hother) (hcounter other) hlost).1
        (hagree other ((hreg other).2 hother)) hmem
  · rintro ⟨hmem, hmem'⟩ r hr
    have hsame : ((blockUser s my other).user r).followers = (s.user r).followers := by
      rw [hlist]
      split_ifs with hrmy hrother
      · rw [List.erase_of_not_mem hmem, hrmy]
      · rw [List.erase_of_not_mem hmem', hrother]
      · rfl
    rw [CountsFollowers, hcounter, hsame]
    exact h r ((hreg r).1 hr)

/-- **One event keeps the counters right** exactly when it is no BLOCK between users one of whom
follows the other. -/
theorem countersAgree_next_iff {mode : ServerMode} (hs : (serverMachine mode).Reachable s)
    (h : s.CountersAgree) (e : Event) :
    ((serverMachine mode).next s e).CountersAgree ↔ BlocksStrangers s e := by
  have hcoherent := coherent_of_reachable hs
  have hl := followLists_of_reachable hs
  have hregistered : ∀ {my other}, Blocks my other s e → s.Registered my ∧ s.Registered other := by
    rintro my other ⟨env, c, message, -, -, hblock⟩
    exact ⟨hcoherent.registered_of_findActive hblock.session,
      (Surroundings.findContained_eq_some hblock.target).1⟩
  constructor
  · intro hagree my other hblocks
    rw [hblocks.next_eq mode] at hagree
    obtain ⟨hmy, hother⟩ := hregistered hblocks
    exact (countersAgree_blockUser_iff hl h hmy hother).1 hagree
  · intro hstrangers
    have heffect := effect_next mode s e
    have hcounts := fun r ↦ heffect.countsFollowers (r := r) hcoherent h
    rcases heffect.counters hcoherent with hsame | ⟨my, other, hnext⟩ |
      ⟨my, other, hfollowed, hnext⟩ | ⟨my, other, hblocks, hnext⟩
    · intro r hr
      rw [CountsFollowers, (hsame r).1, (hsame r).2]
      exact hcounts r hr
    · intro r hr
      have hkeeps := (hcounts r hr).addFollow my other
      rwa [← hnext] at hkeeps
    · intro r hr
      have hkeeps := (hcounts r hr).dropFollow hfollowed
      rwa [← hnext] at hkeeps
    · rw [hnext]
      obtain ⟨hmy, hother⟩ := hregistered hblocks
      exact (countersAgree_blockUser_iff hl h hmy hother).2 (hstrangers my other hblocks)

end Counters

/-- **The counters agree with the lists all along a run** exactly when every BLOCK that is carried
out is between users neither of whom follows the other. -/
theorem counts_followers_iff (mode : ServerMode) (es : List Event) :
    (∀ pre, pre <+: es → ((serverMachine mode).stateAfter pre).CountersAgree) ↔
      ∀ pre e, Occurs es pre e → BlocksStrangers ((serverMachine mode).stateAfter pre) e :=
  invariant_along_iff (fun _ ⟨_, h⟩ ↦ absurd h List.not_mem_nil)
    (fun _ e hs h ↦ countersAgree_next_iff hs h e) es

/-- Bob follows Alice and then blocks her. -/
def bobBlocksAlice : List Event :=
  [.accept, .frame 0 "01alice\x00a\x0001-01-1990\x00", .frame 0 "01bob\x00b\x0002-02-1990\x00",
    .frame 0 "02bob\x00b\x001", .frame 0 "040alice\x00", .frame 0 "12alice\x00"]

/-- **Bob's counter stays at 1** when his list is empty. -/
theorem counter_of_empty_list :
    (((serverMachine .threadPerClient).stateAfter bobBlocksAlice).user 1).followers = [] ∧
      (((serverMachine .threadPerClient).stateAfter bobBlocksAlice).user 1).following = 1 ∧
      ¬ ((serverMachine .threadPerClient).stateAfter bobBlocksAlice).CountersAgree := by
  decide

end SplNet
