import SplNet.Api.Spec.Sending

/-!
# FOLLOW and BLOCK

Acceptance predicates and outcomes, as for the account commands. FOLLOW has a third outcome besides
being carried out and being refused: it can say nothing at all (`FollowSilent`).
-/

namespace SplNet

open Java

section Commands

variable {env : Surroundings} {connectionId : ℤ} {s : Server} {message : JString}

/-! ### FOLLOW -/

/-- The parts of a FOLLOW request that concern its target and its sender. -/
structure FollowRequest (env : Surroundings) (connectionId : ℤ) (s : Server) (message : JString)
    (action : JChar) (text : JString) (my other : UserRef) : Prop where
  args : message = action :: text
  target : env.findContained s text = some other
  session : env.findActive s connectionId = some my
  activated : (s.user my).isActivated = true

/-- FOLLOW adds this target to the list of this user. -/
structure FollowAccepts (env : Surroundings) (connectionId : ℤ) (s : Server) (message : JString)
    (text : JString) (my other : UserRef) : Prop
    extends FollowRequest env connectionId s message (char '0') text my other where
  new : other ∉ (s.user my).followers
  unblocked : my ∉ (s.user other).blockingUsers

/-- FOLLOW removes this target from the list of this user. -/
structure UnfollowAccepts (env : Surroundings) (connectionId : ℤ) (s : Server) (message : JString)
    (text : JString) (my other : UserRef) : Prop
    extends FollowRequest env connectionId s message (char '1') text my other where
  followed : other ∈ (s.user my).followers

/-- FOLLOW says nothing: a target is found, but the connection has no active user, or the first one
found is not activated. -/
def FollowSilent (env : Surroundings) (connectionId : ℤ) (s : Server) (message : JString) : Prop :=
  ∃ action text other, message = action :: text ∧ env.findContained s text = some other ∧
    ∀ my, env.findActive s connectionId = some my → (s.user my).isActivated = false

/-- The state after an accepted FOLLOW. -/
def addFollow (s : Server) (my other : UserRef) : Server :=
  s.modifyUser my fun u ↦ (u.addFollower other).incrementFollowing

/-- The state after an accepted unfollow. -/
def dropFollow (s : Server) (my other : UserRef) : Server :=
  s.modifyUser my fun u ↦ (u.removeFollower other).decreaseFollowing

/-- Following changes nothing of a user but the list and its counter. -/
theorem addFollow_eq_except (s : Server) (my other r : UserRef) :
    (addFollow s my other).user r =
      { s.user r with
        followers := ((addFollow s my other).user r).followers
        following := ((addFollow s my other).user r).following } := by
  rw [addFollow, Server.modifyUser_user]
  split
  case isTrue h => rw [h]; rfl
  case isFalse => rfl

theorem dropFollow_eq_except (s : Server) (my other r : UserRef) :
    (dropFollow s my other).user r =
      { s.user r with
        followers := ((dropFollow s my other).user r).followers
        following := ((dropFollow s my other).user r).following } := by
  rw [dropFollow, Server.modifyUser_user]
  split
  case isTrue h => rw [h]; rfl
  case isFalse => rfl

theorem addFollow_followers (s : Server) (my other r : UserRef) :
    ((addFollow s my other).user r).followers =
      if r = my then (s.user my).followers ++ [other] else (s.user r).followers := by
  rw [addFollow, Server.modifyUser_user]
  split <;> rfl

theorem dropFollow_followers (s : Server) (my other r : UserRef) :
    ((dropFollow s my other).user r).followers =
      if r = my then (s.user my).followers.erase other else (s.user r).followers := by
  rw [dropFollow, Server.modifyUser_user]
  split <;> rfl

theorem processFollow_of_accepts {text : JString} {my other : UserRef}
    (h : FollowAccepts env connectionId s message text my other) :
    processFollow env connectionId s message =
      ⟨addFollow s my other, s.delivery connectionId (str "100400" ++ text ++ [nul]), none⟩ := by
  have hnew := h.new
  have hunblocked := h.unblocked
  simp only [h.args, processFollow, h.target, h.session, h.activated, if_true, hnew, hunblocked,
    not_false_eq_true, and_self]
  rw [List.append_assoc]
  exact (sendable_followAck ⟨str "0", rfl⟩).send_eq _ _

theorem processFollow_of_unfollow {text : JString} {my other : UserRef}
    (h : UnfollowAccepts env connectionId s message text my other) :
    processFollow env connectionId s message =
      ⟨dropFollow s my other, s.delivery connectionId (str "100401" ++ text ++ [nul]), none⟩ := by
  have hne : (char '1' = char '0') = False := by decide
  simp only [h.args, processFollow, h.target, h.session, h.activated, if_true, hne, false_and,
    if_false, h.followed, and_self]
  rw [List.append_assoc]
  exact (sendable_followAck ⟨str "1", rfl⟩).send_eq _ _

theorem processFollow_of_silent (h : FollowSilent env connectionId s message) :
    processFollow env connectionId s message = .done s := by
  obtain ⟨action, text, other, rfl, htarget, hsession⟩ := h
  simp only [processFollow, htarget]
  split
  case h_1 my hmy => rw [hsession my hmy]; rfl
  case h_2 => rfl

theorem processFollow_refusal
    (hfollow : ∀ text my other, ¬ FollowAccepts env connectionId s message text my other)
    (hunfollow : ∀ text my other, ¬ UnfollowAccepts env connectionId s message text my other)
    (hsilent : ¬ FollowSilent env connectionId s message) :
    Refusal connectionId s (str "04") (processFollow env connectionId s message) := by
  rcases message with - | ⟨action, text⟩
  · exact .thrown _
  · rw [processFollow]
    split
    case h_1 other htarget =>
      split
      case h_1 my hsession =>
        split
        case isTrue hactive =>
          split
          case isTrue h =>
            obtain ⟨rfl, hnew, hunblocked⟩ := h
            exact absurd ⟨⟨rfl, htarget, hsession, hactive⟩, hnew, hunblocked⟩
              (hfollow text my other)
          case isFalse =>
            split
            case isTrue h =>
              obtain ⟨rfl, hfollowed⟩ := h
              exact absurd ⟨⟨rfl, htarget, hsession, hactive⟩, hfollowed⟩
                (hunfollow text my other)
            case isFalse => exact Refusal.of_send (by decide)
        case isFalse hinactive =>
          refine absurd ⟨action, text, other, rfl, htarget, fun my' hmy' ↦ ?_⟩ hsilent
          rw [hsession] at hmy'
          obtain rfl := Option.some.inj hmy'
          simpa using hinactive
      case h_2 hnone =>
        refine absurd ⟨action, text, other, rfl, htarget, fun my hmy ↦ ?_⟩ hsilent
        simp [hnone] at hmy
    case h_2 => exact Refusal.of_send (by decide)

/-! ### BLOCK -/

/-- BLOCK adds `other` to the block list of `my`. -/
structure BlockAccepts (env : Surroundings) (connectionId : ℤ) (s : Server) (message : JString)
    (my other : UserRef) : Prop where
  nonempty : message ≠ []
  session : env.findActive s connectionId = some my
  target : env.findContained s message = some other
  new : other ∉ (s.user my).blockingUsers

/-- Removing a user who is not in the list changes nothing, so BLOCK need not look first. -/
theorem removeFollower_ite (s : Server) (r x : UserRef) :
    (if x ∈ (s.user r).followers then s.modifyUser r (User.removeFollower x) else s) =
      s.modifyUser r (User.removeFollower x) := by
  split
  case isTrue => rfl
  case isFalse h =>
    have huser : s.user = (s.modifyUser r (User.removeFollower x)).user := by
      funext r'
      rw [Server.modifyUser_user]
      split
      case isTrue hr' => rw [hr', User.removeFollower, List.erase_of_not_mem h]
      case isFalse => rfl
    exact congrArg (fun f ↦ ({ s with user := f } : Server)) huser

theorem blockUser_eq (s : Server) (my other : UserRef) :
    blockUser s my other =
      ((s.modifyUser my (User.addBlockingUser other)).modifyUser my
        (User.removeFollower other)).modifyUser other (User.removeFollower my) := by
  simp only [blockUser, removeFollower_ite]

/-- Both lists lose the other user; when the two are the same user, its list loses it twice. -/
theorem blockUser_followers (s : Server) (my other r : UserRef) :
    ((blockUser s my other).user r).followers =
      if r = other then
        (if other = my then (s.user my).followers.erase other
          else (s.user other).followers).erase my
      else if r = my then (s.user my).followers.erase other else (s.user r).followers := by
  simp only [blockUser_eq, Server.modifyUser_user, if_true]
  split
  · simp only [User.removeFollower]
    split <;> rfl
  · split <;> rfl

theorem blockUser_blockingUsers (s : Server) (my other r : UserRef) :
    ((blockUser s my other).user r).blockingUsers =
      if r = my then (s.user my).blockingUsers ++ [other] else (s.user r).blockingUsers := by
  simp only [blockUser_eq, Server.modifyUser_user, if_true]
  split
  case isTrue h =>
    rw [h]
    simp only [User.removeFollower]
    split <;> rfl
  case isFalse => split <;> rfl

/-- Blocking changes nothing of a user but the two lists. -/
theorem blockUser_eq_except (s : Server) (my other r : UserRef) :
    (blockUser s my other).user r =
      { s.user r with
        followers := ((blockUser s my other).user r).followers
        blockingUsers := ((blockUser s my other).user r).blockingUsers } := by
  simp only [blockUser_eq, Server.modifyUser_user, if_true]
  split
  case isTrue h =>
    rw [h]
    split
    case isTrue h' => rw [h']; rfl
    case isFalse => rfl
  case isFalse =>
    split
    case isTrue h => rw [h]; rfl
    case isFalse => rfl

theorem blockUser_eq_user (s : Server) (my other : UserRef) :
    blockUser s my other = { s with user := (blockUser s my other).user } := by
  rw [blockUser_eq]
  rfl

theorem processBlock_of_accepts {my other : UserRef}
    (h : BlockAccepts env connectionId s message my other) :
    processBlock env connectionId s message =
      ⟨blockUser s my other, s.delivery connectionId (str "1012"), none⟩ := by
  have hnew := h.new
  simp only [processBlock, h.session, h.target, hnew, not_false_eq_true, if_true,
    substring_dropLast, h.nonempty, if_false, (show Sendable (str "1012") by decide).send_eq]
  rw [blockUser_eq]
  rfl

theorem processBlock_refusal
    (h : ∀ my other, ¬ BlockAccepts env connectionId s message my other) :
    Refusal connectionId s (str "12") (processBlock env connectionId s message) := by
  rw [processBlock]
  split
  case h_1 my other hsession htarget =>
    split
    case isTrue hnew =>
      rw [substring_dropLast]
      by_cases hnil : message = []
      · rw [if_pos hnil]
        exact .thrown _
      · exact absurd ⟨hnil, hsession, htarget, hnew⟩ (h my other)
    case isFalse => exact Refusal.of_send (by decide)
  case h_2 => exact Refusal.of_send (by decide)

end Commands

end SplNet
