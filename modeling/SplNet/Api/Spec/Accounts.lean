import SplNet.Api.Spec.Sending

/-!
# REGISTER, LOGIN and LOGOUT

For each command an acceptance predicate, saying when the command is carried out and on whom, and
two theorems: an accepted command has exactly the stated outcome, and a command that is not accepted
is a `Refusal`. Consumers use these theorems and never unfold a command.

The replay of an accepted LOGIN is a loop whose accumulator lives outside it; `replayMessages` is
what it sends, and `replay_eq` says that it is never cut short when every queued post has a blank.
-/

namespace SplNet

open Java

section Commands

variable {env : Surroundings} {connectionId : ℤ} {s : Server} {message : JString}

/-! ### REGISTER -/

/-- REGISTER creates this user: no registered name contains the new one. -/
structure RegisterAccepts (s : Server) (message username password birthday : JString) : Prop where
  args : ∃ rest, split message nul = username :: password :: birthday :: rest
  free : ∀ r, s.Registered r → contains (s.user r).username username = false

theorem processRegister_of_accepts {username password birthday : JString}
    (h : RegisterAccepts s message username password birthday) :
    processRegister env connectionId s message =
      ⟨s.putUser username (User.new username password birthday),
        s.delivery connectionId (str "1001"), none⟩ := by
  obtain ⟨rest, hargs⟩ := h.args
  have hany : ((env.users s).any fun r ↦ contains (s.user r).username username) = false := by
    rw [List.any_eq_false]
    intro r hr
    simp [h.free r (Surroundings.mem_users.1 hr)]
  simp only [processRegister, hargs, hany, Bool.false_eq_true, if_false]
  exact (show Sendable (str "1001") by decide).send_eq _ _

theorem processRegister_refusal
    (h : ∀ username password birthday, ¬ RegisterAccepts s message username password birthday) :
    Refusal connectionId s (str "01") (processRegister env connectionId s message) := by
  rw [processRegister]
  split
  case h_1 username password birthday rest hargs =>
    by_cases hany : (env.users s).any fun r ↦ contains (s.user r).username username
    · rw [if_pos hany]
      exact Refusal.of_send (by decide)
    · refine absurd ⟨⟨rest, hargs⟩, fun r hr ↦ ?_⟩ (h username password birthday)
      rw [Bool.not_eq_true, List.any_eq_false] at hany
      simpa using hany r (Surroundings.mem_users.2 hr)
  case h_2 => exact .thrown _

/-! ### LOGIN -/

/-- LOGIN opens a session of this user: the user found under the typed name has the typed password
and is not active. The typed name need only be a part of the user's name. -/
structure LoginAccepts (env : Surroundings) (s : Server) (message username : JString)
    (r : UserRef) : Prop where
  args : ∃ rest, split message nul = username :: (s.user r).password :: str "1" :: rest
  found : env.findContaining s username = some r
  inactive : (s.user r).isActivated = false

/-- The author a queued post is replayed under and its content: the characters before the first
blank are appended to the name collected from the earlier posts. -/
def replayMessages (senderName : JString) : List JString → List JString
  | [] => []
  | post :: posts =>
    let senderName := senderName ++ post.takeWhile (· ≠ space)
    notification (str "091") senderName (post.dropWhile (· ≠ space)).tail ::
      replayMessages senderName posts

theorem replayScan_eq {senderName : JString} {limit i : ℕ} {post : JString} (h : space ∈ post) :
    replayScan senderName limit i post =
      (senderName ++ post.takeWhile (· ≠ space), i + (post.takeWhile (· ≠ space)).length + 1) := by
  -- the scan has moved `i` characters into the post
  induction post generalizing senderName i with
  | nil => simp at h
  | cons c cs ih =>
    by_cases hc : c = space
    · simp [replayScan, hc]
    · have hcs : space ∈ cs := (List.mem_cons.1 h).resolve_left fun heq ↦ hc heq.symm
      simp only [replayScan, hc, ne_eq, not_false_eq_true, if_true, ih hcs, decide_true,
        List.takeWhile_cons_of_pos, List.append_assoc, List.singleton_append, List.length_cons]
      congr 1
      omega

/-- The content of a queued post starts behind its first blank. -/
theorem substringFrom_of_mem_space {post : JString} (h : space ∈ post) :
    substringFrom post ((post.takeWhile (· ≠ space)).length + 1 : ℕ) =
      .ok (post.dropWhile (· ≠ space)).tail := by
  have hsplit := List.takeWhile_append_dropWhile (p := (· ≠ space)) (l := post)
  have hne : post.dropWhile (· ≠ space) ≠ [] := by
    intro hnil
    rw [List.dropWhile_eq_nil_iff] at hnil
    simpa using hnil space h
  have hlen : (post.takeWhile (· ≠ space)).length + 1 ≤ post.length := by
    have := congrArg List.length hsplit
    rw [List.length_append] at this
    have := List.length_pos_of_ne_nil hne
    omega
  have hdrop : post.drop (post.takeWhile (· ≠ space)).length = post.dropWhile (· ≠ space) := by
    calc post.drop (post.takeWhile (· ≠ space)).length
        = (post.takeWhile (· ≠ space) ++ post.dropWhile (· ≠ space)).drop
            (post.takeWhile (· ≠ space)).length := by rw [hsplit]
      _ = post.dropWhile (· ≠ space) := List.drop_left
  rw [substringFrom_of_le hlen, ← List.tail_drop, hdrop]

theorem startSession_user (username : JString) (r r' : UserRef) :
    (startSession connectionId s username r).user r' =
      if r' = r then (s.user r).activate.setConnId connectionId else s.user r' := rfl

@[simp] theorem startSession_awaitingPosts (username : JString) (r r' : UserRef) :
    ((startSession connectionId s username r).user r').awaitingPosts =
      (s.user r').awaitingPosts := by
  rw [startSession_user]
  split
  case isTrue h => rw [h]; rfl
  case isFalse => rfl

/-- A new session changes nothing of a user but the flag and the connection. -/
theorem startSession_eq_except (username : JString) (r r' : UserRef) :
    (startSession connectionId s username r).user r' =
      { s.user r' with
        isActivated := ((startSession connectionId s username r).user r').isActivated
        connId := ((startSession connectionId s username r).user r').connId } := by
  rw [startSession_user]
  split
  case isTrue h => rw [h]; rfl
  case isFalse => rfl

/-- The replay loop only sends. -/
theorem replay_server (senderName : JString) (limit : ℕ) (posts : List JString) :
    (replay connectionId senderName limit s posts).server = s := by
  induction posts generalizing senderName limit with
  | nil => rfl
  | cons post posts ih =>
    simp only [replay]
    split
    case h_1 =>
      rw [(sendable_notification (str "091") rfl rfl).send_eq, Outcome.andThen_of_none, ih]
    case h_2 => rfl

/-- When every queued post has a blank, the replay is never cut short. -/
theorem replay_eq {posts : List JString} (h : ∀ post ∈ posts, space ∈ post)
    (senderName : JString) (limit : ℕ) :
    replay connectionId senderName limit s posts =
      ⟨s, (replayMessages senderName posts).flatMap (s.delivery connectionId), none⟩ := by
  induction posts generalizing senderName limit with
  | nil => rfl
  | cons post posts ih =>
    have hpost := h post List.mem_cons_self
    have hposts := ih fun p hp ↦ h p (List.mem_cons_of_mem post hp)
    have hcontent := substringFrom_of_mem_space hpost
    simp only [replay, replayScan_eq hpost, Nat.zero_add, hcontent,
      (sendable_notification (str "091") rfl rfl).send_eq, Outcome.andThen_of_none, hposts,
      replayMessages, List.flatMap_cons]

theorem processLogin_server_of_accepts {username : JString} {r : UserRef}
    (h : LoginAccepts env s message username r) :
    (processLogin env connectionId s message).server = startSession connectionId s username r := by
  obtain ⟨rest, hargs⟩ := h.args
  simp only [processLogin, hargs, h.found, h.inactive, and_self, if_true,
    (show Sendable (str "1002") by decide).send_eq, Outcome.andThen_of_none, replay_server]

/-- **An accepted LOGIN** acknowledges and replays the whole queue. -/
theorem processLogin_of_accepts {username : JString} {r : UserRef}
    (h : LoginAccepts env s message username r)
    (hposts : ∀ post ∈ (s.user r).awaitingPosts, space ∈ post) :
    processLogin env connectionId s message =
      ⟨startSession connectionId s username r,
        s.delivery connectionId (str "1002") ++
          (replayMessages [] (s.user r).awaitingPosts).flatMap (s.delivery connectionId),
        none⟩ := by
  obtain ⟨rest, hargs⟩ := h.args
  simp only [processLogin, hargs, h.found, h.inactive, and_self, if_true,
    (show Sendable (str "1002") by decide).send_eq, Outcome.andThen_of_none,
    startSession_awaitingPosts, replay_eq hposts]
  rfl

theorem processLogin_refusal (h : ∀ username r, ¬ LoginAccepts env s message username r) :
    Refusal connectionId s (str "02") (processLogin env connectionId s message) := by
  rw [processLogin]
  split
  case h_1 username password captcha rest hargs =>
    split
    case h_1 r hfound =>
      split
      case isTrue haccept =>
        obtain ⟨hpassword, hcaptcha, hinactive⟩ := haccept
        refine absurd ⟨⟨rest, ?_⟩, hfound, hinactive⟩ (h username r)
        rw [hargs, hpassword, hcaptcha]
      case isFalse => exact Refusal.of_send (by decide)
    case h_2 => exact Refusal.of_send (by decide)
  case h_2 => exact .thrown _

/-! ### LOGOUT -/

/-- Leaving changes nothing of a user but the flag. -/
theorem deActivate_eq_except (s : Server) (r r' : UserRef) :
    (s.modifyUser r User.deActivate).user r' =
      { s.user r' with
        isActivated := ((s.modifyUser r User.deActivate).user r').isActivated } := by
  rw [Server.modifyUser_user]
  split
  case isTrue h => rw [h]; rfl
  case isFalse => rfl

theorem processLogout_of_session {r : UserRef} (h : env.findActive s connectionId = some r) :
    processLogout env connectionId s =
      ⟨s.modifyUser r User.deActivate, s.delivery connectionId (str "1003"), none⟩ := by
  simp only [processLogout, h, Server.removeActiveUser_user]
  exact (show Sendable (str "1003") by decide).send_eq _ _

theorem processLogout_refusal (h : env.findActive s connectionId = none) :
    Refusal connectionId s (str "03") (processLogout env connectionId s) := by
  simp only [processLogout, h]
  exact Refusal.of_send (by decide)

end Commands

end SplNet
