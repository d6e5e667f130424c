import SplNet.Api.Spec.Frames

/-!
# Exceptions

When a command throws. Of the commands that change the store only REGISTER and LOGIN read separate
arguments, and throw when one is missing (`thrown_processRegister_iff`, `thrown_processLogin_iff`);
LOGOUT never throws, and FOLLOW, POST and BLOCK only on an empty text. **PM alone can also throw
with all its arguments there**: when the name of the user its search ends at is too long to be cut
off (`thrown_processPm_iff`).
-/

namespace SplNet

open Java

theorem Sendable.thrown_send {msg : JString} (h : Sendable msg) (s : Server) (connectionId : ℤ) :
    (s.send connectionId msg).thrown = none := by
  rw [h.send_eq]

section Commands

variable {env : Surroundings} {connectionId : ℤ} {s : Server} {message : JString}

theorem thrown_throws_ne_none (s : Server) (e : JException) : (Outcome.throws s e).thrown ≠ none :=
  Option.some_ne_none e

/-- Whatever has no three pieces in front has not three pieces. -/
theorem length_lt_three {pieces : List JString}
    (h : ∀ u p b rest, pieces = u :: p :: b :: rest → False) : pieces.length < 3 := by
  rcases pieces with - | ⟨u, - | ⟨p, - | ⟨b, rest⟩⟩⟩
  · simp
  · simp
  · simp
  · exact (h u p b rest rfl).elim

/-- REGISTER needs three arguments. -/
theorem thrown_processRegister_iff :
    (processRegister env connectionId s message).thrown = none ↔
      3 ≤ (split message nul).length := by
  rw [processRegister]
  split
  case h_1 username password birthday rest hargs =>
    have hlen : 3 ≤ (split message nul).length := by
      rw [hargs]
      exact Nat.le_add_left 3 rest.length
    refine iff_of_true ?_ hlen
    split
    · exact (show Sendable (str "1101") by decide).thrown_send _ _
    · exact (show Sendable (str "1001") by decide).thrown_send _ _
  case h_2 hargs => exact iff_of_false (thrown_throws_ne_none _ _) (length_lt_three hargs).not_ge

/-- LOGIN needs three arguments. The replay of queued posts never throws, since each of them has a
blank in it. -/
theorem thrown_processLogin_iff (hposts : ∀ r, ∀ post ∈ (s.user r).awaitingPosts, space ∈ post) :
    (processLogin env connectionId s message).thrown = none ↔ 3 ≤ (split message nul).length := by
  by_cases haccepts : ∃ username r, LoginAccepts env s message username r
  · obtain ⟨username, r, haccepts⟩ := haccepts
    rw [processLogin_of_accepts haccepts (hposts r)]
    obtain ⟨rest, hargs⟩ := haccepts.args
    rw [hargs]
    exact iff_of_true rfl (Nat.le_add_left 3 rest.length)
  · rw [processLogin]
    split
    case h_1 username password captcha rest hargs =>
      have hlen : 3 ≤ (split message nul).length := by
        rw [hargs]
        exact Nat.le_add_left 3 rest.length
      refine iff_of_true ?_ hlen
      split
      case h_1 r hfound =>
        rw [if_neg]
        · exact (show Sendable (str "1102") by decide).thrown_send _ _
        · rintro ⟨rfl, rfl, hinactive⟩
          exact haccepts ⟨username, r, ⟨rest, hargs⟩, hfound, hinactive⟩
      case h_2 => exact (show Sendable (str "1102") by decide).thrown_send _ _
    case h_2 hargs => exact iff_of_false (thrown_throws_ne_none _ _) (length_lt_three hargs).not_ge

theorem thrown_processLogout : (processLogout env connectionId s).thrown = none := by
  rcases hfind : env.findActive s connectionId with - | r
  · rw [processLogout, hfind]
    exact (show Sendable (str "1103") by decide).thrown_send _ _
  · rw [processLogout_of_session hfind]

theorem thrown_processFollow (hne : message ≠ []) :
    (processFollow env connectionId s message).thrown = none := by
  have herror := (show Sendable (str "1104") by decide).thrown_send s connectionId
  obtain ⟨action, text, rfl⟩ := List.exists_cons_of_ne_nil hne
  rw [processFollow]
  split
  case h_2 => exact herror
  split
  case h_2 => rfl
  split
  case isFalse => rfl
  split
  case isTrue =>
    rw [List.append_assoc]
    exact (sendable_followAck ⟨str "0", rfl⟩).thrown_send _ _
  split
  case isTrue =>
    rw [List.append_assoc]
    exact (sendable_followAck ⟨str "1", rfl⟩).thrown_send _ _
  case isFalse => exact herror

theorem thrown_processPost (hne : message ≠ []) :
    (processPost env connectionId s message).thrown = none := by
  rcases hfind : env.findActive s connectionId with - | my
  · simp only [processPost, substring_dropLast, if_neg hne, hfind]
    exact (show Sendable (str "1105") by decide).thrown_send _ _
  · rw [processPost_of_accepts ⟨hne, hfind⟩]

theorem thrown_processBlock (hne : message ≠ []) :
    (processBlock env connectionId s message).thrown = none := by
  rw [processBlock, substring_dropLast, if_neg hne]
  split
  case h_2 => exact (show Sendable (str "1112") by decide).thrown_send _ _
  split
  · exact (show Sendable (str "1012") by decide).thrown_send _ _
  · exact (show Sendable (str "1112") by decide).thrown_send _ _

/-- PM throws when its two searches end at users who may write to each other, and the name of the
addressee leaves nothing of the text. -/
theorem thrown_processPm_iff (hne : message ≠ []) :
    (processPm env connectionId s message).thrown = none ↔
      ∀ my other, sessionVariable env connectionId s = some my →
        recipientVariable env s message.dropLast = some other →
          other ∈ (s.user my).followers → my ∉ (s.user other).blockingUsers →
            (s.user other).username.length < (filterWords env s message.dropLast).length := by
  have herror := (show Sendable (str "1106") by decide).thrown_send s connectionId
  by_cases haccepts : ∃ my other content, PmAccepts env connectionId s message my other content
  · obtain ⟨x, y, content, haccepts⟩ := haccepts
    rw [processPm_of_accepts haccepts]
    refine iff_of_true rfl fun my other hmy hother _ _ ↦ ?_
    obtain rfl := Option.some.inj (haccepts.recipient.symm.trans hother)
    exact haccepts.content_eq.1
  · simp only [processPm, substring_dropLast, if_neg hne]
    split
    case h_1 my other hmy hother =>
      split
      case isTrue hguard =>
        refine iff_of_true herror fun x y hx hy hfollowed hunblocked ↦ ?_
        obtain rfl := Option.some.inj (hmy.symm.trans hx)
        obtain rfl := Option.some.inj (hother.symm.trans hy)
        exact absurd hguard (not_or.2 ⟨not_not.2 hfollowed, hunblocked⟩)
      case isFalse hguard =>
        rw [not_or, not_not] at hguard
        split
        case h_1 content hcontent =>
          exact absurd ⟨my, other, content, hne, hmy, hother, hguard.1, hguard.2, hcontent⟩ haccepts
        case h_2 e hcontent =>
          refine iff_of_false (thrown_throws_ne_none s e) fun hlong ↦ ?_
          have hcut := substringFrom_of_le (hlong my other hmy hother hguard.1 hguard.2)
          exact absurd (hcontent.symm.trans hcut) (by simp)
    case h_2 hnone =>
      exact iff_of_true herror fun my other hmy hother ↦ (hnone my other hmy hother).elim

end Commands

end SplNet
