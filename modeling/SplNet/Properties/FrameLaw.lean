import SplNet.Properties.Replies
import SplNet.Srv.History

/-!
# The frame law of the user store

What a request may change, and whose: accounts are for ever, the follow list of a user changes by
its own FOLLOW and by a BLOCK it takes part in, its block list by its own BLOCK, a session by LOGIN
and LOGOUT, and a queue of posts only grows, by POST (`frame_law`).
-/

namespace SplNet

open Java

/-- The flag or the connection of the user changes. -/
def SessionChanges (s s' : Server) (r : UserRef) : Prop :=
  (s'.user r).isActivated ≠ (s.user r).isActivated ∨ (s'.user r).connId ≠ (s.user r).connId

/-- **The frame law** for a request with this opcode on this connection. The user who makes the
request is the one `findActive` finds. -/
structure FrameLaw (env : Surroundings) (connectionId : ℤ) (optCode text : JString)
    (s s' : Server) : Prop where
  /-- Every key of `UsersMap` is the name of its user, before and after. -/
  own_key : ∀ k r, (k, r) ∈ s.usersMap.entries → (s.user r).username = k
  own_key_after : ∀ k r, (k, r) ∈ s'.usersMap.entries → (s'.user r).username = k
  /-- Nobody is removed or replaced. -/
  kept : ∀ k r, (k, r) ∈ s.usersMap.entries → (k, r) ∈ s'.usersMap.entries
  account : ∀ r, s.Registered r → (s'.user r).username = (s.user r).username ∧
    (s'.user r).password = (s.user r).password ∧ (s'.user r).birthday = (s.user r).birthday
  followers : ∀ r, (s'.user r).followers ≠ (s.user r).followers →
    optCode = str "04" ∧ env.findActive s connectionId = some r ∨
    optCode = str "12" ∧ ∃ my other, env.findActive s connectionId = some my ∧
      env.findContained s text = some other ∧ (r = my ∨ r = other)
  following : ∀ r, (s'.user r).following ≠ (s.user r).following →
    optCode = str "04" ∧ env.findActive s connectionId = some r
  blockingUsers : ∀ r, (s'.user r).blockingUsers ≠ (s.user r).blockingUsers →
    optCode = str "12" ∧ env.findActive s connectionId = some r ∧
      (s.user r).blockingUsers <+: (s'.user r).blockingUsers
  session : ∀ r, SessionChanges s s' r →
    (optCode = str "02" ∨ optCode = str "03") ∧ ∀ r', SessionChanges s s' r' → r' = r
  awaitingPosts : ∀ r, (s'.user r).awaitingPosts ≠ (s.user r).awaitingPosts →
    optCode = str "05" ∧ (s.user r).awaitingPosts <+: (s'.user r).awaitingPosts

section Effects

variable {s s' : Server} {e : Event}

/-- The counter of followed users changes by FOLLOW only. -/
theorem Effect.following_eq (h : Effect s e s') (hs : Coherent s) (r : UserRef) :
    (s'.user r).following = (s.user r).following ∨ ∃ env connectionId message,
      e = .request env connectionId (str "04" ++ message) ∧
        env.findActive s connectionId = some r := by
  cases h
  case accept => exact Or.inl rfl
  case unchanged => exact Or.inl rfl
  case register => exact Or.inl (by rw [Effect.putUser_user_eq hs])
  case login => exact Or.inl (by rw [startSession_eq_except])
  case logout => exact Or.inl (by rw [deActivate_eq_except])
  case follow my other h =>
    rcases eq_or_ne r my with rfl | hne
    · exact Or.inr ⟨_, _, _, rfl, h.session⟩
    · exact Or.inl (by rw [addFollow, Server.modifyUser_user, if_neg hne])
  case unfollow my other h =>
    rcases eq_or_ne r my with rfl | hne
    · exact Or.inr ⟨_, _, _, rfl, h.session⟩
    · exact Or.inl (by rw [dropFollow, Server.modifyUser_user, if_neg hne])
  case post => exact Or.inl (by rw [queuePost_eq_except])
  case block => exact Or.inl (by rw [blockUser_eq_except])

/-- An event keeps every entry of `UsersMap`, its object and its account. -/
theorem Effect.account_kept (h : Effect s e s') (hs : Coherent s) {k : JString} {r : UserRef}
    (hk : (k, r) ∈ s.usersMap.entries) :
    (k, r) ∈ s'.usersMap.entries ∧ (s'.user r).username = (s.user r).username ∧
      (s'.user r).password = (s.user r).password ∧ (s'.user r).birthday = (s.user r).birthday := by
  rcases h.accounts with hsame | ⟨message, username, password, birthday, hreg, rfl⟩
  · rw [hsame.usersMap]
    exact ⟨hk, hsame.username r, hsame.password r, hsame.birthday r⟩
  · have hne : r ≠ s.nextUser := Nat.ne_of_lt (hs.registered_lt ⟨k, hk⟩)
    have huser : (s.putUser username (User.new username password birthday)).user r = s.user r :=
      if_neg hne
    rw [huser]
    exact ⟨(hreg.mem_usersMap hs _).2 (Or.inr hk), rfl, rfl, rfl⟩

/-- If only one user's object changes, only that user's session changes. -/
theorem SessionChanges.eq_of_only {r r₀ : UserRef} (hr : SessionChanges s s' r)
    (honly : ∀ r', r' ≠ r₀ → s'.user r' = s.user r') : r = r₀ := by
  by_contra hne
  rw [SessionChanges, honly r hne] at hr
  rcases hr with hr | hr
  · exact hr rfl
  · exact hr rfl

end Effects

section Requests

variable {s s' : Server} {env : Surroundings} {connectionId : ℤ} {optCode text : JString}

theorem followers_frame (h : Effect s (.request env connectionId (optCode ++ text)) s')
    (hs : Coherent s) (hop : optCode.length = 2) {r : UserRef}
    (hr : (s'.user r).followers ≠ (s.user r).followers) :
    optCode = str "04" ∧ env.findActive s connectionId = some r ∨
      optCode = str "12" ∧ ∃ my other, env.findActive s connectionId = some my ∧
        env.findContained s text = some other ∧ (r = my ∨ r = other) := by
  rcases h.graph hs with hsame | ⟨env', c, m, target, my, other, heq, hfollow, rfl⟩ |
    ⟨env', c, m, target, my, other, heq, hunfollow, rfl⟩ | ⟨env', c, m, my, other, heq, hblock, rfl⟩
  · exact absurd (hsame.followers r) hr
  · obtain ⟨rfl, rfl, rfl, rfl⟩ := request_opcode_inj heq hop rfl
    rw [addFollow_followers] at hr
    rcases eq_or_ne r my with rfl | hne
    · exact Or.inl ⟨rfl, hfollow.session⟩
    · exact absurd (if_neg hne) hr
  · obtain ⟨rfl, rfl, rfl, rfl⟩ := request_opcode_inj heq hop rfl
    rw [dropFollow_followers] at hr
    rcases eq_or_ne r my with rfl | hne
    · exact Or.inl ⟨rfl, hunfollow.session⟩
    · exact absurd (if_neg hne) hr
  · obtain ⟨rfl, rfl, rfl, rfl⟩ := request_opcode_inj heq hop rfl
    refine Or.inr ⟨rfl, my, other, hblock.session, hblock.target, ?_⟩
    by_contra hnot
    rw [not_or] at hnot
    rw [blockUser_followers, if_neg hnot.2, if_neg hnot.1] at hr
    exact hr rfl

theorem following_frame (h : Effect s (.request env connectionId (optCode ++ text)) s')
    (hs : Coherent s) (hop : optCode.length = 2) {r : UserRef}
    (hr : (s'.user r).following ≠ (s.user r).following) :
    optCode = str "04" ∧ env.findActive s connectionId = some r := by
  rcases h.following_eq hs r with hsame | ⟨env', c, m, heq, hfind⟩
  · exact absurd hsame hr
  · obtain ⟨rfl, rfl, rfl, rfl⟩ := request_opcode_inj heq hop rfl
    exact ⟨rfl, hfind⟩

theorem blockingUsers_frame (h : Effect s (.request env connectionId (optCode ++ text)) s')
    (hs : Coherent s) (hop : optCode.length = 2) {r : UserRef}
    (hr : (s'.user r).blockingUsers ≠ (s.user r).blockingUsers) :
    optCode = str "12" ∧ env.findActive s connectionId = some r ∧
      (s.user r).blockingUsers <+: (s'.user r).blockingUsers := by
  rcases h.graph hs with hsame | ⟨env', c, m, target, my, other, -, -, rfl⟩ |
    ⟨env', c, m, target, my, other, -, -, rfl⟩ | ⟨env', c, m, my, other, heq, hblock, rfl⟩
  · exact absurd (hsame.blockingUsers r) hr
  · exact absurd (by rw [addFollow_eq_except]) hr
  · exact absurd (by rw [dropFollow_eq_except]) hr
  · obtain ⟨rfl, rfl, rfl, rfl⟩ := request_opcode_inj heq hop rfl
    rw [blockUser_blockingUsers] at hr ⊢
    rcases eq_or_ne r my with rfl | hne
    · rw [if_pos rfl]
      exact ⟨rfl, hblock.session, List.prefix_append _ _⟩
    · exact absurd (if_neg hne) hr

theorem session_frame (h : Effect s (.request env connectionId (optCode ++ text)) s')
    (hs : Coherent s) (hop : optCode.length = 2) {r : UserRef} (hr : SessionChanges s s' r) :
    (optCode = str "02" ∨ optCode = str "03") ∧ ∀ r', SessionChanges s s' r' → r' = r := by
  rcases h.sessions hs with hsame | ⟨env', c, m, username, r₀, heq, -, -, rfl⟩ |
    ⟨env', c, m, r₀, heq, -, rfl⟩
  · rcases hr with hr | hr
    · exact absurd (hsame.isActivated r) hr
    · exact absurd (hsame.connId r) hr
  · obtain ⟨rfl, rfl, rfl, rfl⟩ := request_opcode_inj heq hop rfl
    have honly : ∀ r', r' ≠ r₀ →
        (startSession connectionId s username r₀).user r' = s.user r' := fun r' hne ↦ if_neg hne
    refine ⟨Or.inl rfl, fun r' hr' ↦ ?_⟩
    rw [hr'.eq_of_only honly, hr.eq_of_only honly]
  · obtain ⟨rfl, rfl, rfl, rfl⟩ := request_opcode_inj heq hop rfl
    have honly : ∀ r', r' ≠ r₀ → (s.modifyUser r₀ User.deActivate).user r' = s.user r' :=
      fun r' hne ↦ if_neg hne
    refine ⟨Or.inr rfl, fun r' hr' ↦ ?_⟩
    rw [hr'.eq_of_only honly, hr.eq_of_only honly]

theorem awaitingPosts_frame (h : Effect s (.request env connectionId (optCode ++ text)) s')
    (hs : Coherent s) (hop : optCode.length = 2) {r : UserRef}
    (hr : (s'.user r).awaitingPosts ≠ (s.user r).awaitingPosts) :
    optCode = str "05" ∧ (s.user r).awaitingPosts <+: (s'.user r).awaitingPosts := by
  rcases h.queues hs with hsame | ⟨env', c, m, my, heq, -, -⟩
  · exact absurd (hsame r) hr
  · obtain ⟨rfl, rfl, rfl, rfl⟩ := request_opcode_inj heq hop rfl
    exact ⟨rfl, h.awaitingPosts_extended hs r⟩

end Requests

/-- **The frame law holds for every request on every reachable state.** -/
theorem frame_law {mode : ServerMode} {s : Server} (hreach : (serverMachine mode).Reachable s)
    (env : Surroundings) (connectionId : ℤ) {optCode : JString} (hop : optCode ∈ requestOpcodes)
    (text : JString) :
    FrameLaw env connectionId optCode text s
      ((serverMachine mode).next s (.request env connectionId (optCode ++ text))) := by
  have hs := coherent_of_reachable hreach
  have hlen := length_of_mem_requestOpcodes hop
  have heffect := effect_next mode s (.request env connectionId (optCode ++ text))
  have hs' := heffect.coherent hs
  exact
    { own_key := fun _ _ ↦ hs.username_of_mem
      own_key_after := fun _ _ ↦ hs'.username_of_mem
      kept := fun _ _ hk ↦ (heffect.account_kept hs hk).1
      account := fun _ ⟨_, hk⟩ ↦ (heffect.account_kept hs hk).2
      followers := fun _ ↦ followers_frame heffect hs hlen
      following := fun _ ↦ following_frame heffect hs hlen
      blockingUsers := fun _ ↦ blockingUsers_frame heffect hs hlen
      session := fun _ ↦ session_frame heffect hs hlen
      awaitingPosts := fun _ ↦ awaitingPosts_frame heffect hs hlen }

/-- Alice and Bob are logged in and follow each other; Carol is registered. -/
def friends : List Event :=
  [.accept, .accept, .frame 0 "01alice\x00a\x0001-01-1990\x00",
    .frame 1 "01bob\x00b\x0002-02-1990\x00", .frame 1 "01carol\x00c\x0003-03-1990\x00",
    .frame 0 "02alice\x00a\x001", .frame 1 "02bob\x00b\x001", .frame 0 "040bob\x00",
    .frame 1 "040alice\x00"]

/-- Alice blocks Bob: both follow lists change, and her block list does. -/
theorem frame_law_block :
    FrameLaw .listed 0 (str "12") (str "bob\x00") ((serverMachine .reactor).stateAfter friends)
        ((serverMachine .reactor).next ((serverMachine .reactor).stateAfter friends)
          (.request .listed 0 (str "12" ++ str "bob\x00"))) ∧
      ((((serverMachine .reactor).stateAfter friends).user 0).followers = [1] ∧
        (((serverMachine .reactor).stateAfter friends).user 1).followers = [0]) ∧
      ∀ s', s' = (serverMachine .reactor).next ((serverMachine .reactor).stateAfter friends)
          (.request .listed 0 (str "12" ++ str "bob\x00")) →
        (s'.user 0).followers = [] ∧ (s'.user 1).followers = [] ∧
          (s'.user 0).blockingUsers = [1] :=
  ⟨frame_law ⟨friends, rfl⟩ .listed 0 (by decide) (str "bob\x00"), by decide, by
    rintro s' rfl
    decide⟩

end SplNet
