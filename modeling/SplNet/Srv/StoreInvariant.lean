import SplNet.Srv.ServerEffect

/-!
# The store invariant

`Coherent` collects what every reachable store satisfies: a registered user is stored under its own
name, references are allocated in order and unused ones still hold the untouched object, whoever is
active or in the active map is registered and sits on an accepted connection, and every queued post
has a blank in it.

On coherent stores the effects of an event separate into four independent aspects — accounts,
sessions, the follow and block lists, the queues — each changed by its own commands only
(`Effect.accounts`, `Effect.sessions`, `Effect.graph`, `Effect.queues`). The invariants of the later
modules are proved from their own aspect.
-/

namespace SplNet

open Java

/-- **The store invariant.** -/
structure Coherent (s : Server) : Prop where
  /-- A registered user is stored under its own name. -/
  username_of_mem : ∀ {k r}, (k, r) ∈ s.usersMap.entries → (s.user r).username = k
  registered_lt : ∀ {r}, s.Registered r → r < s.nextUser
  /-- Unused references hold the object they held at start-up. -/
  unused : ∀ {r}, s.nextUser ≤ r → s.user r = User.new [] [] []
  active_registered : ∀ {k r}, (k, r) ∈ s.activeUsersMap.entries → s.Registered r
  activated_registered : ∀ {r}, (s.user r).isActivated = true → s.Registered r
  active_connId : ∀ {k r}, (k, r) ∈ s.activeUsersMap.entries →
    (s.user r).connId ∈ s.connectionsMap
  activated_connId : ∀ {r}, (s.user r).isActivated = true → (s.user r).connId ∈ s.connectionsMap
  connectionsMap_lt : ∀ {c}, c ∈ s.connectionsMap → 0 ≤ c ∧ c < s.connectionId
  connectionId_nonneg : 0 ≤ s.connectionId
  /-- Every queued post has a blank, behind the author. -/
  blank_mem : ∀ {r post}, post ∈ (s.user r).awaitingPosts → space ∈ post

theorem coherent_init (mode : ServerMode) : Coherent (Server.init mode) where
  username_of_mem h := absurd h List.not_mem_nil
  registered_lt := fun ⟨_, h⟩ ↦ absurd h List.not_mem_nil
  unused _ := rfl
  active_registered h := absurd h List.not_mem_nil
  activated_registered h := absurd h Bool.false_ne_true
  active_connId h := absurd h List.not_mem_nil
  activated_connId h := absurd h Bool.false_ne_true
  connectionsMap_lt h := absurd h List.not_mem_nil
  connectionId_nonneg := Int.le_refl 0
  blank_mem h := absurd h List.not_mem_nil

/-- A connection on which an active user is found has been accepted. -/
theorem Coherent.mem_of_findActive {s : Server} (hs : Coherent s) {env : Surroundings}
    {connectionId : ℤ} {r : UserRef} (h : env.findActive s connectionId = some r) :
    connectionId ∈ s.connectionsMap := by
  obtain ⟨⟨k, hk⟩, rfl⟩ := Surroundings.findActive_eq_some h
  exact hs.active_connId hk

/-- An active user that is found is registered. -/
theorem Coherent.registered_of_findActive {s : Server} (hs : Coherent s) {env : Surroundings}
    {connectionId : ℤ} {r : UserRef} (h : env.findActive s connectionId = some r) :
    s.Registered r := by
  obtain ⟨⟨k, hk⟩, -⟩ := Surroundings.findActive_eq_some h
  exact hs.active_registered hk

/-- When every user is stored under its own name, an iteration meets a registered user once. -/
theorem Server.count_users {s : Server}
    (hname : ∀ k r, (k, r) ∈ s.usersMap.entries → (s.user r).username = k) {r : UserRef}
    (hr : s.Registered r) (env : Surroundings) : (env.users s).count r = 1 := by
  have hnodup : (s.usersMap.entries.map Prod.snd).Nodup := by
    refine List.Nodup.map_on ?_ s.usersMap.nodupKeys.of_map
    rintro ⟨k, r⟩ hk ⟨k', r'⟩ hk' rfl
    rw [← hname k r hk, ← hname k' r hk']
  have hperm : (env.users s).Perm (s.usersMap.entries.map Prod.snd) :=
    IterationOrder.values_perm env.usersOrder .listed s.usersMap
  exact List.count_eq_one_of_mem (hperm.nodup_iff.2 hnodup) (Surroundings.mem_users.2 hr)

/-! ### The four aspects -/

/-- The same accounts: the map and what REGISTER wrote into the objects. -/
structure SameAccounts (s s' : Server) : Prop where
  usersMap : s'.usersMap = s.usersMap
  nextUser : s'.nextUser = s.nextUser
  username : ∀ r, (s'.user r).username = (s.user r).username
  password : ∀ r, (s'.user r).password = (s.user r).password
  birthday : ∀ r, (s'.user r).birthday = (s.user r).birthday

/-- The same sessions: the active map, the flags and the connections of the users. -/
structure SameSessions (s s' : Server) : Prop where
  activeUsersMap : s'.activeUsersMap = s.activeUsersMap
  isActivated : ∀ r, (s'.user r).isActivated = (s.user r).isActivated
  connId : ∀ r, (s'.user r).connId = (s.user r).connId

/-- The same follow and block lists. -/
structure SameGraph (s s' : Server) : Prop where
  followers : ∀ r, (s'.user r).followers = (s.user r).followers
  blockingUsers : ∀ r, (s'.user r).blockingUsers = (s.user r).blockingUsers

/-- The same queues of posts. -/
def SameQueues (s s' : Server) : Prop :=
  ∀ r, (s'.user r).awaitingPosts = (s.user r).awaitingPosts

namespace Effect

variable {s s' : Server} {e : Event}

/-- Accounts change by REGISTER only. -/
theorem accounts (h : Effect s e s') :
    SameAccounts s s' ∨ ∃ message username password birthday,
      RegisterAccepts s message username password birthday ∧
        s' = s.putUser username (User.new username password birthday) := by
  cases h
  case accept => exact Or.inl ⟨rfl, rfl, fun _ ↦ rfl, fun _ ↦ rfl, fun _ ↦ rfl⟩
  case unchanged => exact Or.inl ⟨rfl, rfl, fun _ ↦ rfl, fun _ ↦ rfl, fun _ ↦ rfl⟩
  case register h => exact Or.inr ⟨_, _, _, _, h, rfl⟩
  case login => exact Or.inl ⟨rfl, rfl, fun r ↦ by rw [startSession_eq_except],
    fun r ↦ by rw [startSession_eq_except], fun r ↦ by rw [startSession_eq_except]⟩
  case logout => exact Or.inl ⟨rfl, rfl, fun r ↦ by rw [deActivate_eq_except],
    fun r ↦ by rw [deActivate_eq_except], fun r ↦ by rw [deActivate_eq_except]⟩
  case follow => exact Or.inl ⟨rfl, rfl, fun r ↦ by rw [addFollow_eq_except],
    fun r ↦ by rw [addFollow_eq_except], fun r ↦ by rw [addFollow_eq_except]⟩
  case unfollow => exact Or.inl ⟨rfl, rfl, fun r ↦ by rw [dropFollow_eq_except],
    fun r ↦ by rw [dropFollow_eq_except], fun r ↦ by rw [dropFollow_eq_except]⟩
  case post => exact Or.inl ⟨rfl, rfl, fun r ↦ by rw [queuePost_eq_except],
    fun r ↦ by rw [queuePost_eq_except], fun r ↦ by rw [queuePost_eq_except]⟩
  case block => exact Or.inl ⟨by rw [blockUser_eq_user], by rw [blockUser_eq_user],
    fun r ↦ by rw [blockUser_eq_except], fun r ↦ by rw [blockUser_eq_except],
    fun r ↦ by rw [blockUser_eq_except]⟩

/-- Connections change by accepting one only. -/
theorem connections (h : Effect s e s') :
    s'.connectionsMap = s.connectionsMap ∧ s'.connectionId = s.connectionId ∨ s' = s.accept := by
  cases h
  case accept => exact Or.inr rfl
  case block => exact Or.inl ⟨by rw [blockUser_eq_user], by rw [blockUser_eq_user]⟩
  all_goals exact Or.inl ⟨rfl, rfl⟩

/-- The object at a fresh reference differs from the unused one in what REGISTER writes only. -/
theorem putUser_user_eq (hs : Coherent s) (username password birthday : JString) (r : UserRef) :
    (s.putUser username (User.new username password birthday)).user r =
      { s.user r with
        username := ((s.putUser username (User.new username password birthday)).user r).username
        password := ((s.putUser username (User.new username password birthday)).user r).password
        birthday :=
          ((s.putUser username (User.new username password birthday)).user r).birthday } := by
  by_cases hr : r = s.nextUser
  · simp only [Server.putUser, hr, if_true, hs.unused le_rfl]
    rfl
  · simp [Server.putUser, hr]

/-- Sessions change by LOGIN and LOGOUT only. -/
theorem sessions (h : Effect s e s') (hs : Coherent s) :
    SameSessions s s' ∨
      (∃ env connectionId message username r,
        e = .request env connectionId (str "02" ++ message) ∧
          connectionId ∈ s.connectionsMap ∧ LoginAccepts env s message username r ∧
            s' = startSession connectionId s username r) ∨
      ∃ env connectionId message r,
        e = .request env connectionId (str "03" ++ message) ∧
          env.findActive s connectionId = some r ∧ s' = s.modifyUser r User.deActivate := by
  cases h
  case accept => exact Or.inl ⟨rfl, fun _ ↦ rfl, fun _ ↦ rfl⟩
  case unchanged => exact Or.inl ⟨rfl, fun _ ↦ rfl, fun _ ↦ rfl⟩
  case register => exact Or.inl ⟨rfl, fun r ↦ by rw [putUser_user_eq hs],
    fun r ↦ by rw [putUser_user_eq hs]⟩
  case login hmem h => exact Or.inr (Or.inl ⟨_, _, _, _, _, rfl, hmem, h, rfl⟩)
  case logout h => exact Or.inr (Or.inr ⟨_, _, _, _, rfl, h, rfl⟩)
  case follow => exact Or.inl ⟨rfl, fun r ↦ by rw [addFollow_eq_except],
    fun r ↦ by rw [addFollow_eq_except]⟩
  case unfollow => exact Or.inl ⟨rfl, fun r ↦ by rw [dropFollow_eq_except],
    fun r ↦ by rw [dropFollow_eq_except]⟩
  case post => exact Or.inl ⟨rfl, fun r ↦ by rw [queuePost_eq_except],
    fun r ↦ by rw [queuePost_eq_except]⟩
  case block => exact Or.inl ⟨by rw [blockUser_eq_user], fun r ↦ by rw [blockUser_eq_except],
    fun r ↦ by rw [blockUser_eq_except]⟩

/-- The follow and block lists change by FOLLOW and BLOCK only. -/
theorem graph (h : Effect s e s') (hs : Coherent s) :
    SameGraph s s' ∨
      (∃ env connectionId message text my other,
        e = .request env connectionId (str "04" ++ message) ∧
          FollowAccepts env connectionId s message text my other ∧ s' = addFollow s my other) ∨
      (∃ env connectionId message text my other,
        e = .request env connectionId (str "04" ++ message) ∧
          UnfollowAccepts env connectionId s message text my other ∧ s' = dropFollow s my other) ∨
      ∃ env connectionId message my other,
        e = .request env connectionId (str "12" ++ message) ∧
          BlockAccepts env connectionId s message my other ∧ s' = blockUser s my other := by
  cases h
  case accept => exact Or.inl ⟨fun _ ↦ rfl, fun _ ↦ rfl⟩
  case unchanged => exact Or.inl ⟨fun _ ↦ rfl, fun _ ↦ rfl⟩
  case register => exact Or.inl ⟨fun r ↦ by rw [putUser_user_eq hs],
    fun r ↦ by rw [putUser_user_eq hs]⟩
  case login => exact Or.inl ⟨fun r ↦ by rw [startSession_eq_except],
    fun r ↦ by rw [startSession_eq_except]⟩
  case logout => exact Or.inl ⟨fun r ↦ by rw [deActivate_eq_except],
    fun r ↦ by rw [deActivate_eq_except]⟩
  case follow h => exact Or.inr (Or.inl ⟨_, _, _, _, _, _, rfl, h, rfl⟩)
  case unfollow h => exact Or.inr (Or.inr (Or.inl ⟨_, _, _, _, _, _, rfl, h, rfl⟩))
  case post => exact Or.inl ⟨fun r ↦ by rw [queuePost_eq_except],
    fun r ↦ by rw [queuePost_eq_except]⟩
  case block h => exact Or.inr (Or.inr (Or.inr ⟨_, _, _, _, _, rfl, h, rfl⟩))

/-- The queues change by POST only. -/
theorem queues (h : Effect s e s') (hs : Coherent s) :
    SameQueues s s' ∨ ∃ env connectionId message my,
      e = .request env connectionId (str "05" ++ message) ∧
        PostAccepts env connectionId s message my ∧
          s' = queuePost s (postEntry s my message.dropLast)
            (postReceivers env s my message.dropLast) := by
  cases h
  case accept => exact Or.inl fun _ ↦ rfl
  case unchanged => exact Or.inl fun _ ↦ rfl
  case register => exact Or.inl fun r ↦ by rw [putUser_user_eq hs]
  case login => exact Or.inl fun r ↦ by rw [startSession_eq_except]
  case logout => exact Or.inl fun r ↦ by rw [deActivate_eq_except]
  case follow => exact Or.inl fun r ↦ by rw [addFollow_eq_except]
  case unfollow => exact Or.inl fun r ↦ by rw [dropFollow_eq_except]
  case post h => exact Or.inr ⟨_, _, _, _, rfl, h, rfl⟩
  case block => exact Or.inl fun r ↦ by rw [blockUser_eq_except]

end Effect

/-! ### Preservation -/

section Preservation

variable {s s' : Server} {e : Event}

/-- A free name is no key of the map, so registering replaces nothing. -/
theorem RegisterAccepts.not_mem (hs : Coherent s) {message username password birthday : JString}
    (h : RegisterAccepts s message username password birthday) (r : UserRef) :
    (username, r) ∉ s.usersMap.entries := by
  intro hmem
  have hfree := h.free r ⟨_, hmem⟩
  rw [hs.username_of_mem hmem, contains_self] at hfree
  exact absurd hfree (by decide)

theorem RegisterAccepts.mem_usersMap (hs : Coherent s)
    {message username password birthday : JString}
    (h : RegisterAccepts s message username password birthday) (u : User) {k : JString}
    {r : UserRef} :
    (k, r) ∈ (s.putUser username u).usersMap.entries ↔
      k = username ∧ r = s.nextUser ∨ (k, r) ∈ s.usersMap.entries := by
  rw [Server.putUser, ConcurrentMap.mem_put]
  constructor
  · rintro (hnew | ⟨-, hold⟩)
    · exact Or.inl hnew
    · exact Or.inr hold
  · rintro (hnew | hold)
    · exact Or.inl hnew
    · exact Or.inr ⟨fun hk ↦ h.not_mem hs r (hk ▸ hold), hold⟩

/-- **Nobody is ever unregistered.** -/
theorem Effect.registered_mono (h : Effect s e s') (hs : Coherent s) {r : UserRef}
    (hr : s.Registered r) : s'.Registered r := by
  obtain ⟨k, hk⟩ := hr
  rcases h.accounts with hsame | ⟨message, username, password, birthday, hreg, rfl⟩
  · exact ⟨k, hsame.usersMap ▸ hk⟩
  · exact ⟨k, (hreg.mem_usersMap hs _).2 (Or.inr hk)⟩

/-- Nobody is ever renamed. -/
theorem Effect.username_eq (h : Effect s e s') (hs : Coherent s) {r : UserRef}
    (hr : s.Registered r) : (s'.user r).username = (s.user r).username := by
  rcases h.accounts with hsame | ⟨message, username, password, birthday, hreg, rfl⟩
  · exact hsame.username r
  · have hne : r ≠ s.nextUser := Nat.ne_of_lt (hs.registered_lt hr)
    exact congrArg User.username (if_neg hne)

/-- Queues only grow, at the end. -/
theorem Effect.awaitingPosts_extended (h : Effect s e s') (hs : Coherent s) (r : UserRef) :
    (s.user r).awaitingPosts <+: (s'.user r).awaitingPosts := by
  rcases h.queues hs with hsame | ⟨env, c, m, my, -, -, hs'⟩
  · rw [hsame r]
  · rw [hs', queuePost_awaitingPosts]
    split
    case isTrue => exact List.prefix_rfl
    case isFalse => exact List.prefix_append _ _

theorem Effect.mem_connectionsMap (h : Effect s e s') {c : ℤ} (hc : c ∈ s.connectionsMap) :
    c ∈ s'.connectionsMap := by
  rcases h.connections with ⟨hsame, -⟩ | rfl
  · exact hsame ▸ hc
  · exact List.mem_insert_of_mem hc

/-- An event leaves users that are not registered before it alone, except that REGISTER fills the
next reference. -/
theorem Effect.user_eq_of_not_registered (h : Effect s e s') (hs : Coherent s) {r : UserRef}
    (hr : ¬ s.Registered r) (hlt : s'.nextUser ≤ r) : s'.user r = s.user r := by
  have hne : ∀ {r'}, s.Registered r' → r ≠ r' := fun hr' heq ↦ hr (heq ▸ hr')
  have hfind : ∀ {env : Surroundings} {c : ℤ} {r'}, env.findActive s c = some r' → r ≠ r' := by
    intro env c r' hr'
    exact hne (hs.registered_of_findActive hr')
  cases h
  case accept => rfl
  case unchanged => rfl
  case register =>
    have : r ≠ s.nextUser := by
      rintro rfl
      exact absurd hlt (Nat.not_succ_le_self _)
    exact if_neg this
  case login h => exact if_neg (hne (Surroundings.findContaining_eq_some h.found).1)
  case logout h => exact if_neg (hfind h)
  case follow h => exact if_neg (hfind h.session)
  case unfollow h => exact if_neg (hfind h.session)
  case post => exact queuePost_user_of_not_mem fun hmem ↦ hr (mem_postReceivers.1 hmem).1
  case block h =>
    have hother := hne (Surroundings.findContained_eq_some h.target).1
    rw [blockUser_eq]
    simp only [Server.modifyUser_user, if_neg (hfind h.session), if_neg hother]

/-- **The store invariant is preserved by every event.** -/
theorem Effect.coherent (h : Effect s e s') (hs : Coherent s) : Coherent s' where
  username_of_mem := by
    intro k r hk
    rcases h.accounts with hsame | ⟨message, username, password, birthday, hreg, rfl⟩
    · rw [hsame.username]
      exact hs.username_of_mem (hsame.usersMap ▸ hk)
    · rcases (hreg.mem_usersMap hs _).1 hk with ⟨rfl, rfl⟩ | hk
      · simp [Server.putUser, User.new]
      · have hlt := hs.registered_lt ⟨k, hk⟩
        rw [← hs.username_of_mem hk]
        exact congrArg User.username (if_neg (Nat.ne_of_lt hlt))
  registered_lt := by
    rintro r ⟨k, hk⟩
    rcases h.accounts with hsame | ⟨message, username, password, birthday, hreg, rfl⟩
    · rw [hsame.nextUser]
      exact hs.registered_lt ⟨k, hsame.usersMap ▸ hk⟩
    · show r < s.nextUser + 1
      rcases (hreg.mem_usersMap hs _).1 hk with ⟨-, rfl⟩ | hk
      · exact Nat.lt_succ_self _
      · exact Nat.lt_succ_of_lt (hs.registered_lt ⟨k, hk⟩)
  unused := by
    intro r hr
    have hle : s.nextUser ≤ s'.nextUser := by
      rcases h.accounts with hsame | ⟨message, username, password, birthday, hreg, rfl⟩
      · exact hsame.nextUser.ge
      · exact Nat.le_succ _
    have hnot : ¬ s.Registered r := fun hreg ↦
      absurd (hs.registered_lt hreg) (Nat.not_lt.2 (hle.trans hr))
    rw [h.user_eq_of_not_registered hs hnot hr]
    exact hs.unused (hle.trans hr)
  active_registered := by
    intro k r hk
    rcases h.sessions hs with hsame | ⟨env, c, m, username, r', -, -, hlogin, hs'⟩ |
      ⟨env, c, m, r', -, -, hs'⟩
    · exact h.registered_mono hs (hs.active_registered (hsame.activeUsersMap ▸ hk))
    · rw [hs'] at hk
      rcases ConcurrentMap.mem_put.1 hk with ⟨-, rfl⟩ | ⟨-, hk⟩
      · exact h.registered_mono hs (Surroundings.findContaining_eq_some hlogin.found).1
      · exact h.registered_mono hs (hs.active_registered hk)
    · rw [hs'] at hk
      exact h.registered_mono hs (hs.active_registered hk)
  activated_registered := by
    intro r hr
    rcases h.sessions hs with hsame | ⟨env, c, m, username, r', -, -, hlogin, hs'⟩ |
      ⟨env, c, m, r', -, -, hs'⟩
    · rw [hsame.isActivated] at hr
      exact h.registered_mono hs (hs.activated_registered hr)
    · rw [hs', startSession_user] at hr
      split at hr
      case isTrue heq =>
        rw [heq]
        exact h.registered_mono hs (Surroundings.findContaining_eq_some hlogin.found).1
      case isFalse => exact h.registered_mono hs (hs.activated_registered hr)
    · rw [hs', Server.modifyUser_user] at hr
      split at hr
      case isTrue => exact absurd hr Bool.false_ne_true
      case isFalse => exact h.registered_mono hs (hs.activated_registered hr)
  active_connId := by
    intro k r hk
    rcases h.sessions hs with hsame | ⟨env, c, m, username, r', -, hmem, hlogin, hs'⟩ |
      ⟨env, c, m, r', -, -, hs'⟩
    · rw [hsame.connId]
      exact h.mem_connectionsMap (hs.active_connId (hsame.activeUsersMap ▸ hk))
    · refine h.mem_connectionsMap ?_
      rw [hs', startSession_user]
      split
      case isTrue => exact hmem
      case isFalse hne =>
        rw [hs'] at hk
        rcases ConcurrentMap.mem_put.1 hk with ⟨-, heq⟩ | ⟨-, hk⟩
        · exact absurd heq hne
        · exact hs.active_connId hk
    · refine h.mem_connectionsMap ?_
      rw [hs', deActivate_eq_except]
      rw [hs'] at hk
      exact hs.active_connId hk
  activated_connId := by
    intro r hr
    refine h.mem_connectionsMap ?_
    rcases h.sessions hs with hsame | ⟨env, c, m, username, r', -, hmem, hlogin, hs'⟩ |
      ⟨env, c, m, r', -, -, hs'⟩
    · rw [hsame.connId]
      rw [hsame.isActivated] at hr
      exact hs.activated_connId hr
    · rw [hs', startSession_user] at hr ⊢
      by_cases heq : r = r'
      · rw [if_pos heq]
        exact hmem
      · rw [if_neg heq] at hr ⊢
        exact hs.activated_connId hr
    · rw [hs', Server.modifyUser_user] at hr ⊢
      by_cases heq : r = r'
      · rw [if_pos heq] at hr
        exact absurd hr Bool.false_ne_true
      · rw [if_neg heq] at hr ⊢
        exact hs.activated_connId hr
  connectionsMap_lt := by
    intro c hc
    rcases h.connections with ⟨hsame, hcounter⟩ | rfl
    · rw [hcounter]
      exact hs.connectionsMap_lt (hsame ▸ hc)
    · show 0 ≤ c ∧ c < s.connectionId + 1
      have hnonneg := hs.connectionId_nonneg
      rcases List.mem_insert_iff.1 hc with rfl | hc
      · omega
      · have := hs.connectionsMap_lt hc
        omega
  connectionId_nonneg := by
    have hnonneg := hs.connectionId_nonneg
    rcases h.connections with ⟨-, hcounter⟩ | rfl
    · rw [hcounter]
      exact hnonneg
    · show 0 ≤ s.connectionId + 1
      omega
  blank_mem := by
    intro r post hpost
    rcases h.queues hs with hsame | ⟨env, c, m, my, -, -, rfl⟩
    · rw [hsame r] at hpost
      exact hs.blank_mem hpost
    · rw [queuePost_awaitingPosts] at hpost
      split at hpost
      case isTrue => exact hs.blank_mem hpost
      case isFalse =>
        rcases List.mem_append.1 hpost with hold | hnew
        · exact hs.blank_mem hold
        · rw [List.eq_of_mem_replicate hnew, postEntry]
          simp

end Preservation

/-- Every reachable store is coherent. -/
theorem coherent_of_reachable {mode : ServerMode} {s : Server}
    (h : (serverMachine mode).Reachable s) : Coherent s :=
  h.invariant (coherent_init mode) fun s e _ hs ↦ (effect_next mode s e).coherent hs

/-- No name has a `\0` in it, since REGISTER splits its frame there. -/
theorem nul_not_mem_username {mode : ServerMode} {s : Server}
    (h : (serverMachine mode).Reachable s) (r : UserRef) : nul ∉ (s.user r).username := by
  refine h.invariant (P := fun s ↦ ∀ r, nul ∉ (s.user r).username)
    (fun _ ↦ List.not_mem_nil) (fun s e _ hs r ↦ ?_) r
  rcases (effect_next mode s e).accounts with hsame | ⟨_, username, _, _, haccepts, heq⟩
  · rw [hsame.username]
    exact hs r
  · obtain ⟨rest, hargs⟩ := haccepts.args
    rw [heq, Server.putUser]
    by_cases hr : r = s.nextUser
    · simp only [hr, if_true]
      exact not_mem_of_mem_split (hargs ▸ List.mem_cons_self)
    · simp only [hr, if_false]
      exact hs r

end SplNet
