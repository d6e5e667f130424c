import SplNet.Srv.History

/-!
# Users and their names

A request names a user, and the server takes the first user in iteration order whose name contains
the text (REGISTER, LOGIN) or is contained in it (FOLLOW, BLOCK). What a request is meant to do
concerns the user with **exactly** that name, of whom there is one at most (`Server.Named.unique`).

* LOGIN authenticates the named user exactly when the search finds him, or finds somebody and
  neither of the two may log in (`login_named_iff`).
* REGISTER takes the free names exactly as long as a name is taken or no part of a registered one
  (`register_free_iff`).
* FOLLOW and BLOCK act on the named user exactly when the searches find him and the requester, or
  whoever they find is refused as they would be (`named_action_iff`).
-/

namespace SplNet

open Java

/-- A registered user has exactly this name. -/
def Server.Named (s : Server) (username : JString) (r : UserRef) : Prop :=
  s.Registered r ∧ (s.user r).username = username

/-- **There is one user of a name.** -/
theorem Server.Named.unique {s : Server} (hs : Coherent s) {username : JString} {r r' : UserRef}
    (h : s.Named username r) (h' : s.Named username r') : r = r' := by
  obtain ⟨⟨k, hk⟩, hname⟩ := h
  obtain ⟨⟨k', hk'⟩, hname'⟩ := h'
  have hkeys : k' = k := by
    rw [← hs.username_of_mem hk', ← hs.username_of_mem hk, hname', hname]
  exact s.usersMap.eq_of_mem hk (hkeys ▸ hk')

/-! ### LOGIN -/

/-- The frame of a LOGIN. -/
def loginFrame (username password captcha : JString) : JString :=
  str "02" ++ (username ++ nul :: (password ++ nul :: captcha))

/-- The password, the captcha and the flag let this user in. -/
def Credentials (s : Server) (password captcha : JString) (r : UserRef) : Prop :=
  (s.user r).password = password ∧ captcha = str "1" ∧ (s.user r).isActivated = false

/-- This user has a session on the connection now, and nobody else's session has changed. -/
structure OnlyActivates (connectionId : ℤ) (r : UserRef) (s s' : Server) : Prop where
  session : HasSession r connectionId s'
  others : ∀ r', r' ≠ r → (s'.user r').isActivated = (s.user r').isActivated ∧
    (s'.user r').connId = (s.user r').connId

/-- **LOGIN authenticates the named user**: it is acknowledged exactly when a user of that name may
log in, and then it is he who is logged in. -/
structure AuthenticatesNamed (env : Surroundings) (connectionId : ℤ) (s : Server)
    (username password captcha : JString) : Prop where
  acknowledged_iff :
    (connectionId, str "1002") ∈
        (process env connectionId s (loginFrame username password captcha)).sent ↔
      ∃ r, s.Named username r ∧ Credentials s password captcha r
  activated : ∀ r, s.Named username r → Credentials s password captcha r →
    OnlyActivates connectionId r s
      (process env connectionId s (loginFrame username password captcha)).server

section Login

variable {env : Surroundings} {connectionId : ℤ} {s : Server}
  {username password captcha : JString}

/-- Whoever is named is found, or somebody before him. -/
theorem exists_findContaining (env : Surroundings) {r : UserRef} (h : s.Named username r) :
    ∃ r', env.findContaining s username = some r' := by
  rcases hfind : env.findContaining s username with - | r'
  · have hnone := List.find?_eq_none.1 hfind r (Surroundings.mem_users.2 h.1)
    rw [h.2] at hnone
    exact absurd (contains_self username) hnone
  · exact ⟨r', rfl⟩

theorem loginAccepts_iff (hu : nul ∉ username) (hp : nul ∉ password) (hc : nul ∉ captcha)
    (hne : captcha ≠ []) {typed : JString} {r : UserRef} :
    LoginAccepts env s (username ++ nul :: (password ++ nul :: captcha)) typed r ↔
      typed = username ∧ env.findContaining s username = some r ∧
        Credentials s password captcha r := by
  have hargs := split_three hu hp hc hne
  constructor
  · rintro ⟨⟨rest, hsplit⟩, hfound, hinactive⟩
    rw [hargs] at hsplit
    injection hsplit with htyped hsplit
    injection hsplit with hpassword hsplit
    injection hsplit with hcaptcha
    subst htyped
    exact ⟨rfl, hfound, hpassword.symm, hcaptcha, hinactive⟩
  · rintro ⟨rfl, hfound, rfl, rfl, hinactive⟩
    exact ⟨⟨[], hargs⟩, hfound, hinactive⟩

/-- A LOGIN is acknowledged when the user it finds may log in. -/
theorem login_acknowledged_iff (env : Surroundings) (hs : Coherent s)
    (hconn : connectionId ∈ s.connectionsMap)
    (hu : nul ∉ username) (hp : nul ∉ password) (hc : nul ∉ captcha) (hne : captcha ≠ []) :
    (connectionId, str "1002") ∈
        (process env connectionId s (loginFrame username password captcha)).sent ↔
      ∃ r, env.findContaining s username = some r ∧ Credentials s password captcha r := by
  rw [loginFrame, process_02]
  constructor
  · intro hsent
    by_contra hnone
    have hrefusal : Refusal connectionId s (str "02") (processLogin env connectionId s _) :=
      processLogin_refusal fun typed r haccepts ↦
        hnone ⟨r, ((loginAccepts_iff hu hp hc hne).1 haccepts).2⟩
    rcases hrefusal.sent_eq with hanswer | hanswer
    · rw [hanswer] at hsent
      exact absurd (Server.mem_delivery.1 hsent).2.1 (by decide)
    · rw [hanswer] at hsent
      exact List.not_mem_nil hsent
  · rintro ⟨r, hfound, hcredentials⟩
    have haccepts := (loginAccepts_iff hu hp hc hne).2 ⟨rfl, hfound, hcredentials⟩
    rw [processLogin_of_accepts haccepts fun _ hpost ↦ hs.blank_mem hpost]
    exact List.mem_append_left _ (Server.mem_delivery.2 ⟨rfl, rfl, hconn⟩)

/-- An accepted LOGIN logs in the user it finds. -/
theorem login_server (hu : nul ∉ username) (hp : nul ∉ password) (hc : nul ∉ captcha)
    (hne : captcha ≠ []) {r : UserRef} (hfound : env.findContaining s username = some r)
    (hcredentials : Credentials s password captcha r) :
    (process env connectionId s (loginFrame username password captcha)).server =
      startSession connectionId s username r := by
  rw [loginFrame, process_02]
  exact processLogin_server_of_accepts
    ((loginAccepts_iff hu hp hc hne).2 ⟨rfl, hfound, hcredentials⟩)

theorem onlyActivates_startSession (r : UserRef) :
    OnlyActivates connectionId r s (startSession connectionId s username r) := by
  refine ⟨⟨?_, ?_⟩, fun r' hne ↦ ?_⟩
  · rw [startSession_user, if_pos rfl]
    rfl
  · rw [startSession_user, if_pos rfl]
    rfl
  · rw [startSession_user, if_neg hne]
    exact ⟨rfl, rfl⟩

/-- **LOGIN authenticates the named user** exactly when the first user in iteration order whose name
contains the typed one is the named user, or may not log in and neither may the named one. -/
theorem login_named_iff {mode : ServerMode} (hs : (serverMachine mode).Reachable s)
    (hconn : connectionId ∈ s.connectionsMap) (hu : nul ∉ username) (hp : nul ∉ password)
    (hc : nul ∉ captcha) (hne : captcha ≠ []) :
    AuthenticatesNamed env connectionId s username password captcha ↔
      ∀ r, env.findContaining s username = some r → (s.user r).username = username ∨
        ¬ Credentials s password captcha r ∧
          ∀ r', s.Named username r' → ¬ Credentials s password captcha r' := by
  have hcoherent := coherent_of_reachable hs
  have hack := login_acknowledged_iff env hcoherent hconn hu hp hc hne
  constructor
  · intro h r hfound
    refine or_iff_not_imp_left.2 fun hname ↦ ?_
    have hnot : ¬ Credentials s password captcha r := by
      intro hcredentials
      obtain ⟨r', hnamed, hcredentials'⟩ := h.acknowledged_iff.1 (hack.2 ⟨r, hfound, hcredentials⟩)
      -- the named user is another one, who has no session afterwards
      have hsession := (h.activated r' hnamed hcredentials').session.1
      have hother : r' ≠ r := by
        rintro rfl
        exact hname hnamed.2
      rw [login_server hu hp hc hne hfound hcredentials, startSession_user, if_neg hother]
        at hsession
      exact absurd (hcredentials'.2.2.symm.trans hsession) Bool.false_ne_true
    refine ⟨hnot, fun r' hnamed hcredentials' ↦ ?_⟩
    obtain ⟨r'', hfound', hcredentials⟩ := hack.1 (h.acknowledged_iff.2 ⟨r', hnamed, hcredentials'⟩)
    obtain rfl := Option.some.inj (hfound.symm.trans hfound')
    exact hnot hcredentials
  · intro h
    -- whoever may log in under the name is the one who is found
    have hfound : ∀ r, s.Named username r → Credentials s password captcha r →
        env.findContaining s username = some r := by
      intro r hnamed hcredentials
      obtain ⟨r', hfound⟩ := exists_findContaining env hnamed
      rcases h r' hfound with hname | ⟨-, hnone⟩
      · have hreg := (Surroundings.findContaining_eq_some hfound).1
        exact hnamed.unique hcoherent ⟨hreg, hname⟩ ▸ hfound
      · exact absurd hcredentials (hnone r hnamed)
    refine ⟨hack.trans ⟨?_, ?_⟩, fun r hnamed hcredentials ↦ ?_⟩
    · rintro ⟨r, hfind, hcredentials⟩
      rcases h r hfind with hname | ⟨hnot, -⟩
      · exact ⟨r, ⟨(Surroundings.findContaining_eq_some hfind).1, hname⟩, hcredentials⟩
      · exact absurd hcredentials hnot
    · rintro ⟨r, hnamed, hcredentials⟩
      exact ⟨r, hfound r hnamed hcredentials, hcredentials⟩
    · rw [login_server hu hp hc hne (hfound r hnamed hcredentials) hcredentials]
      exact onlyActivates_startSession r

end Login

/-- Alice is registered, with the password `a`. -/
def aliceRegistered : Server :=
  (serverMachine .threadPerClient).stateAfter
    [.accept, .frame 0 "01alice\x00a\x0001-01-1990\x00"]

theorem aliceRegistered_reachable : (serverMachine .threadPerClient).Reachable aliceRegistered :=
  ⟨_, rfl⟩

/-- Alice is the only user. -/
theorem eq_alice {r : UserRef} (h : aliceRegistered.Registered r) : r = 0 := by
  have husers : ∀ r, aliceRegistered.Registered r → r = 0 := by decide
  exact husers r h

/-- Alice logs in. -/
theorem login_named_iff_alice :
    AuthenticatesNamed .listed 0 aliceRegistered (str "alice") (str "a") (str "1") := by
  refine (login_named_iff aliceRegistered_reachable (by decide) (by decide) (by decide)
    (by decide) (by decide)).2 fun r hfound ↦ Or.inl ?_
  have hfind : Surroundings.listed.findContaining aliceRegistered (str "alice") = some 0 := by
    decide
  obtain rfl := Option.some.inj (hfind.symm.trans hfound)
  decide

/-- **Somebody logs in as Alice under the name `ali`**, which nobody has. -/
theorem login_as_another :
    (serverMachine .threadPerClient).Reachable aliceRegistered ∧
      ¬ AuthenticatesNamed .listed 0 aliceRegistered (str "ali") (str "a") (str "1") := by
  refine ⟨⟨_, rfl⟩, fun h ↦ ?_⟩
  obtain ⟨r, ⟨hreg, hname⟩, -⟩ := h.acknowledged_iff.1 (by decide)
  exact absurd (eq_alice hreg ▸ hname) (by decide)

/-! ### REGISTER -/

/-- The frame of a REGISTER. -/
def registerFrame (username password birthday : JString) : JString :=
  str "01" ++ (username ++ nul :: (password ++ nul :: (birthday ++ [nul])))

/-- One user is added, with these data, inactive and with empty lists. -/
def AddsUser (username password birthday : JString) (s s' : Server) : Prop :=
  ∃ r, ¬ s.Registered r ∧ s'.user r = User.new username password birthday ∧
    (∀ k r', (k, r') ∈ s'.usersMap.entries ↔
      k = username ∧ r' = r ∨ (k, r') ∈ s.usersMap.entries) ∧
    ∀ r', r' ≠ r → s'.user r' = s.user r'

/-- **REGISTER accepts exactly the free names.** -/
structure AcceptsFreeName (env : Surroundings) (connectionId : ℤ) (s : Server)
    (username password birthday : JString) : Prop where
  free : (∀ r, ¬ s.Named username r) →
    (process env connectionId s (registerFrame username password birthday)).sent =
        [(connectionId, str "1001")] ∧
      AddsUser username password birthday s
        (process env connectionId s (registerFrame username password birthday)).server
  taken : (∃ r, s.Named username r) →
    (process env connectionId s (registerFrame username password birthday)).sent =
      [(connectionId, str "1101")]

section Register

variable {env : Surroundings} {connectionId : ℤ} {s : Server}
  {username password birthday : JString}

theorem registerAccepts_iff (hu : nul ∉ username) (hp : nul ∉ password) (hb : nul ∉ birthday)
    (hne : birthday ≠ []) {u p b : JString} :
    RegisterAccepts s (username ++ nul :: (password ++ nul :: (birthday ++ [nul]))) u p b ↔
      (u = username ∧ p = password ∧ b = birthday) ∧
        ∀ r, s.Registered r → contains (s.user r).username username = false := by
  have hargs := split_three_terminated hu hp hb hne
  constructor
  · rintro ⟨⟨rest, hsplit⟩, hfree⟩
    rw [hargs] at hsplit
    injection hsplit with hu' hsplit
    injection hsplit with hp' hsplit
    injection hsplit with hb'
    exact ⟨⟨hu'.symm, hp'.symm, hb'.symm⟩, hu' ▸ hfree⟩
  · rintro ⟨⟨rfl, rfl, rfl⟩, hfree⟩
    exact ⟨⟨[], hargs⟩, hfree⟩

/-- A REGISTER whose name is no part of a registered name adds its user. -/
theorem register_of_free (hs : Coherent s) (hconn : connectionId ∈ s.connectionsMap)
    (hu : nul ∉ username) (hp : nul ∉ password) (hb : nul ∉ birthday) (hne : birthday ≠ [])
    (hfree : ∀ r, s.Registered r → contains (s.user r).username username = false) :
    (process env connectionId s (registerFrame username password birthday)).sent =
        [(connectionId, str "1001")] ∧
      AddsUser username password birthday s
        (process env connectionId s (registerFrame username password birthday)).server := by
  have haccepts := (registerAccepts_iff (s := s) hu hp hb hne).2 ⟨⟨rfl, rfl, rfl⟩, hfree⟩
  rw [registerFrame, process_01, processRegister_of_accepts haccepts,
    Server.delivery_of_mem hconn]
  refine ⟨rfl, s.nextUser, fun hreg ↦ ?_, if_pos rfl, fun k r' ↦ haccepts.mem_usersMap hs _,
    fun r' hne ↦ if_neg hne⟩
  exact absurd (hs.registered_lt hreg) (Nat.lt_irrefl _)

/-- A REGISTER whose name is a part of a registered name is refused. -/
theorem register_of_taken (hconn : connectionId ∈ s.connectionsMap) (hu : nul ∉ username)
    (hp : nul ∉ password) (hb : nul ∉ birthday) (hne : birthday ≠ []) {r : UserRef}
    (hreg : s.Registered r) (hpart : contains (s.user r).username username = true) :
    (process env connectionId s (registerFrame username password birthday)).sent =
      [(connectionId, str "1101")] := by
  have hargs := split_three_terminated hu hp hb hne
  have hany : ((env.users s).any fun r ↦ contains (s.user r).username username) = true :=
    List.any_eq_true.2 ⟨r, Surroundings.mem_users.2 hreg, hpart⟩
  rw [registerFrame, process_01]
  simp only [processRegister, hargs, hany, if_true,
    (show Sendable (str "1101") by decide).send_of_mem hconn]

/-- **REGISTER accepts exactly the free names** as long as the name is taken, or no part of a
registered name. -/
theorem register_free_iff {mode : ServerMode} (hs : (serverMachine mode).Reachable s)
    (hconn : connectionId ∈ s.connectionsMap) (hu : nul ∉ username) (hp : nul ∉ password)
    (hb : nul ∉ birthday) (hne : birthday ≠ []) :
    AcceptsFreeName env connectionId s username password birthday ↔
      (∃ r, s.Named username r) ∨
        ∀ r, s.Registered r → contains (s.user r).username username = false := by
  constructor
  · intro h
    refine or_iff_not_imp_left.2 fun hnone r hreg ↦ ?_
    by_contra hpart
    rw [Bool.not_eq_false] at hpart
    have hsent := (h.free fun r hr ↦ hnone ⟨r, hr⟩).1
    rw [register_of_taken hconn hu hp hb hne hreg hpart] at hsent
    exact absurd hsent (by simp [str, char])
  · intro h
    refine ⟨fun hnone ↦ ?_, fun htaken ↦ ?_⟩
    · have hfree := h.resolve_left fun ⟨r, hr⟩ ↦ hnone r hr
      exact register_of_free (coherent_of_reachable hs) hconn hu hp hb hne hfree
    · obtain ⟨r, hreg, rfl⟩ := htaken
      exact register_of_taken hconn hu hp hb hne hreg (contains_self _)

end Register

/-- Bob registers beside Alice. -/
theorem register_free_iff_bob :
    AcceptsFreeName .listed 0 aliceRegistered (str "bob") (str "b") (str "02-02-1990") := by
  refine (register_free_iff aliceRegistered_reachable (by decide) (by decide) (by decide)
    (by decide) (by decide)).2 (Or.inr fun r hreg ↦ ?_)
  rw [eq_alice hreg]
  decide

/-- **The free name `ali` is refused**, since Alice is registered. -/
theorem free_name_refused :
    (serverMachine .threadPerClient).Reachable aliceRegistered ∧
      ¬ AcceptsFreeName .listed 0 aliceRegistered (str "ali") (str "b") (str "02-02-1990") := by
  refine ⟨⟨_, rfl⟩, fun h ↦ ?_⟩
  have hnone : ∀ r, ¬ aliceRegistered.Named (str "ali") r := by
    rintro r ⟨hreg, hname⟩
    exact absurd (eq_alice hreg ▸ hname) (by decide)
  exact absurd (h.free hnone).1 (by decide)

/-! ### FOLLOW and BLOCK -/

/-- What one user does to another. -/
inductive GraphAction
  | follow
  | unfollow
  | block
deriving DecidableEq

namespace GraphAction

/-- The frame that names the other user. -/
def frame (username : JString) : GraphAction → JString
  | follow => str "04" ++ (char '0' :: (username ++ [nul]))
  | unfollow => str "04" ++ (char '1' :: (username ++ [nul]))
  | block => str "12" ++ (username ++ [nul])

/-- `my` may do it to `other`. -/
def Permits (s : Server) (my other : UserRef) : GraphAction → Prop
  | follow => other ∉ (s.user my).followers ∧ my ∉ (s.user other).blockingUsers
  | unfollow => other ∈ (s.user my).followers
  | block => other ∉ (s.user my).blockingUsers

/-- `my` does it to `other`. -/
def carryOut (s : Server) (my other : UserRef) : GraphAction → Server
  | follow => addFollow s my other
  | unfollow => dropFollow s my other
  | block => blockUser s my other

/-- The acknowledgement. -/
def ack (username : JString) : GraphAction → JString
  | follow => str "100400" ++ (username ++ [nul]) ++ [nul]
  | unfollow => str "100401" ++ (username ++ [nul]) ++ [nul]
  | block => str "1012"

/-- The error answer. -/
def refusal : GraphAction → JString
  | follow => str "1104"
  | unfollow => str "1104"
  | block => str "1112"

/-- The request is answered: a FOLLOW that finds a target is silent unless the search for the active
user finds one who is activated. -/
def Answered (env : Surroundings) (connectionId : ℤ) (s : Server) (username : JString)
    (a : GraphAction) : Prop :=
  a = block ∨ env.findContained s (username ++ [nul]) = none ∨
    ∃ my, env.findActive s connectionId = some my ∧ (s.user my).isActivated = true

theorem ack_ne_refusal (username : JString) (a : GraphAction) : a.ack username ≠ a.refusal := by
  intro h
  have hhead := congrArg (fun m : JString ↦ m.tail.head?) h
  have hne : some (char '0') ≠ some (char '1') := by decide
  cases a <;> exact hne hhead

/-- Two users do it to each other in one way only. -/
theorem carryOut_inj {s : Server} {my my' other other' : UserRef} {a : GraphAction}
    (h : a.Permits s my other) (h' : a.Permits s my' other')
    (heq : a.carryOut s my other = a.carryOut s my' other') : my = my' ∧ other = other' := by
  cases a with
  | follow =>
    have hlist := congrArg (fun s : Server ↦ (s.user my).followers) heq
    simp only [carryOut, addFollow_followers, if_true] at hlist
    by_cases hmy : my = my'
    · rw [if_pos hmy, hmy] at hlist
      exact ⟨hmy, by simpa using hlist⟩
    · rw [if_neg hmy] at hlist
      exact absurd hlist (by simp)
  | unfollow =>
    have hlist := congrArg (fun s : Server ↦ (s.user my).followers) heq
    simp only [carryOut, dropFollow_followers, if_true] at hlist
    have hmem : other ∈ (s.user my).followers := h
    by_cases hmy : my = my'
    · rw [if_pos hmy, ← hmy] at hlist
      refine ⟨hmy, ?_⟩
      by_contra hne
      have hcount := congrArg (List.count other) hlist
      rw [List.count_erase_self, List.count_erase_of_ne hne] at hcount
      have := List.count_pos_iff.2 hmem
      omega
    · rw [if_neg hmy] at hlist
      have hlen := congrArg List.length hlist
      rw [List.length_erase_of_mem hmem] at hlen
      have := List.length_pos_of_mem hmem
      omega
  | block =>
    have hlist := congrArg (fun s : Server ↦ (s.user my).blockingUsers) heq
    simp only [carryOut, blockUser_blockingUsers, if_true] at hlist
    by_cases hmy : my = my'
    · rw [if_pos hmy, hmy] at hlist
      exact ⟨hmy, by simpa using hlist⟩
    · rw [if_neg hmy] at hlist
      exact absurd hlist (by simp)

/-- The followed users of `r` afterwards. -/
def followersAfter (s : Server) (my other r : UserRef) : GraphAction → List UserRef
  | follow => if r = my then (s.user my).followers ++ [other] else (s.user r).followers
  | unfollow => if r = my then (s.user my).followers.erase other else (s.user r).followers
  | block =>
    -- both lose each other, and whoever blocks himself loses himself twice
    if r = other then
      (if other = my then (s.user my).followers.erase other
        else (s.user other).followers).erase my
    else if r = my then (s.user my).followers.erase other
    else (s.user r).followers

/-- The users `r` has blocked afterwards. -/
def blockingUsersAfter (s : Server) (my other r : UserRef) : GraphAction → List UserRef
  | block => if r = my then (s.user my).blockingUsers ++ [other] else (s.user r).blockingUsers
  | _ => (s.user r).blockingUsers

/-- The counter of `r` afterwards. -/
def followingAfter (s : Server) (my r : UserRef) : GraphAction → Int16
  | follow => if r = my then (s.user my).following + 1 else (s.user r).following
  | unfollow => if r = my then (s.user my).following - 1 else (s.user r).following
  | block => (s.user r).following

/-- **What an action changes**: these two lists and the counter, and nothing else of the store. -/
theorem carryOut_eq (s : Server) (my other : UserRef) (a : GraphAction) :
    a.carryOut s my other =
      { s with
        user := fun r ↦
          { s.user r with
            followers := a.followersAfter s my other r
            blockingUsers := a.blockingUsersAfter s my other r
            following := a.followingAfter s my r } } := by
  cases a with
  | follow =>
    refine congrArg (fun user ↦ { s with user }) (funext fun r ↦ ?_)
    by_cases hr : r = my
    · simp [followersAfter, blockingUsersAfter, followingAfter, hr, User.addFollower,
        User.incrementFollowing]
    · simp [followersAfter, blockingUsersAfter, followingAfter, hr]
  | unfollow =>
    refine congrArg (fun user ↦ { s with user }) (funext fun r ↦ ?_)
    by_cases hr : r = my
    · simp [followersAfter, blockingUsersAfter, followingAfter, hr, User.removeFollower,
        User.decreaseFollowing]
    · simp [followersAfter, blockingUsersAfter, followingAfter, hr]
  | block =>
    rw [carryOut, blockUser_eq_user]
    refine congrArg (fun user ↦ { s with user }) (funext fun r ↦ ?_)
    rw [blockUser_eq_except, blockUser_followers, blockUser_blockingUsers]
    rfl

section Outcomes

variable {env : Surroundings} {connectionId : ℤ} {s : Server} {username : JString}
  {my other : UserRef} {a : GraphAction}

/-- A request whose users are found, and permitted, is carried out. -/
theorem process_of_permits (hconn : connectionId ∈ s.connectionsMap)
    (hmy : env.findActive s connectionId = some my)
    (hother : env.findContained s (username ++ [nul]) = some other)
    (hanswered : a.Answered env connectionId s username) (hpermits : a.Permits s my other) :
    (process env connectionId s (a.frame username)).sent = [(connectionId, a.ack username)] ∧
      (process env connectionId s (a.frame username)).server = a.carryOut s my other := by
  have hactive : a ≠ block → (s.user my).isActivated = true := by
    intro hne
    rcases hanswered with heq | hnone | ⟨my', hmy', hactive⟩
    · exact absurd heq hne
    · exact absurd (hother.symm.trans hnone) (Option.some_ne_none other)
    · exact Option.some.inj (hmy'.symm.trans hmy) ▸ hactive
  cases a with
  | follow =>
    have haccepts : FollowAccepts env connectionId s (char '0' :: (username ++ [nul]))
        (username ++ [nul]) my other :=
      ⟨⟨rfl, hother, hmy, hactive (by decide)⟩, hpermits.1, hpermits.2⟩
    rw [frame, process_04, processFollow_of_accepts haccepts, Server.delivery_of_mem hconn]
    exact ⟨rfl, rfl⟩
  | unfollow =>
    have haccepts : UnfollowAccepts env connectionId s (char '1' :: (username ++ [nul]))
        (username ++ [nul]) my other :=
      ⟨⟨rfl, hother, hmy, hactive (by decide)⟩, hpermits⟩
    rw [frame, process_04, processFollow_of_unfollow haccepts, Server.delivery_of_mem hconn]
    exact ⟨rfl, rfl⟩
  | block =>
    have haccepts : BlockAccepts env connectionId s (username ++ [nul]) my other :=
      ⟨by simp, hmy, hother, hpermits⟩
    rw [frame, process_12, processBlock_of_accepts haccepts, Server.delivery_of_mem hconn]
    exact ⟨rfl, rfl⟩

/-- A refused FOLLOW is answered when a session is found, or no target. -/
theorem processFollow_of_not {action : JChar} {text : JString}
    (hconn : connectionId ∈ s.connectionsMap)
    (hanswered : env.findContained s text = none ∨
      ∃ my, env.findActive s connectionId = some my ∧ (s.user my).isActivated = true)
    (hnot : ∀ my other, env.findActive s connectionId = some my →
      env.findContained s text = some other →
        ¬ (action = char '0' ∧ other ∉ (s.user my).followers ∧ my ∉ (s.user other).blockingUsers) ∧
          ¬ (action = char '1' ∧ other ∈ (s.user my).followers)) :
    processFollow env connectionId s (action :: text) =
      ⟨s, [(connectionId, str "1104")], none⟩ := by
  have hsend : s.send connectionId (str "1104") = ⟨s, [(connectionId, str "1104")], none⟩ :=
    (show Sendable (str "1104") by decide).send_of_mem hconn
  rcases hother : env.findContained s text with - | other
  · simp only [processFollow, hother, hsend]
  · rcases hanswered with hnone | ⟨my, hmy, hactive⟩
    · exact absurd (hother.symm.trans hnone) (Option.some_ne_none other)
    · obtain ⟨hfollow, hunfollow⟩ := hnot my other hmy hother
      simp only [processFollow, hother, hmy, hactive, if_true, if_neg hfollow, if_neg hunfollow,
        hsend]

/-- A request that is answered but not permitted is refused. -/
theorem process_of_not_permits (hconn : connectionId ∈ s.connectionsMap)
    (hanswered : a.Answered env connectionId s username)
    (hnot : ∀ my other, env.findActive s connectionId = some my →
      env.findContained s (username ++ [nul]) = some other → ¬ a.Permits s my other) :
    (process env connectionId s (a.frame username)).sent = [(connectionId, a.refusal)] ∧
      (process env connectionId s (a.frame username)).server = s := by
  cases a with
  | follow =>
    rw [frame, process_04, processFollow_of_not hconn (hanswered.resolve_left (by decide))
      fun my other hmy hother ↦ ⟨fun h ↦ hnot my other hmy hother h.2, fun h ↦ ?_⟩]
    · exact ⟨rfl, rfl⟩
    · exact absurd h.1 (by decide)
  | unfollow =>
    rw [frame, process_04, processFollow_of_not hconn (hanswered.resolve_left (by decide))
      fun my other hmy hother ↦ ⟨fun h ↦ ?_, fun h ↦ hnot my other hmy hother h.2⟩]
    · exact ⟨rfl, rfl⟩
    · exact absurd h.1 (by decide)
  | block =>
    have hsend : s.send connectionId (str "1112") = ⟨s, [(connectionId, str "1112")], none⟩ :=
      (show Sendable (str "1112") by decide).send_of_mem hconn
    rw [frame, process_12, processBlock]
    split
    case h_1 my other hmy hother =>
      have hblocked : ¬ other ∉ (s.user my).blockingUsers := hnot my other hmy hother
      rw [if_neg hblocked, hsend]
      exact ⟨rfl, rfl⟩
    case h_2 =>
      rw [hsend]
      exact ⟨rfl, rfl⟩

/-- A request that is not answered sends nothing. -/
theorem process_of_not_answered (hnot : ¬ a.Answered env connectionId s username) :
    (process env connectionId s (a.frame username)).sent = [] := by
  rw [Answered, not_or, not_or] at hnot
  obtain ⟨hne, hother, hmy⟩ := hnot
  obtain ⟨other, hother⟩ := Option.ne_none_iff_exists'.1 hother
  have hsilent : ∀ action, FollowSilent env connectionId s (action :: (username ++ [nul])) := by
    refine fun action ↦ ⟨action, _, other, rfl, hother, fun my hfind ↦ ?_⟩
    rw [← Bool.not_eq_true]
    exact fun hactive ↦ hmy ⟨my, hfind, hactive⟩
  cases a with
  | follow =>
    rw [frame, process_04, processFollow_of_silent (hsilent _)]
    rfl
  | unfollow =>
    rw [frame, process_04, processFollow_of_silent (hsilent _)]
    rfl
  | block => exact absurd rfl hne

end Outcomes

end GraphAction

/-- **The request acts on the named user**: it is acknowledged and carried out if `my` may do it to
the user of this name, and refused without any change otherwise. -/
structure ActsOnNamed (env : Surroundings) (connectionId : ℤ) (s : Server) (my : UserRef)
    (username : JString) (a : GraphAction) : Prop where
  permitted : ∀ other, s.Named username other → a.Permits s my other →
    (process env connectionId s (a.frame username)).sent = [(connectionId, a.ack username)] ∧
      (process env connectionId s (a.frame username)).server = a.carryOut s my other
  refused : (∀ other, s.Named username other → ¬ a.Permits s my other) →
    (process env connectionId s (a.frame username)).sent = [(connectionId, a.refusal)] ∧
      (process env connectionId s (a.frame username)).server = s

/-- The searches find the requester and the named user, or others who are refused as these two would
be. -/
structure FindsNamed (env : Surroundings) (connectionId : ℤ) (s : Server) (my : UserRef)
    (username : JString) (a : GraphAction) : Prop where
  answered : a.Answered env connectionId s username
  permitted : ∀ x other, env.findActive s connectionId = some x →
    env.findContained s (username ++ [nul]) = some other → a.Permits s x other →
      x = my ∧ (s.user other).username = username
  refused : (∀ x other, env.findActive s connectionId = some x →
      env.findContained s (username ++ [nul]) = some other → ¬ a.Permits s x other) →
    ∀ other, s.Named username other → ¬ a.Permits s my other

/-- **FOLLOW and BLOCK act on the named user** exactly when the searches find him and the requester,
or whoever they find is refused as they would be. -/
theorem named_action_iff {mode : ServerMode} {s : Server} (hs : (serverMachine mode).Reachable s)
    {connectionId : ℤ} {my : UserRef} (hmy : HasSession my connectionId s) (env : Surroundings)
    (username : JString) (a : GraphAction) :
    ActsOnNamed env connectionId s my username a ↔ FindsNamed env connectionId s my username a := by
  have hcoherent := coherent_of_reachable hs
  have hconn := hmy.mem_connectionsMap hcoherent
  -- the two answers differ
  have hne : [(connectionId, a.ack username)] ≠ [(connectionId, a.refusal)] :=
    fun h ↦ a.ack_ne_refusal username (by simpa using h)
  constructor
  · intro h
    have hanswered : a.Answered env connectionId s username := by
      by_contra hnot
      have hsent := GraphAction.process_of_not_answered hnot
      by_cases hpermits : ∃ other, s.Named username other ∧ a.Permits s my other
      · obtain ⟨other, hnamed, hpermits⟩ := hpermits
        exact absurd (hsent.symm.trans (h.permitted other hnamed hpermits).1) (by simp)
      · have hrefused := h.refused fun other hnamed hp ↦ hpermits ⟨other, hnamed, hp⟩
        exact absurd (hsent.symm.trans hrefused.1) (by simp)
    refine ⟨hanswered, fun x other hx hother hpermits ↦ ?_, fun hnot other hnamed hpermits ↦ ?_⟩
    · obtain ⟨hsent, hserver⟩ := GraphAction.process_of_permits hconn hx hother hanswered hpermits
      by_cases hnamed : ∃ other', s.Named username other' ∧ a.Permits s my other'
      · obtain ⟨other', hnamed, hpermits'⟩ := hnamed
        have heq := hserver.symm.trans (h.permitted other' hnamed hpermits').2
        obtain ⟨rfl, rfl⟩ := GraphAction.carryOut_inj hpermits hpermits' heq
        exact ⟨rfl, hnamed.2⟩
      · have hrefused := h.refused fun other' hnamed' hp ↦ hnamed ⟨other', hnamed', hp⟩
        exact absurd (hsent.symm.trans hrefused.1) hne
    · have hrefused := GraphAction.process_of_not_permits hconn hanswered hnot
      exact hne ((h.permitted other hnamed hpermits).1.symm.trans hrefused.1)
  · intro h
    by_cases hfound : ∃ x other, env.findActive s connectionId = some x ∧
        env.findContained s (username ++ [nul]) = some other ∧ a.Permits s x other
    · obtain ⟨x, other, hx, hother, hpermits⟩ := hfound
      obtain ⟨rfl, hname⟩ := h.permitted x other hx hother hpermits
      have hnamed : s.Named username other := ⟨(Surroundings.findContained_eq_some hother).1, hname⟩
      refine ⟨fun other' hnamed' _ ↦ ?_, fun hnone ↦ absurd hpermits (hnone other hnamed)⟩
      exact hnamed.unique hcoherent hnamed' ▸
        GraphAction.process_of_permits hconn hx hother h.answered hpermits
    · have hnot : ∀ x other, env.findActive s connectionId = some x →
          env.findContained s (username ++ [nul]) = some other → ¬ a.Permits s x other :=
        fun x other hx hother hpermits ↦ hfound ⟨x, other, hx, hother, hpermits⟩
      refine ⟨fun other hnamed hpermits ↦ absurd hpermits (h.refused hnot other hnamed), fun _ ↦ ?_⟩
      exact GraphAction.process_of_not_permits hconn h.answered hnot

/-- Alice and Bob are registered, and Bob is logged in on the connection 0. -/
def bobLoggedIn : Server :=
  (serverMachine .threadPerClient).stateAfter
    [.accept, .frame 0 "01alice\x00a\x0001-01-1990\x00",
      .frame 0 "01bob\x00b\x0002-02-1990\x00", .frame 0 "02bob\x00b\x001"]

theorem bobLoggedIn_reachable : (serverMachine .threadPerClient).Reachable bobLoggedIn := ⟨_, rfl⟩

/-- Bob follows Alice. -/
theorem named_action_iff_alice :
    ActsOnNamed .listed 0 bobLoggedIn 1 (str "alice") .follow := by
  have hmy : Surroundings.listed.findActive bobLoggedIn 0 = some 1 := by decide
  have hother : Surroundings.listed.findContained bobLoggedIn (str "alice" ++ [nul]) = some 0 := by
    decide
  refine (named_action_iff bobLoggedIn_reachable ⟨by decide, by decide⟩ _ _ _).2
    ⟨Or.inr (Or.inr ⟨1, hmy, by decide⟩), fun x other hx hfound _ ↦ ?_, fun hnot ↦ ?_⟩
  · obtain rfl := Option.some.inj (hmy.symm.trans hx)
    obtain rfl := Option.some.inj (hother.symm.trans hfound)
    exact ⟨rfl, by decide⟩
  · exact absurd ⟨by decide, by decide⟩ (hnot 1 0 hmy hother)

/-- **Bob follows, and blocks, Alice under the name `alicex`**, which nobody has. -/
theorem acts_on_another :
    (serverMachine .threadPerClient).Reachable bobLoggedIn ∧ HasSession 1 0 bobLoggedIn ∧
      ¬ ActsOnNamed .listed 0 bobLoggedIn 1 (str "alicex") .follow ∧
      ¬ ActsOnNamed .listed 0 bobLoggedIn 1 (str "alicex") .block := by
  have hnone : ∀ r, ¬ bobLoggedIn.Named (str "alicex") r := by
    rintro r ⟨hreg, hname⟩
    have husers : ∀ r, bobLoggedIn.Registered r →
        (bobLoggedIn.user r).username ≠ str "alicex" := by decide
    exact husers r hreg hname
  refine ⟨⟨_, rfl⟩, ⟨by decide, by decide⟩, fun h ↦ ?_, fun h ↦ ?_⟩
  · exact absurd (h.refused fun r hnamed ↦ absurd hnamed (hnone r)).1 (by decide)
  · exact absurd (h.refused fun r hnamed ↦ absurd hnamed (hnone r)).1 (by decide)

end SplNet
