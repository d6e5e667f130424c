import SplNet.Srv.StoreInvariant

/-!
# Sessions

A session is recorded twice: in the active map and in the flag and the connection of its user. Two
laws are stated for all states of a run, together with the exact condition under which a run obeys
them.

* `SessionTable`: the active map holds exactly the activated users, each under its own name. LOGOUT
  clears the flag but removes nothing from the map, and LOGIN stores the user under the **typed**
  name, so a run obeys the law exactly when it has no successful LOGOUT and every successful LOGIN
  types the full name (`session_table_iff`).
* `OneUserPerConnection`: activated users sit on different connections, and the search for the user
  of a connection finds that user in every iteration order. LOGIN never looks at the connection, so
  a run obeys the law exactly when every successful LOGIN happens on a connection that no other
  entry of the active map names, and overwrites nobody's only entry (`one_user_per_connection_iff`).
-/

namespace SplNet

open Java

variable {s s' : Server} {e : Event}

/-! ### The session table -/

/-- The active map holds exactly the activated users, each under its own name. -/
structure SessionTable (s : Server) : Prop where
  mem_iff : ∀ r, (∃ k, (k, r) ∈ s.activeUsersMap.entries) ↔
    s.Registered r ∧ (s.user r).isActivated = true
  own_name : ∀ k r, (k, r) ∈ s.activeUsersMap.entries → k = (s.user r).username

theorem sessionTable_init (mode : ServerMode) : SessionTable (Server.init mode) where
  mem_iff _ := ⟨fun ⟨_, h⟩ ↦ absurd h List.not_mem_nil, fun h ↦ absurd h.2 Bool.false_ne_true⟩
  own_name _ _ h := absurd h List.not_mem_nil

/-- The steps that respect the session table: no LOGOUT finds a user, and a LOGIN that is accepted
types the whole name. -/
structure RespectsTable (s : Server) (e : Event) : Prop where
  logout : ∀ env connectionId text, e = .request env connectionId (str "03" ++ text) →
    env.findActive s connectionId = none
  login : ∀ env connectionId text username r,
    e = .request env connectionId (str "02" ++ text) → connectionId ∈ s.connectionsMap →
      LoginAccepts env s text username r → username = (s.user r).username

/-- Without a change of sessions the table stays right: names do not change, and a new user is in no
session. -/
theorem SessionTable.of_same (ht : SessionTable s) (h : Effect s e s') (hs : Coherent s)
    (hsame : SameSessions s s') : SessionTable s' where
  mem_iff r := by
    rw [hsame.activeUsersMap, hsame.isActivated, ht.mem_iff]
    constructor
    · exact fun hr ↦ ⟨h.registered_mono hs hr.1, hr.2⟩
    · exact fun hr ↦ ⟨hs.activated_registered hr.2, hr.2⟩
  own_name k r hk := by
    rw [hsame.activeUsersMap] at hk
    rw [h.username_eq hs (hs.active_registered hk)]
    exact ht.own_name k r hk

/-- A LOGIN under the user's own name adds one entry and replaces none. -/
theorem SessionTable.login (ht : SessionTable s) (hs : Coherent s) {env : Surroundings}
    {connectionId : ℤ} {message : JString} {r : UserRef}
    (hlogin : LoginAccepts env s message (s.user r).username r) :
    SessionTable (startSession connectionId s (s.user r).username r) := by
  have hreg : s.Registered r := (Surroundings.findContaining_eq_some hlogin.found).1
  have hnew : ∀ k, (k, r) ∉ s.activeUsersMap.entries := by
    intro k hk
    have hactive := ((ht.mem_iff r).1 ⟨k, hk⟩).2
    rw [hlogin.inactive] at hactive
    exact absurd hactive Bool.false_ne_true
  -- whoever is stored under the name is registered under it, hence is the same user
  have hfree : ∀ v, ((s.user r).username, v) ∉ s.activeUsersMap.entries := by
    intro v hv
    obtain ⟨k, hk⟩ := hreg
    obtain ⟨k', hk'⟩ := hs.active_registered hv
    have hname : k' = k := by
      rw [← hs.username_of_mem hk', ← hs.username_of_mem hk, ht.own_name _ v hv]
    have hsame : v = r := s.usersMap.eq_of_mem (hname ▸ hk') hk
    exact hnew _ (hsame ▸ hv)
  have hmem : ∀ k v, (k, v) ∈
      (startSession connectionId s (s.user r).username r).activeUsersMap.entries ↔
        k = (s.user r).username ∧ v = r ∨ (k, v) ∈ s.activeUsersMap.entries := by
    intro k v
    refine ConcurrentMap.mem_put.trans (or_congr_right ⟨And.right, fun hv ↦ ⟨?_, hv⟩⟩)
    rintro rfl
    exact hfree v hv
  refine ⟨fun v ↦ ?_, fun k v hv ↦ ?_⟩
  · simp only [hmem, exists_or, exists_eq_left]
    rw [startSession_user]
    split
    case isTrue heq => exact iff_of_true (Or.inl heq) ⟨heq ▸ hreg, rfl⟩
    case isFalse hne => exact (or_iff_right hne).trans (ht.mem_iff v)
  · rw [startSession_eq_except]
    rcases (hmem k v).1 hv with ⟨rfl, rfl⟩ | hv
    · rfl
    · exact ht.own_name k v hv

/-- **The step lemma of the session table.** -/
theorem sessionTable_next_iff (mode : ServerMode) (hs : Coherent s) (ht : SessionTable s) :
    SessionTable ((serverMachine mode).next s e) ↔ RespectsTable s e := by
  constructor
  · refine fun hnext ↦ ⟨?_, ?_⟩
    · rintro env c text rfl
      rcases hfind : env.findActive s c with - | r
      · rfl
      · -- the user stays in the map but loses the flag
        obtain ⟨⟨k, hk⟩, -⟩ := Surroundings.findActive_eq_some hfind
        rw [next_logout mode (hs.mem_of_findActive hfind) hfind] at hnext
        have hactive := ((hnext.mem_iff r).1 ⟨k, hk⟩).2
        rw [Server.modifyUser_user, if_pos rfl] at hactive
        exact absurd hactive Bool.false_ne_true
    · rintro env c text username r rfl hmem hlogin
      rw [next_login mode hmem hlogin] at hnext
      have hname := hnext.own_name username r (ConcurrentMap.mem_put_self _ _ _)
      rw [startSession_eq_except] at hname
      exact hname
  · intro hkeeps
    have heffect := effect_next mode s e
    rcases heffect.sessions hs with hsame | ⟨env, c, m, username, r, rfl, hmem, hlogin, hs'⟩ |
      ⟨env, c, m, r, rfl, hfind, -⟩
    · exact ht.of_same heffect hs hsame
    · obtain rfl := hkeeps.login env c m username r rfl hmem hlogin
      rw [hs']
      exact ht.login hs hlogin
    · have hnone := hkeeps.logout env c m rfl
      rw [hfind] at hnone
      exact absurd hnone (Option.some_ne_none r)

/-- **The session table is right in all states of a run exactly when no LOGOUT of the run finds a
user and every LOGIN of the run that is accepted types the whole name.** -/
theorem session_table_iff (mode : ServerMode) (es : List Event) :
    (∀ pre, pre <+: es → SessionTable ((serverMachine mode).stateAfter pre)) ↔
      ∀ pre e, LabelledMachine.Occurs es pre e →
        RespectsTable ((serverMachine mode).stateAfter pre) e :=
  LabelledMachine.invariant_along_iff (sessionTable_init mode)
    (fun _ _ hreach ht ↦ sessionTable_next_iff mode (coherent_of_reachable hreach) ht) es

/-- Alice registers, logs in and logs out. -/
def loginLogout : List Event :=
  [.accept, .frame 0 "01alice\x00a\x0001-01-1990\x00", .frame 0 "02alice\x00a\x001", .frame 0 "03"]

/-- **A LOGOUT that was acknowledged leaves the user in the active map**, and a POST on the same
connection is still carried out in its name. -/
theorem logout_leaves_session :
    (0, str "1003") ∈ ((serverMachine .threadPerClient).output
        ((serverMachine .threadPerClient).stateAfter (loginLogout.take 3)) (.frame 0 "03")).sent ∧
      ¬ SessionTable ((serverMachine .threadPerClient).stateAfter loginLogout) ∧
      (0, str "1005") ∈ ((serverMachine .threadPerClient).output
        ((serverMachine .threadPerClient).stateAfter loginLogout) (.frame 0 "05hi\x00")).sent := by
  refine ⟨by decide, fun ht ↦ ?_, by decide⟩
  have hmem : (str "alice", 0) ∈
      ((serverMachine .threadPerClient).stateAfter loginLogout).activeUsersMap.entries := by decide
  have hinactive :
      (((serverMachine .threadPerClient).stateAfter loginLogout).user 0).isActivated = false := by
    decide
  have hactive := ((ht.mem_iff 0).1 ⟨_, hmem⟩).2
  rw [hinactive] at hactive
  exact absurd hactive Bool.false_ne_true

/-! ### One user per connection -/

/-- Activated users sit on different connections, and the search for the user of a connection gives
the same result in every iteration order: the activated user, when there is one. -/
structure OneUserPerConnection (s : Server) : Prop where
  unique : ∀ r r', (s.user r).isActivated = true → (s.user r').isActivated = true →
    (s.user r).connId = (s.user r').connId → r = r'
  search_eq : ∀ (env env' : Surroundings) connectionId,
    env.findActive s connectionId = env'.findActive s connectionId
  found : ∀ (env : Surroundings) r, (s.user r).isActivated = true →
    env.findActive s (s.user r).connId = some r

/-- In terms of the entries: one connection, one user; and every activated user has an entry. -/
theorem oneUserPerConnection_iff :
    OneUserPerConnection s ↔
      (∀ k v k' v', (k, v) ∈ s.activeUsersMap.entries → (k', v') ∈ s.activeUsersMap.entries →
          (s.user v).connId = (s.user v').connId → v = v') ∧
        ∀ r, (s.user r).isActivated = true → ∃ k, (k, r) ∈ s.activeUsersMap.entries := by
  constructor
  · refine fun h ↦ ⟨fun k v k' v' hv hv' hconn ↦ ?_, fun r hr ↦ ?_⟩
    · -- visit one entry first, then the other
      have hsame := Surroundings.findActive_startingWith hv
      rw [hconn, h.search_eq _ (.startingWith (k', v')),
        Surroundings.findActive_startingWith hv'] at hsame
      exact (Option.some.inj hsame).symm
    · exact (Surroundings.findActive_eq_some (h.found .listed r hr)).1
  · rintro ⟨hone, hentry⟩
    refine ⟨fun r r' hr hr' hconn ↦ ?_, fun env env' connectionId ↦ ?_, fun env r hr ↦ ?_⟩
    · obtain ⟨k, hk⟩ := hentry r hr
      obtain ⟨k', hk'⟩ := hentry r' hr'
      exact hone k r k' r' hk hk' hconn
    · refine IteratorSearch.find?_eq_of_perm (IterationOrder.values_perm _ _ _) ?_
      intro v hv v' hv' hconn hconn'
      obtain ⟨k, hk⟩ := IterationOrder.mem_values.1 hv
      obtain ⟨k', hk'⟩ := IterationOrder.mem_values.1 hv'
      exact hone k v k' v' hk hk'
        ((of_decide_eq_true hconn).trans (of_decide_eq_true hconn').symm)
    · obtain ⟨k, hk⟩ := hentry r hr
      obtain ⟨v, hv⟩ : ∃ v, env.findActive s (s.user r).connId = some v :=
        Surroundings.exists_findActive hk rfl
      obtain ⟨⟨k', hk'⟩, hconn⟩ := Surroundings.findActive_eq_some hv
      rw [hv, hone k' v k r hk' hk hconn]

theorem oneUserPerConnection_init (mode : ServerMode) :
    OneUserPerConnection (Server.init mode) :=
  oneUserPerConnection_iff.2
    ⟨fun _ _ _ _ h ↦ absurd h List.not_mem_nil, fun _ h ↦ absurd h Bool.false_ne_true⟩

/-- The connection is named by no entry of another user that survives a LOGIN under this name, and
every other activated user keeps an entry. -/
def FreeConnection (s : Server) (connectionId : ℤ) (username : JString) (r : UserRef) : Prop :=
  (∀ k v, (k, v) ∈ s.activeUsersMap.entries → k ≠ username → v ≠ r →
    (s.user v).connId ≠ connectionId) ∧
  ∀ v, v ≠ r → (s.user v).isActivated = true → ∃ k, k ≠ username ∧ (k, v) ∈ s.activeUsersMap.entries

/-- A LOGIN that is accepted happens on a free connection. -/
def LoginOnFreeConnection (s : Server) (e : Event) : Prop :=
  ∀ env connectionId text username r,
    e = .request env connectionId (str "02" ++ text) → connectionId ∈ s.connectionsMap →
      LoginAccepts env s text username r → FreeConnection s connectionId username r

section StartSession

variable {connectionId : ℤ} {username k : JString} {r v : UserRef}

/-- The entries of other users after a LOGIN are the old ones under other names. -/
theorem mem_startSession_of_ne (hne : v ≠ r) :
    (k, v) ∈ (startSession connectionId s username r).activeUsersMap.entries ↔
      k ≠ username ∧ (k, v) ∈ s.activeUsersMap.entries := by
  refine ConcurrentMap.mem_put.trans (or_iff_right ?_)
  exact fun h ↦ hne h.2

theorem mem_startSession_self :
    (username, r) ∈ (startSession connectionId s username r).activeUsersMap.entries :=
  ConcurrentMap.mem_put_self _ _ _

theorem startSession_user_of_ne (hne : v ≠ r) :
    (startSession connectionId s username r).user v = s.user v := by
  rw [startSession_user, if_neg hne]

theorem startSession_user_self :
    (startSession connectionId s username r).user r =
      (s.user r).activate.setConnId connectionId := by
  rw [startSession_user, if_pos rfl]

end StartSession

/-- **A LOGIN keeps the law exactly on a free connection.** -/
theorem oneUserPerConnection_login_iff (h : OneUserPerConnection s) {connectionId : ℤ}
    {username : JString} {r : UserRef} :
    OneUserPerConnection (startSession connectionId s username r) ↔
      FreeConnection s connectionId username r := by
  obtain ⟨hone, hentry⟩ := oneUserPerConnection_iff.1 h
  have hself : ((startSession connectionId s username r).user r).connId = connectionId := by
    rw [startSession_user_self]
    rfl
  have hother : ∀ {v}, v ≠ r → ((startSession connectionId s username r).user v).connId =
      (s.user v).connId := fun hne ↦ by rw [startSession_user_of_ne hne]
  rw [oneUserPerConnection_iff]
  constructor
  · rintro ⟨hone', hentry'⟩
    refine ⟨fun k v hv hk hne hconn ↦ hne ?_, fun v hne hactive ↦ ?_⟩
    · refine hone' k v username r ((mem_startSession_of_ne hne).2 ⟨hk, hv⟩)
        mem_startSession_self ?_
      rw [hother hne, hself, hconn]
    · rw [← startSession_user_of_ne (s := s) hne] at hactive
      obtain ⟨k, hk⟩ := hentry' v hactive
      exact ⟨k, (mem_startSession_of_ne hne).1 hk⟩
  · rintro ⟨hfree, hkept⟩
    -- another user's entry never names the connection of the new session
    have hapart : ∀ {k v}, v ≠ r →
        (k, v) ∈ (startSession connectionId s username r).activeUsersMap.entries →
          ((startSession connectionId s username r).user v).connId ≠ connectionId := by
      intro k v hne hv
      obtain ⟨hk, hold⟩ := (mem_startSession_of_ne hne).1 hv
      rw [hother hne]
      exact hfree k v hold hk hne
    refine ⟨fun k v k' v' hv hv' hconn ↦ ?_, fun v hactive ↦ ?_⟩
    · rcases eq_or_ne v r with rfl | hne
      · rcases eq_or_ne v' v with rfl | hne'
        · rfl
        · exact absurd (hconn.symm.trans hself) (hapart hne' hv')
      · rcases eq_or_ne v' r with rfl | hne'
        · exact absurd (hconn.trans hself) (hapart hne hv)
        · rw [hother hne, hother hne'] at hconn
          exact hone k v k' v' ((mem_startSession_of_ne hne).1 hv).2
            ((mem_startSession_of_ne hne').1 hv').2 hconn
    · rcases eq_or_ne v r with rfl | hne
      · exact ⟨username, mem_startSession_self⟩
      · rw [startSession_user_of_ne hne] at hactive
        obtain ⟨k, hk⟩ := hkept v hne hactive
        exact ⟨k, (mem_startSession_of_ne hne).2 hk⟩

/-- **The step lemma of the connection law.** -/
theorem oneUserPerConnection_next_iff (mode : ServerMode) (hs : Coherent s)
    (h : OneUserPerConnection s) :
    OneUserPerConnection ((serverMachine mode).next s e) ↔ LoginOnFreeConnection s e := by
  constructor
  · rintro hnext env c text username r rfl hmem hlogin
    rw [next_login mode hmem hlogin] at hnext
    exact (oneUserPerConnection_login_iff h).1 hnext
  · intro hfree
    obtain ⟨hone, hentry⟩ := oneUserPerConnection_iff.1 h
    rcases (effect_next mode s e).sessions hs with hsame |
      ⟨env, c, m, username, r, rfl, hmem, hlogin, hs'⟩ | ⟨env, c, m, r, rfl, hfind, hs'⟩
    · rw [oneUserPerConnection_iff]
      simp only [hsame.activeUsersMap, hsame.isActivated, hsame.connId]
      exact ⟨hone, hentry⟩
    · rw [hs']
      exact (oneUserPerConnection_login_iff h).2 (hfree env c m username r rfl hmem hlogin)
    · -- leaving changes neither the map nor a connection
      rw [hs', oneUserPerConnection_iff]
      refine ⟨fun k v k' v' hv hv' hconn ↦ ?_, fun v hactive ↦ ?_⟩
      · rw [deActivate_eq_except s r v, deActivate_eq_except s r v'] at hconn
        exact hone k v k' v' hv hv' hconn
      · rw [Server.modifyUser_user] at hactive
        split at hactive
        case isTrue => exact absurd hactive Bool.false_ne_true
        case isFalse => exact hentry v hactive

/-- **The connection law holds in all states of a run exactly when every LOGIN of the run that is
accepted happens on a free connection.** -/
theorem one_user_per_connection_iff (mode : ServerMode) (es : List Event) :
    (∀ pre, pre <+: es → OneUserPerConnection ((serverMachine mode).stateAfter pre)) ↔
      ∀ pre e, LabelledMachine.Occurs es pre e →
        LoginOnFreeConnection ((serverMachine mode).stateAfter pre) e :=
  LabelledMachine.invariant_along_iff (oneUserPerConnection_init mode)
    (fun _ _ hreach h ↦ oneUserPerConnection_next_iff mode (coherent_of_reachable hreach) h) es

/-- Alice and Bob register, and both log in on connection 0. -/
def twoLogins : List Event :=
  [.accept, .frame 0 "01alice\x00a\x0001-01-1990\x00", .frame 0 "01bob\x00b\x0002-02-1990\x00",
    .frame 0 "02alice\x00a\x001", .frame 0 "02bob\x00b\x001"]

/-- **Two users can be logged in on one connection.** -/
theorem two_users_on_one_connection :
    (((serverMachine .threadPerClient).stateAfter twoLogins).user 0).isActivated = true ∧
      (((serverMachine .threadPerClient).stateAfter twoLogins).user 1).isActivated = true ∧
      (((serverMachine .threadPerClient).stateAfter twoLogins).user 0).connId = 0 ∧
      (((serverMachine .threadPerClient).stateAfter twoLogins).user 1).connId = 0 ∧
      ¬ OneUserPerConnection ((serverMachine .threadPerClient).stateAfter twoLogins) := by
  refine ⟨by decide, by decide, by decide, by decide, fun h ↦ ?_⟩
  exact absurd (h.unique 0 1 (by decide) (by decide) (by decide)) (by decide)

end SplNet
