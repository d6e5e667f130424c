import SplNet.Srv.StoreInvariant

/-!
# Connections without a session

What a connection can do that has never logged in. Whoever is in the active map has been logged in
on its connection, with an acknowledgement (`loginAcknowledged_of_active`), so on the other
connections every search for the active user fails. LOGOUT, FOLLOW, POST and BLOCK then do nothing.
PM and LOGSTAT have no flag for a failed search: they go on with the **last** user the search
visited, and act in the name of that user (`harmless_without_session_iff`).
-/

namespace SplNet

open Java IteratorSearch

/-- A LOGIN on the connection was acknowledged during the run. -/
def LoginAcknowledged (mode : ServerMode) (es : List Event) (connectionId : ℤ) : Prop :=
  ∃ o ∈ (serverMachine mode).outputs es, (connectionId, str "1002") ∈ o.sent

instance (mode : ServerMode) (es : List Event) (connectionId : ℤ) :
    Decidable (LoginAcknowledged mode es connectionId) :=
  inferInstanceAs (Decidable (∃ o ∈ _, _))

/-- The active map names the connection. -/
def Named (connectionId : ℤ) (s : Server) : Prop :=
  ∃ k r, (k, r) ∈ s.activeUsersMap.entries ∧ (s.user r).connId = connectionId

/-- An event that makes the active map name a connection is an acknowledged LOGIN there. -/
theorem login_of_named {mode : ServerMode} {s : Server} (hs : Coherent s) {e : Event}
    {connectionId : ℤ} (hold : ¬ Named connectionId s)
    (hnew : Named connectionId ((serverMachine mode).next s e)) :
    (connectionId, str "1002") ∈ ((serverMachine mode).output s e).sent := by
  obtain ⟨k, r, hk, hconn⟩ := hnew
  rcases (effect_next mode s e).sessions hs with hsame | ⟨env, c, m, username, r', rfl, hmem,
    hlogin, hs'⟩ | ⟨env, c, m, r', -, -, hs'⟩
  · rw [hsame.activeUsersMap] at hk
    rw [hsame.connId] at hconn
    exact absurd ⟨k, r, hk, hconn⟩ hold
  · rw [hs'] at hk hconn
    rw [startSession_user] at hconn
    rcases eq_or_ne r r' with rfl | hne
    · rw [if_pos rfl] at hconn
      obtain rfl : c = connectionId := hconn
      rw [output_request_of_mem mode s hmem, process_02,
        processLogin_of_accepts hlogin fun _ hpost ↦ hs.blank_mem hpost]
      exact List.mem_append_left _ (Server.mem_delivery.2 ⟨rfl, rfl, hmem⟩)
    · rw [if_neg hne] at hconn
      rcases ConcurrentMap.mem_put.1 hk with ⟨-, heq⟩ | ⟨-, hk⟩
      · exact absurd heq hne
      · exact absurd ⟨k, r, hk, hconn⟩ hold
  · rw [hs'] at hk hconn
    rw [deActivate_eq_except] at hconn
    exact absurd ⟨k, r, hk, hconn⟩ hold

/-- **A connection named by the active map has logged in.** -/
theorem loginAcknowledged_of_active {mode : ServerMode} {es : List Event} {connectionId : ℤ}
    (h : Named connectionId ((serverMachine mode).stateAfter es)) :
    LoginAcknowledged mode es connectionId := by
  have hinit : ¬ Named connectionId (serverMachine mode).init :=
    fun ⟨_, _, hk, _⟩ ↦ absurd hk List.not_mem_nil
  obtain ⟨pre, e, hocc, hold, hnew⟩ := LabelledMachine.exists_occurs_of_change hinit h
  have hcoherent := coherent_of_reachable ((serverMachine mode).reachable_stateAfter pre)
  exact ⟨_, hocc.mem_outputs _, login_of_named hcoherent hold hnew⟩

/-! ### Harmless outcomes -/

/-- No user is changed and nothing is sent, except possibly one error answer to the connection. -/
structure Harmless (connectionId : ℤ) (s : Server) (o : Outcome) : Prop where
  user_eq : o.server.user = s.user
  sent_eq : o.sent = [] ∨ ∃ m, o.sent = [(connectionId, m)] ∧ str "11" <+: m

section Harmless

variable {env : Surroundings} {connectionId : ℤ} {s : Server}

theorem Refusal.harmless {optCode : JString} {o : Outcome}
    (h : Refusal connectionId s optCode o) : Harmless connectionId s o := by
  refine ⟨congrArg Server.user h.server_eq, ?_⟩
  rcases h.sent_eq with hsent | hsent
  · rw [hsent, Server.delivery]
    split
    case isTrue => exact Or.inr ⟨_, rfl, List.prefix_append _ _⟩
    case isFalse => exact Or.inl rfl
  · exact Or.inl hsent

theorem harmless_done : Harmless connectionId s (.done s) := ⟨rfl, Or.inl rfl⟩

/-- An acknowledgement is not harmless. -/
theorem not_harmless_of_mem {o : Outcome} {d : ℤ} {m : JString} (hmem : (d, m) ∈ o.sent)
    (h : ¬ str "11" <+: m) : ¬ Harmless connectionId s o := by
  intro hharmless
  rcases hharmless.sent_eq with hsent | ⟨m', hsent, h11⟩
  · rw [hsent] at hmem
    exact absurd hmem List.not_mem_nil
  · rw [hsent, List.mem_singleton, Prod.mk.injEq] at hmem
    exact h (hmem.2 ▸ h11)

theorem findActive_eq_none_of_not_named (env : Surroundings) (h : ¬ Named connectionId s) :
    env.findActive s connectionId = none := by
  rcases hfind : env.findActive s connectionId with - | r
  · rfl
  · obtain ⟨⟨k, hk⟩, hconn⟩ := Surroundings.findActive_eq_some hfind
    exact absurd ⟨k, r, hk, hconn⟩ h

/-- Without an active user of the connection, the search of PM and LOGSTAT ends on the last one. -/
theorem sessionVariable_of_not_named (env : Surroundings) (h : ¬ Named connectionId s) :
    sessionVariable env connectionId s = (env.activeUsers s).getLast? := by
  have hnone := findActive_eq_none_of_not_named env h
  rw [sessionVariable, loopVariable_of_find?_eq_none hnone, Option.or_none]

theorem logout_harmless (h : ¬ Named connectionId s) :
    Harmless connectionId s (processLogout env connectionId s) :=
  (processLogout_refusal (findActive_eq_none_of_not_named env h)).harmless

theorem follow_harmless (h : ¬ Named connectionId s) (message : JString) :
    Harmless connectionId s (processFollow env connectionId s message) := by
  have hnone : env.findActive s connectionId = none := findActive_eq_none_of_not_named env h
  have hnobody : ∀ my, env.findActive s connectionId ≠ some my := fun my hmy ↦ by
    rw [hnone] at hmy
    exact absurd hmy.symm (Option.some_ne_none my)
  rcases Classical.em (FollowSilent env connectionId s message) with hsilent | hsilent
  · rw [processFollow_of_silent hsilent]
    exact harmless_done
  · exact (processFollow_refusal (fun _ my _ hmy ↦ hnobody my hmy.session)
      (fun _ my _ hmy ↦ hnobody my hmy.session) hsilent).harmless

theorem post_harmless (h : ¬ Named connectionId s) (message : JString) :
    Harmless connectionId s (processPost env connectionId s message) := by
  refine (processPost_refusal fun my hmy ↦ ?_).harmless
  obtain ⟨⟨k, hk⟩, hconn⟩ := Surroundings.findActive_eq_some hmy.session
  exact h ⟨k, my, hk, hconn⟩

theorem block_harmless (h : ¬ Named connectionId s) (message : JString) :
    Harmless connectionId s (processBlock env connectionId s message) := by
  refine (processBlock_refusal fun my other hmy ↦ ?_).harmless
  obtain ⟨⟨k, hk⟩, hconn⟩ := Surroundings.findActive_eq_some hmy.session
  exact h ⟨k, my, hk, hconn⟩

/-! ### PM in the name of the last active user -/

/-- The text is a PM that the last active user visited may send. -/
structure LastUserMaySend (env : Surroundings) (s : Server) (message : JString)
    (my other : UserRef) : Prop where
  nonempty : message ≠ []
  last : (env.activeUsers s).getLast? = some my
  recipient : recipientVariable env s message.dropLast = some other
  followed : other ∈ (s.user my).followers
  unblocked : my ∉ (s.user other).blockingUsers
  long : (s.user other).username.length + 1 ≤ (filterWords env s message.dropLast).length

theorem pm_harmless_iff (h : ¬ Named connectionId s) (hmem : connectionId ∈ s.connectionsMap)
    (message : JString) :
    Harmless connectionId s (processPm env connectionId s message) ↔
      ∀ my other, ¬ LastUserMaySend env s message my other := by
  have hsender := sessionVariable_of_not_named env h
  constructor
  · intro hharmless my other hsend
    have haccepts : PmAccepts env connectionId s message my other
        ((filterWords env s message.dropLast).drop ((s.user other).username.length + 1)) :=
      { nonempty := hsend.nonempty
        sender := hsender.trans hsend.last
        recipient := hsend.recipient
        followed := hsend.followed
        unblocked := hsend.unblocked
        content := substringFrom_of_le hsend.long }
    rw [processPm_of_accepts haccepts] at hharmless
    have hack : (connectionId, str "1006") ∈ s.delivery connectionId (str "1006") :=
      Server.mem_delivery.2 ⟨rfl, rfl, hmem⟩
    exact not_harmless_of_mem (List.mem_append_right _ hack) (by decide) hharmless
  · intro hnobody
    refine (processPm_refusal fun my other content haccepts ↦ ?_).harmless
    exact hnobody my other ⟨haccepts.nonempty, hsender.symm.trans haccepts.sender,
      haccepts.recipient, haccepts.followed, haccepts.unblocked, haccepts.content_eq.1⟩

/-! ### LOGSTAT in the name of the last active user -/

/-- The statistics of the user cannot be built, or their message cannot be encoded. -/
def StatFails (env : Surroundings) (s : Server) (r : UserRef) : Prop :=
  ∀ msg bytes, statMessage env s r = .ok msg → encode msg ≠ .ok bytes

/-- LOGSTAT sends nothing for these users: there is none, or the first one raises an exception. -/
def StopsAt (env : Surroundings) (s : Server) (my : UserRef) : List UserRef → Prop
  | [] => True
  | r :: _ => my ∉ (s.user r).blockingUsers ∧ StatFails env s r

/-- LOGSTAT sends at most one error answer for these users: it stops at once, or behind one user
that blocks the sender. -/
def StatsHarmless (env : Surroundings) (s : Server) (my : UserRef) (rs : List UserRef) : Prop :=
  StopsAt env s my rs ∨
    ∃ r rest, rs = r :: rest ∧ my ∈ (s.user r).blockingUsers ∧ StopsAt env s my rest

section Stat

variable {my r : UserRef}

theorem statUser_of_blocked (hmem : connectionId ∈ s.connectionsMap)
    (h : my ∈ (s.user r).blockingUsers) :
    statUser env connectionId my s r = ⟨s, [(connectionId, str "1107")], none⟩ := by
  rw [statUser, if_neg (not_not.2 h), (show Sendable (str "1107") by decide).send_eq,
    Server.delivery_of_mem hmem]

theorem statUser_of_fails (hmem : connectionId ∈ s.connectionsMap)
    (h : my ∉ (s.user r).blockingUsers) (hfails : StatFails env s r) :
    ∃ e, statUser env connectionId my s r = .throws s e := by
  rw [statUser, if_pos h]
  rcases hmsg : statMessage env s r with e | msg
  · exact ⟨e, rfl⟩
  · rcases hencode : encode msg with e | bytes
    · refine ⟨e, ?_⟩
      simp only [Server.send, if_pos hmem, hencode]
      rfl
    · exact absurd hencode (hfails msg bytes hmsg)

/-- A record that can be sent is an acknowledgement. -/
theorem statUser_of_record (hmem : connectionId ∈ s.connectionsMap)
    (h : my ∉ (s.user r).blockingUsers) (hok : ¬ StatFails env s r) :
    ∃ msg, ¬ str "11" <+: msg ∧
      statUser env connectionId my s r = ⟨s, [(connectionId, msg)], none⟩ := by
  simp only [StatFails, not_forall, not_not] at hok
  obtain ⟨msg, bytes, hmsg, hencode⟩ := hok
  refine ⟨msg, ?_, ?_⟩
  · obtain ⟨yearText, -, hmsg⟩ := bind_eq_ok.1 hmsg
    obtain ⟨yearsToInt, -, hmsg⟩ := bind_eq_ok.1 hmsg
    cases hmsg
    refine not_start_of_start (p := str "10") ?_ rfl (by decide)
    simp only [List.append_assoc]
    exact ⟨str "07" ++ _, rfl⟩
  · rw [statUser, if_pos h, hmsg]
    exact (Server.send_of_encode hencode).trans (by rw [Server.delivery_of_mem hmem])

theorem forEach_statUser_sent_iff (hmem : connectionId ∈ s.connectionsMap) (rs : List UserRef) :
    (Outcome.forEach (statUser env connectionId my) s rs).sent = [] ↔ StopsAt env s my rs := by
  rcases rs with - | ⟨r, rest⟩
  · exact iff_of_true rfl trivial
  · rw [Outcome.forEach, StopsAt]
    rcases Classical.em (my ∈ (s.user r).blockingUsers) with hblocks | hblocks
    · rw [statUser_of_blocked hmem hblocks, Outcome.andThen_of_none]
      exact iff_of_false (List.cons_ne_nil _ _) fun h ↦ h.1 hblocks
    · rcases Classical.em (StatFails env s r) with hfails | hok
      · obtain ⟨e, he⟩ := statUser_of_fails hmem hblocks hfails
        rw [he]
        exact iff_of_true rfl ⟨hblocks, hfails⟩
      · obtain ⟨msg, -, hmsg⟩ := statUser_of_record hmem hblocks hok
        rw [hmsg, Outcome.andThen_of_none]
        exact iff_of_false (List.cons_ne_nil _ _) fun h ↦ hok h.2

/-- **LOGSTAT is harmless exactly when it stops in time.** -/
theorem forEach_statUser_harmless_iff (hmem : connectionId ∈ s.connectionsMap)
    (rs : List UserRef) :
    Harmless connectionId s (Outcome.forEach (statUser env connectionId my) s rs) ↔
      StatsHarmless env s my rs := by
  have hserver : (Outcome.forEach (statUser env connectionId my) s rs).server.user = s.user :=
    congrArg Server.user (forEach_statUser_server my rs)
  constructor
  · intro hharmless
    rcases hharmless.sent_eq with hsent | ⟨m, hsent, h11⟩
    · exact Or.inl ((forEach_statUser_sent_iff hmem rs).1 hsent)
    · -- the one answer is an error, so it came from the first user
      rcases rs with - | ⟨r, rest⟩
      · exact Or.inl trivial
      · rw [Outcome.forEach] at hsent
        rcases Classical.em (my ∈ (s.user r).blockingUsers) with hblocks | hblocks
        · rw [statUser_of_blocked hmem hblocks, Outcome.andThen_of_none,
            List.singleton_append, List.cons.injEq] at hsent
          exact Or.inr ⟨r, rest, rfl, hblocks, (forEach_statUser_sent_iff hmem rest).1 hsent.2⟩
        · rcases Classical.em (StatFails env s r) with hfails | hok
          · exact Or.inl ⟨hblocks, hfails⟩
          · obtain ⟨msg, hmsg, hstat⟩ := statUser_of_record hmem hblocks hok
            rw [hstat, Outcome.andThen_of_none, List.singleton_append, List.cons.injEq,
              Prod.mk.injEq] at hsent
            exact absurd (hsent.1.2 ▸ h11) hmsg
  · rintro (hstops | ⟨r, rest, rfl, hblocks, hstops⟩)
    · exact ⟨hserver, Or.inl ((forEach_statUser_sent_iff hmem rs).2 hstops)⟩
    · refine ⟨hserver, Or.inr ⟨str "1107", ?_, ⟨str "07", rfl⟩⟩⟩
      have hrest : (Outcome.forEach (statUser env connectionId my) s rest).sent = [] :=
        (forEach_statUser_sent_iff hmem rest).2 hstops
      rw [Outcome.forEach, statUser_of_blocked hmem hblocks, Outcome.andThen_of_none, hrest]
      rfl

theorem logstat_harmless_iff (h : ¬ Named connectionId s) (hmem : connectionId ∈ s.connectionsMap) :
    Harmless connectionId s (processLogstat env connectionId s) ↔
      ∀ my, (env.activeUsers s).getLast? = some my →
        StatsHarmless env s my (env.activeUsers s) := by
  have hsender := sessionVariable_of_not_named env h
  rcases hlast : (env.activeUsers s).getLast? with - | my
  · rw [processLogstat, hsender, hlast]
    exact iff_of_true harmless_done fun my hmy ↦ absurd hmy.symm (Option.some_ne_none my)
  · rw [processLogstat, hsender, hlast]
    simp only [Option.some.injEq, forall_eq']
    exact forEach_statUser_harmless_iff hmem _

end Stat

end Harmless

/-! ### The law -/

/-- The opcodes of LOGOUT, FOLLOW, POST, PM, LOGSTAT and BLOCK. -/
def sessionOpcodes : List JString :=
  [str "03", str "04", str "05", str "06", str "07", str "12"]

/-- **On a connection that never logged in, a request is harmless unless it is a PM or a LOGSTAT
that goes through for the last active user the search visited.** -/
theorem harmless_without_session_iff {mode : ServerMode} {es : List Event} {connectionId : ℤ}
    (hmem : connectionId ∈ ((serverMachine mode).stateAfter es).connectionsMap)
    (hnever : ¬ LoginAcknowledged mode es connectionId) (env : Surroundings) {optCode : JString}
    (hop : optCode ∈ sessionOpcodes) (text : JString) :
    Harmless connectionId ((serverMachine mode).stateAfter es)
        (process env connectionId ((serverMachine mode).stateAfter es) (optCode ++ text)) ↔
      (optCode = str "06" → ∀ my other,
        ¬ LastUserMaySend env ((serverMachine mode).stateAfter es) text my other) ∧
      (optCode = str "07" → ∀ my,
        (env.activeUsers ((serverMachine mode).stateAfter es)).getLast? = some my →
          StatsHarmless env ((serverMachine mode).stateAfter es) my
            (env.activeUsers ((serverMachine mode).stateAfter es))) := by
  have hnamed : ¬ Named connectionId ((serverMachine mode).stateAfter es) :=
    fun h ↦ hnever (loginAcknowledged_of_active h)
  simp only [sessionOpcodes, List.mem_cons, List.not_mem_nil, or_false] at hop
  rcases hop with rfl | rfl | rfl | rfl | rfl | rfl
  · rw [process_03]
    exact iff_of_true (logout_harmless hnamed) ⟨fun h ↦ absurd h (by decide),
      fun h ↦ absurd h (by decide)⟩
  · rw [process_04]
    exact iff_of_true (follow_harmless hnamed text) ⟨fun h ↦ absurd h (by decide),
      fun h ↦ absurd h (by decide)⟩
  · rw [process_05]
    exact iff_of_true (post_harmless hnamed text) ⟨fun h ↦ absurd h (by decide),
      fun h ↦ absurd h (by decide)⟩
  · rw [process_06, pm_harmless_iff hnamed hmem]
    exact ⟨fun h ↦ ⟨fun _ ↦ h, fun h' ↦ absurd h' (by decide)⟩, fun h ↦ h.1 rfl⟩
  · rw [process_07, logstat_harmless_iff hnamed hmem]
    exact ⟨fun h ↦ ⟨fun h' ↦ absurd h' (by decide), fun _ ↦ h⟩, fun h ↦ h.2 rfl⟩
  · rw [process_12]
    exact iff_of_true (block_harmless hnamed text) ⟨fun h ↦ absurd h (by decide),
      fun h ↦ absurd h (by decide)⟩

/-- Alice logs in on connection 0 and follows Bob, who logs in on connection 2. -/
def aliceFollowsBob : List Event :=
  [.accept, .accept, .accept, .frame 0 "01alice\x00a\x0001-01-1990\x00",
    .frame 2 "01bob\x00b\x0002-02-1990\x00", .frame 0 "02alice\x00a\x001",
    .frame 0 "040bob\x00", .frame 2 "02bob\x00b\x001"]

/-- A PM to Alice from connection 1, which never logged in: Bob, who was visited last, does not
follow her. -/
theorem harmless_without_session_iff_pm :
    Harmless 1 ((serverMachine .threadPerClient).stateAfter aliceFollowsBob)
        (process .listed 1 ((serverMachine .threadPerClient).stateAfter aliceFollowsBob)
          (str "06" ++ str "alice hi\x00")) ↔
      (str "06" = str "06" → ∀ my other,
        ¬ LastUserMaySend .listed ((serverMachine .threadPerClient).stateAfter aliceFollowsBob)
          (str "alice hi\x00") my other) ∧
      (str "06" = str "07" → ∀ my,
        (Surroundings.listed.activeUsers
            ((serverMachine .threadPerClient).stateAfter aliceFollowsBob)).getLast? = some my →
          StatsHarmless .listed ((serverMachine .threadPerClient).stateAfter aliceFollowsBob) my
            (Surroundings.listed.activeUsers
              ((serverMachine .threadPerClient).stateAfter aliceFollowsBob))) :=
  harmless_without_session_iff (by decide) (by decide) .listed (by decide) (str "alice hi\x00")

/-- **A PM from connection 1, which never logged in, reaches Bob in Alice's name.** -/
theorem pm_in_another_name :
    1 ∈ ((serverMachine .threadPerClient).stateAfter aliceFollowsBob).connectionsMap ∧
      ¬ LoginAcknowledged .threadPerClient aliceFollowsBob 1 ∧
      (process .listed 1 ((serverMachine .threadPerClient).stateAfter aliceFollowsBob)
        (str "06" ++ str "bob hi\x00")).sent =
          [(2, str "090alice\x00hi\x00"), (1, str "1006")] ∧
      ¬ Harmless 1 ((serverMachine .threadPerClient).stateAfter aliceFollowsBob)
        (process .listed 1 ((serverMachine .threadPerClient).stateAfter aliceFollowsBob)
          (str "06" ++ str "bob hi\x00")) := by
  have hsent : (process .listed 1 ((serverMachine .threadPerClient).stateAfter aliceFollowsBob)
      (str "06" ++ str "bob hi\x00")).sent =
        [(2, str "090alice\x00hi\x00"), (1, str "1006")] := by decide
  refine ⟨by decide, by decide, hsent, ?_⟩
  refine not_harmless_of_mem (d := 1) (m := str "1006") ?_ (by decide)
  rw [hsent]
  exact List.mem_cons_of_mem _ (List.mem_singleton_self _)

end SplNet
