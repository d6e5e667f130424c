import SplNet.Srv.History
import SplNet.Properties.Unauthenticated
import SplNet.Properties.LogstatRecord

/-!
# Statistics over runs

LOGIN puts a user into the active map under the name that was **typed**, and LOGOUT takes nothing
out of it. So the map remembers every name under which somebody has ever logged in, with the user
of the last such LOGIN (`mem_activeUsersMap_iff`), and the two statistics commands show it: LOGSTAT
answers once for each of these names, whoever is still there, and STAT fails from the first LOGIN
on (`statistics_along`).
-/

namespace SplNet

open Java IteratorSearch

/-! ### The active map -/

/-- The event is a LOGIN under this typed name that is carried out and finds this user. -/
def LogsInAs (username : JString) (r : UserRef) (s : Server) (e : Event) : Prop :=
  ∃ env connectionId message, e = .request env connectionId (str "02" ++ message) ∧
    connectionId ∈ s.connectionsMap ∧ LoginAccepts env s message username r

/-- The event is a LOGIN under this typed name that is carried out. -/
def LogsInUnder (username : JString) (s : Server) (e : Event) : Prop :=
  ∃ r, LogsInAs username r s e

section Events

variable (mode : ServerMode) {s : Server} {e : Event} {k k' : JString} {r r' : UserRef}

/-- A LOGIN types one name and finds one user. -/
theorem LogsInAs.unique (h : LogsInAs k r s e) (h' : LogsInAs k' r' s e) : k' = k ∧ r' = r := by
  obtain ⟨env, connectionId, message, rfl, -, hlogin⟩ := h
  obtain ⟨env', connectionId', message', heq, -, hlogin'⟩ := h'
  obtain ⟨rfl, rfl, -, rfl⟩ := request_opcode_inj heq rfl rfl
  obtain ⟨rest, hargs⟩ := hlogin.args
  obtain ⟨rest', hargs'⟩ := hlogin'.args
  obtain ⟨rfl, -⟩ := List.cons.inj (hargs.symm.trans hargs')
  exact ⟨rfl, Option.some.inj (hlogin'.found.symm.trans hlogin.found)⟩

theorem LogsInAs.next_activeUsersMap (h : LogsInAs k r s e) :
    ((serverMachine mode).next s e).activeUsersMap = s.activeUsersMap.put k r := by
  obtain ⟨env, connectionId, message, rfl, hmem, hlogin⟩ := h
  rw [next_login mode hmem hlogin]
  rfl

/-- An entry of the active map appears by a LOGIN under its key, and goes by another one only. -/
theorem mem_activeUsersMap_next_iff (hs : Coherent s) (e : Event) (k : JString) (r : UserRef) :
    (k, r) ∈ ((serverMachine mode).next s e).activeUsersMap.entries ↔
      LogsInAs k r s e ∨ (k, r) ∈ s.activeUsersMap.entries ∧ ¬ LogsInUnder k s e := by
  rcases Classical.em (∃ k' r', LogsInAs k' r' s e) with ⟨k', r', hin⟩ | hno
  · rw [hin.next_activeUsersMap mode, ConcurrentMap.mem_put]
    constructor
    · rintro (⟨rfl, rfl⟩ | ⟨hne, hold⟩)
      · exact Or.inl hin
      · exact Or.inr ⟨hold, fun ⟨_, hunder⟩ ↦ hne (hin.unique hunder).1⟩
    · rintro (hnew | ⟨hold, hunder⟩)
      · obtain ⟨rfl, rfl⟩ := hin.unique hnew
        exact Or.inl ⟨rfl, rfl⟩
      · have hne : k ≠ k' := by
          intro heq
          exact hunder ⟨r', heq ▸ hin⟩
        exact Or.inr ⟨hne, hold⟩
  · have hkeep : ((serverMachine mode).next s e).activeUsersMap = s.activeUsersMap := by
      rcases (effect_next mode s e).sessions hs with hsame | ⟨env, c, m, username, r', heq, hmem,
        hlogin, -⟩ | ⟨env, c, m, r', heq, hfind, hs'⟩
      · exact hsame.activeUsersMap
      · exact absurd ⟨username, r', env, c, m, heq, hmem, hlogin⟩ hno
      · rw [hs', Server.modifyUser_activeUsersMap]
    have hnot : ¬ LogsInAs k r s e := fun h ↦ hno ⟨k, r, h⟩
    have hunder : ¬ LogsInUnder k s e := fun ⟨r', h⟩ ↦ hno ⟨k, r', h⟩
    rw [hkeep, or_iff_right hnot, and_iff_left hunder]

end Events

/-- **The active map holds the user of the last LOGIN under each name**, whatever was logged out. -/
theorem mem_activeUsersMap_iff (mode : ServerMode) (es : List Event) (k : JString) (r : UserRef) :
    (k, r) ∈ ((serverMachine mode).stateAfter es).activeUsersMap.entries ↔
      (serverMachine mode).Since (LogsInAs k r) (LogsInUnder k) es :=
  LabelledMachine.since_iff (M := serverMachine mode)
    (P := fun s ↦ (k, r) ∈ s.activeUsersMap.entries) List.not_mem_nil
    (fun _ e hreach ↦ mem_activeUsersMap_next_iff mode (coherent_of_reachable hreach) e k r) es

/-! ### The answers -/

/-- What LOGSTAT answers for one user: the error when that user has blocked the one who asks, and
otherwise the record, when it can be built and encoded. -/
def logstatAnswer (env : Surroundings) (s : Server) (my r : UserRef) : Option JString :=
  if my ∈ (s.user r).blockingUsers then some (str "1107")
  else
    match statMessage env s r with
    | .ok msg =>
      match encode msg with
      | .ok _ => some msg
      | .error _ => none
    | .error _ => none

section Answers

variable {env : Surroundings} {connectionId : ℤ} {s : Server} {my r : UserRef}

theorem statUser_of_answer (hmem : connectionId ∈ s.connectionsMap) {msg : JString}
    (h : logstatAnswer env s my r = some msg) :
    statUser env connectionId my s r = ⟨s, [(connectionId, msg)], none⟩ := by
  rw [logstatAnswer] at h
  split at h
  case isTrue hblocks =>
    obtain rfl := Option.some.inj h
    exact statUser_of_blocked hmem hblocks
  case isFalse hblocks =>
    rcases hmsg : statMessage env s r with e | msg'
    · rw [hmsg] at h
      exact absurd h.symm (Option.some_ne_none msg)
    · rcases hencode : encode msg' with e | bytes
      · simp only [hmsg, hencode] at h
        exact absurd h.symm (Option.some_ne_none msg)
      · simp only [hmsg, hencode, Option.some.injEq] at h
        rw [statUser, if_pos hblocks, hmsg, ← h]
        exact (Server.send_of_encode hencode).trans (by rw [Server.delivery_of_mem hmem])

theorem statUser_of_no_answer (hmem : connectionId ∈ s.connectionsMap)
    (h : logstatAnswer env s my r = none) :
    ∃ e, statUser env connectionId my s r = .throws s e := by
  rw [logstatAnswer] at h
  split at h
  case isTrue => exact absurd h (Option.some_ne_none _)
  case isFalse hblocks =>
    refine statUser_of_fails hmem hblocks fun msg bytes hmsg hencode ↦ ?_
    simp only [hmsg, hencode] at h
    exact absurd h (Option.some_ne_none msg)

/-- The answers of a loop over users: they are sent in order, up to the first user without one, who
raises an exception. -/
structure AnswersInOrder (connectionId : ℤ) (answers : List (Option JString)) (o : Outcome) :
    Prop where
  /-- The messages are the answers in front of the first one that is missing. -/
  sent : ∃ (msgs : List JString) (rest : List (Option JString)), answers = msgs.map some ++ rest ∧
    (rest = [] ∨ rest.head? = some none) ∧ o.sent = msgs.map fun msg ↦ (connectionId, msg)
  thrown : o.thrown = none ↔ none ∉ answers

theorem forEach_statUser_answers (hmem : connectionId ∈ s.connectionsMap) (rs : List UserRef) :
    AnswersInOrder connectionId (rs.map (logstatAnswer env s my))
      (Outcome.forEach (statUser env connectionId my) s rs) := by
  induction rs with
  | nil => exact ⟨⟨[], [], rfl, Or.inl rfl, rfl⟩, iff_of_true rfl List.not_mem_nil⟩
  | cons r rs ih =>
    rw [List.map_cons, Outcome.forEach]
    rcases hanswer : logstatAnswer env s my r with - | msg
    · obtain ⟨e, he⟩ := statUser_of_no_answer hmem hanswer
      rw [he]
      refine ⟨⟨[], _, rfl, Or.inr rfl, rfl⟩, iff_of_false ?_ fun h ↦ h List.mem_cons_self⟩
      exact Option.some_ne_none e
    · rw [statUser_of_answer hmem hanswer, Outcome.andThen_of_none]
      obtain ⟨⟨msgs, rest, hsplit, hrest, hsent⟩, hthrown⟩ := ih
      refine ⟨⟨msg :: msgs, rest, ?_, hrest, ?_⟩, ?_⟩
      · rw [hsplit]
        rfl
      · rw [List.map_cons, hsent]
        rfl
      · rw [List.mem_cons, not_or]
        exact hthrown.trans (and_iff_right (Option.some_ne_none msg).symm).symm

end Answers

/-! ### Whole runs -/

/-- The user LOGSTAT asks for, when these are the entries of the active map: one that sits on the
connection, or else the last one. -/
def AsksFor (s : Server) (connectionId : ℤ) (listed : List (JString × UserRef)) (my : UserRef) :
    Prop :=
  my ∈ listed.map Prod.snd ∧ ((s.user my).connId = connectionId ∨
    (∀ x ∈ listed, (s.user x.2).connId ≠ connectionId) ∧
      (listed.map Prod.snd).getLast? = some my)

section Runs

variable {env : Surroundings} {connectionId : ℤ} {s : Server}

theorem asksFor_of_sessionVariable {my : UserRef}
    (h : sessionVariable env connectionId s = some my) :
    AsksFor s connectionId (env.activeOrder.arrange s.activeUsersMap.entries) my := by
  have hmy : my ∈ env.activeUsers s := mem_of_loopVariable_eq_some h
  refine ⟨hmy, ?_⟩
  rcases loopVariable_eq_some_iff.1 h with hfind | ⟨hnone, hlast⟩
  · exact Or.inl (by simpa using List.find?_some hfind)
  · refine Or.inr ⟨fun x hx ↦ ?_, hlast⟩
    have hvalue : x.2 ∈ env.activeUsers s := List.mem_map_of_mem hx
    simpa using List.find?_eq_none.1 hnone x.2 hvalue

/-- The search of LOGSTAT finds somebody as soon as the active map is not empty. -/
theorem exists_sessionVariable (h : env.activeUsers s ≠ []) :
    ∃ my, sessionVariable env connectionId s = some my := by
  rcases hfind : (env.activeUsers s).find? (fun r ↦ (s.user r).connId = connectionId) with - | my
  · obtain ⟨my, hlast⟩ := Option.ne_none_iff_exists'.1
      (mt List.getLast?_eq_none_iff.1 h)
    exact ⟨my, loopVariable_eq_some_iff.2 (Or.inr ⟨hfind, hlast⟩)⟩
  · exact ⟨my, loopVariable_eq_some_iff.2 (Or.inl hfind)⟩

/-- What the two commands do with the entries of the active map. -/
structure Reports (env : Surroundings) (s : Server) (connectionId : ℤ) (text : JString)
    (listed : List (JString × UserRef)) : Prop where
  /-- LOGSTAT says nothing when nobody is listed. -/
  silent : listed = [] → process env connectionId s (str "07" ++ text) = .done s
  /-- Otherwise it asks for one of the listed users, and answers once for each of them. -/
  answers : listed ≠ [] → ∃ my, AsksFor s connectionId listed my ∧
    AnswersInOrder connectionId (listed.map fun x ↦ logstatAnswer env s my x.2)
      (process env connectionId s (str "07" ++ text))
  unchanged : (process env connectionId s (str "07" ++ text)).server = s
  /-- STAT finds nobody, or fails. -/
  stat : process env connectionId s (str "08" ++ text) =
    if listed = [] then ⟨s, [(connectionId, str "1108")], none⟩ else .throws s .classCast

theorem reports_arrange (hmem : connectionId ∈ s.connectionsMap) (text : JString) :
    Reports env s connectionId text (env.activeOrder.arrange s.activeUsersMap.entries) where
  silent hnil := by
    have hvalues : env.activeUsers s = [] := congrArg (List.map Prod.snd) hnil
    rw [process_07, processLogstat, sessionVariable, hvalues]
    rfl
  answers hne := by
    have hvalues : env.activeUsers s ≠ [] := fun h ↦ hne (List.map_eq_nil_iff.1 h)
    obtain ⟨my, hmy⟩ : ∃ my, sessionVariable env connectionId s = some my :=
      exists_sessionVariable hvalues
    refine ⟨my, asksFor_of_sessionVariable hmy, ?_⟩
    have hloop : AnswersInOrder connectionId ((env.activeUsers s).map (logstatAnswer env s my))
        (Outcome.forEach (statUser env connectionId my) s (env.activeUsers s)) :=
      forEach_statUser_answers hmem _
    rw [process_07, processLogstat, hmy]
    rwa [Surroundings.activeUsers, IterationOrder.values, List.map_map] at hloop
  unchanged := by
    rw [process_07]
    exact processLogstat_server
  stat := by
    rw [process_08, processStat, IterationOrder.keys]
    rcases env.activeOrder.arrange s.activeUsersMap.entries with - | ⟨x, rest⟩
    · rw [if_pos rfl]
      exact (show Sendable (str "1108") by decide).send_of_mem hmem
    · rw [if_neg (List.cons_ne_nil x rest)]
      rfl

end Runs

/-- **The statistics commands list every name under which somebody has ever logged in**, with the
user of the last such LOGIN, and no LOGOUT takes a name away. -/
theorem statistics_along (mode : ServerMode) (es : List Event) (env : Surroundings)
    {connectionId : ℤ}
    (hmem : connectionId ∈ ((serverMachine mode).stateAfter es).connectionsMap) (text : JString) :
    ∃ listed : List (JString × UserRef),
      (listed.map Prod.fst).Nodup ∧
      (∀ k r, (k, r) ∈ listed ↔ (serverMachine mode).Since (LogsInAs k r) (LogsInUnder k) es) ∧
      Reports env ((serverMachine mode).stateAfter es) connectionId text listed := by
  have hperm := env.activeOrder.perm ((serverMachine mode).stateAfter es).activeUsersMap.entries
  refine ⟨env.activeOrder.arrange ((serverMachine mode).stateAfter es).activeUsersMap.entries,
    ?_, fun k r ↦ ?_, reports_arrange hmem text⟩
  · exact (hperm.map Prod.fst).nodup_iff.2
      ((serverMachine mode).stateAfter es).activeUsersMap.nodupKeys
  · rw [hperm.mem_iff]
    exact mem_activeUsersMap_iff mode es k r

/-- Alice has logged in and out again, and Bob asks for the statistics. -/
theorem statistics_along_bob :
    ∃ listed : List (JString × UserRef),
      (listed.map Prod.fst).Nodup ∧
      (∀ k r, (k, r) ∈ listed ↔ (serverMachine .reactor).Since (LogsInAs k r) (LogsInUnder k)
        (beforeLogstat ++ [.frame 0 "03", .frame 1 "02bob\x00b\x001"])) ∧
      Reports .listed ((serverMachine .reactor).stateAfter
        (beforeLogstat ++ [.frame 0 "03", .frame 1 "02bob\x00b\x001"])) 1 [] listed :=
  statistics_along .reactor _ .listed (by decide) []

end SplNet
