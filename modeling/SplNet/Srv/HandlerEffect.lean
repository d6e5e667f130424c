import SplNet.Srv.Handlers
import SplNet.Srv.StoreInvariant

/-!
# What one step of a handler does to the accounts and the flags

`HandlerEffect` lists every way a step of a handler can change the map of users and who is
activated, as `Effect` does for whole frames: `put`, `activate`, `setConnId` and the two replies
each have a constructor, a LOGOUT that finds a user has one, and every other step is `quiet`.
-/

namespace SplNet

open Java

/-- The user a LOGIN has found. -/
def HandlerTask.loginUser : HandlerTask → Option UserRef
  | .loginCheck _ _ _ user => some user
  | .loginPut _ user => some user
  | .loginActivate user => some user
  | .loginSetConnId user => some user
  | .loginReply user => some user
  | .replayTest user => some user
  | .replayIterator user => some user
  | .replayNext loop => some loop.user
  | .replayConnId _ loop => some loop.user
  | .replaySend _ _ loop => some loop.user
  | _ => none

/-- The next step is the search of a LOGIN, and finds the user. -/
def HandlerTask.FindsUser (env : Surroundings) (s : Server) (r : UserRef) (task : HandlerTask) :
    Prop :=
  ∃ username password captcha, task = .loginScan username password captcha ∧
    env.findContaining s username = some r

/-- The REGISTER has put the name and is not answered. -/
def HandlerTask.Registering (username : JString) (task : HandlerTask) : Prop :=
  ∃ r, task = .registerReply username r

/-- The LOGIN has activated the user and is not answered. -/
def HandlerTask.LoggingIn (r : UserRef) (task : HandlerTask) : Prop :=
  task = .loginSetConnId r ∨ task = .loginReply r

/-- The task has neither put nor activated anything that is not answered. -/
def HandlerTask.Plain : HandlerTask → Prop
  | .registerReply _ _ => False
  | .loginSetConnId _ => False
  | .loginReply _ => False
  | _ => True

theorem HandlerTask.Plain.not_registering {task : HandlerTask} (h : task.Plain)
    (username : JString) : ¬ task.Registering username := by
  rintro ⟨r, rfl⟩
  exact h

theorem HandlerTask.Plain.not_loggingIn {task : HandlerTask} (h : task.Plain) (r : UserRef) :
    ¬ task.LoggingIn r := by
  rintro (rfl | rfl) <;> exact h

/-- The same accounts and flags, and a blank in everything that is new in a queue. -/
structure SameLogins (s s' : Server) : Prop where
  usersMap : s'.usersMap = s.usersMap
  nextUser : s'.nextUser = s.nextUser
  connectionsMap : s'.connectionsMap = s.connectionsMap
  username : ∀ r, (s'.user r).username = (s.user r).username
  isActivated : ∀ r, (s'.user r).isActivated = (s.user r).isActivated
  blank_mem : ∀ r, ∀ post ∈ (s'.user r).awaitingPosts,
    post ∈ (s.user r).awaitingPosts ∨ space ∈ post

theorem SameLogins.refl (s : Server) : SameLogins s s :=
  ⟨rfl, rfl, rfl, fun _ ↦ rfl, fun _ ↦ rfl, fun _ _ ↦ Or.inl⟩

/-- The possible effects of one step. -/
inductive HandlerEffect (env : Surroundings) (connectionId : ℤ) (s : Server) :
    HandlerTask → Server → HandlerTask → Prop
  | quiet {task task' : HandlerTask} {s' : Server} (hs : SameLogins s s') (hplain : task.Plain)
      (hlogout : ∀ f, task = .frame f → f.optCode = str "03" → env.findActive s connectionId = none)
      (hplain' : task'.Plain)
      (huser : ∀ r, task'.loginUser = some r → task.loginUser = some r ∨ task.FindsUser env s r) :
      HandlerEffect env connectionId s task s' task'
  | registerPut (username password birthday : JString) :
      HandlerEffect env connectionId s (.registerPut username password birthday)
        (s.putUser username (User.new username password birthday))
        (.registerReply username s.nextUser)
  | registerReply (username : JString) (r : UserRef) :
      HandlerEffect env connectionId s (.registerReply username r) s .idle
  | loginActivate (r : UserRef) :
      HandlerEffect env connectionId s (.loginActivate r) (s.modifyUser r User.activate)
        (.loginSetConnId r)
  | loginSetConnId (r : UserRef) :
      HandlerEffect env connectionId s (.loginSetConnId r)
        (s.modifyUser r (User.setConnId connectionId)) (.loginReply r)
  | loginReply (r : UserRef) :
      HandlerEffect env connectionId s (.loginReply r) s (.replayTest r)
  | logout (f : WholeFrame) (hop : f.optCode = str "03") {r : UserRef}
      (hfind : env.findActive s connectionId = some r) :
      HandlerEffect env connectionId s (.frame f) (s.modifyUser r User.deActivate) .idle

section Steps

variable {env : Surroundings} {connectionId : ℤ} {s : Server}

/-! ### Whole frames -/

theorem Effect.sameLogins {s' : Server} {op text : JString} (hop : op ∈ [str "04", str "12"])
    (h : Effect s (.request env connectionId (op ++ text)) s') : SameLogins s s' := by
  have hlen : op.length = 2 := by
    rcases List.mem_pair.1 hop with rfl | rfl <;> rfl
  have hne : ∀ {op' text' : JString} {env' c'}, op'.length = 2 →
      op' ∉ [str "04", str "12"] →
      Event.request env connectionId (op ++ text) ≠ .request env' c' (op' ++ text') := by
    intro op' text' env' c' hlen' hnot heq
    injection heq with _ _ hframe
    exact hnot ((List.append_inj hframe (hlen.trans hlen'.symm)).1 ▸ hop)
  generalize he : Event.request env connectionId (op ++ text) = e at h
  cases h
  case accept => exact absurd he nofun
  case unchanged => exact .refl s
  case register => exact absurd he (hne rfl (by decide))
  case login => exact absurd he (hne rfl (by decide))
  case logout => exact absurd he (hne rfl (by decide))
  case post => exact absurd he (hne rfl (by decide))
  case follow => exact ⟨rfl, rfl, rfl, fun r ↦ by rw [addFollow_eq_except],
    fun r ↦ by rw [addFollow_eq_except], fun r ↦ by rw [addFollow_eq_except]; exact fun _ ↦ Or.inl⟩
  case unfollow => exact ⟨rfl, rfl, rfl, fun r ↦ by rw [dropFollow_eq_except],
    fun r ↦ by rw [dropFollow_eq_except],
    fun r ↦ by rw [dropFollow_eq_except]; exact fun _ ↦ Or.inl⟩
  case block => exact ⟨by rw [blockUser_eq_user], by rw [blockUser_eq_user],
    by rw [blockUser_eq_user], fun r ↦ by rw [blockUser_eq_except],
    fun r ↦ by rw [blockUser_eq_except], fun r ↦ by rw [blockUser_eq_except]; exact fun _ ↦ Or.inl⟩

/-- A frame that is carried out in one step changes no account, and no flag unless it is a LOGOUT
that finds a user. -/
theorem dispatch_sameLogins {f : WholeFrame}
    (h : f.optCode = str "03" → env.findActive s connectionId = none) :
    SameLogins s (dispatch env connectionId s f.optCode f.text).server := by
  have hwhole : f.optCode ≠ str "01" ∧ f.optCode ≠ str "02" ∧ f.optCode ≠ str "05" := by
    simpa [steppedOpCodes] using f.whole
  obtain ⟨h₁, h₂, h₅⟩ := hwhole
  rw [dispatch, if_neg h₁, if_neg h₂, if_neg h₅]
  split_ifs with h₃ h₄ h₆ h₇ h₈ h₁₂
  · rw [(processLogout_refusal (h h₃)).server_eq]
    exact .refl s
  · exact (effect_follow f.text).sameLogins (by decide)
  · rw [processPm_server]
    exact .refl s
  · rw [processLogstat_server]
    exact .refl s
  · rw [processStat_server]
    exact .refl s
  · exact (effect_block f.text).sameLogins (by decide)
  · exact .refl s

/-! ### Steps -/

theorem HandlerEffect.of_goOn {task task' : HandlerTask} (hplain : task.Plain)
    (hframe : ∀ f, task ≠ .frame f) (hplain' : task'.Plain)
    (huser : ∀ r, task'.loginUser = some r → task.loginUser = some r ∨ task.FindsUser env s r) :
    HandlerEffect env connectionId s task (TaskStep.goOn s task').server
      (TaskStep.goOn s task').task :=
  .quiet (.refl s) hplain (fun f hf ↦ absurd hf (hframe f)) hplain' huser

theorem HandlerEffect.of_send {task : HandlerTask} (task' : HandlerTask) (c : ℤ) (msg : JString)
    (hplain : task.Plain) (hframe : ∀ f, task ≠ .frame f) (hplain' : task'.Plain)
    (huser : ∀ r, task'.loginUser = some r → task.loginUser = some r ∨ task.FindsUser env s r) :
    HandlerEffect env connectionId s task (TaskStep.send s c msg task').server
      (TaskStep.send s c msg task').task := by
  rw [TaskStep.send]
  split
  case isTrue => exact .of_goOn hplain hframe hplain' huser
  case isFalse =>
    exact .of_goOn hplain hframe trivial fun r hr ↦ absurd hr (by simp [HandlerTask.loginUser])

theorem handlerEffect_postNext (loop : PostLoop) :
    HandlerEffect env connectionId s (.postNext loop)
      (taskStep env connectionId s (.postNext loop)).server
      (taskStep env connectionId s (.postNext loop)).task := by
  rw [taskStep, postVisit]
  split
  · split
    · exact .of_goOn trivial nofun trivial nofun
    · exact .of_goOn trivial nofun trivial nofun
  · exact .of_goOn trivial nofun trivial nofun
  · exact .of_goOn trivial nofun trivial nofun

theorem handlerEffect_replayNext (loop : ReplayLoop) :
    HandlerEffect env connectionId s (.replayNext loop)
      (taskStep env connectionId s (.replayNext loop)).server
      (taskStep env connectionId s (.replayNext loop)).task := by
  rw [taskStep]
  split
  · rw [replayEntry]
    dsimp only
    split
    · exact .of_goOn trivial nofun trivial fun _ h ↦ Or.inl h
    · exact .of_goOn trivial nofun trivial nofun
  · exact .of_goOn trivial nofun trivial nofun

/-- **The step lemma.** -/
theorem handlerEffect_taskStep (env : Surroundings) (connectionId : ℤ) (s : Server)
    (task : HandlerTask) :
    HandlerEffect env connectionId s task (taskStep env connectionId s task).server
      (taskStep env connectionId s task).task := by
  cases task with
  | registerPut username password birthday => exact .registerPut username password birthday
  | registerReply username r =>
    rw [taskStep, TaskStep.send_eq_of_sendable s (by decide)]
    exact .registerReply username r
  | loginActivate r => exact .loginActivate r
  | loginSetConnId r => exact .loginSetConnId r
  | loginReply r =>
    rw [taskStep, TaskStep.send_eq_of_sendable s (by decide)]
    exact .loginReply r
  | frame f =>
    by_cases h : f.optCode = str "03" ∧ ∃ r, env.findActive s connectionId = some r
    · obtain ⟨hop, r, hfind⟩ := h
      have hserver : (dispatch env connectionId s f.optCode f.text).server =
          s.modifyUser r User.deActivate := by
        rw [hop]
        show (processLogout env connectionId s).server = _
        rw [processLogout_of_session hfind]
      rw [taskStep, hserver]
      exact .logout f hop hfind
    · have hnone : f.optCode = str "03" → env.findActive s connectionId = none := fun hop ↦
        Option.eq_none_iff_forall_ne_some.2 fun r hr ↦ h ⟨hop, r, hr⟩
      refine .quiet (dispatch_sameLogins hnone) trivial ?_ trivial nofun
      rintro f' hf'
      obtain rfl : f = f' := by simpa using hf'
      exact hnone
  | registerScan username password birthday =>
    rw [taskStep]
    split
    · exact .of_goOn trivial nofun trivial nofun
    · exact .of_goOn trivial nofun trivial nofun
  | loginScan username password captcha =>
    rw [taskStep]
    split
    · rename_i user hfind
      refine .of_goOn trivial nofun trivial fun r hr ↦ Or.inr ?_
      obtain rfl : user = r := by simpa [HandlerTask.loginUser] using hr
      exact ⟨username, password, captcha, rfl, hfind⟩
    · exact .of_goOn trivial nofun trivial nofun
  | loginCheck username password captcha user =>
    rw [taskStep]
    split
    · exact .of_goOn trivial nofun trivial fun _ h ↦ Or.inl h
    · exact .of_goOn trivial nofun trivial nofun
  | loginPut username user =>
    exact .quiet ⟨rfl, rfl, rfl, fun _ ↦ rfl, fun _ ↦ rfl, fun _ _ ↦ Or.inl⟩ trivial nofun trivial
      fun _ h ↦ Or.inl h
  | replayTest user =>
    rw [taskStep]
    split
    · exact .of_goOn trivial nofun trivial nofun
    · exact .of_goOn trivial nofun trivial fun _ h ↦ Or.inl h
  | replayNext loop => exact handlerEffect_replayNext loop
  | postFind message =>
    rw [taskStep]
    split
    · exact .of_goOn trivial nofun trivial nofun
    · exact .of_goOn trivial nofun trivial nofun
  | postNext loop => exact handlerEffect_postNext loop
  | postTest user loop =>
    rw [taskStep]
    split
    · exact .of_goOn trivial nofun trivial nofun
    · exact .of_goOn trivial nofun trivial nofun
  | postAppend user loop =>
    have hentry : ∀ r, (taskStep env connectionId s (.postAppend user loop)).server.user r =
        if r = user then (s.user user).addAwaitingPost
          ((s.user loop.myUser).username ++ [space] ++ loop.message) else s.user r := fun _ ↦ rfl
    refine .quiet ⟨rfl, rfl, rfl, fun r ↦ ?_, fun r ↦ ?_, fun r ↦ ?_⟩ trivial nofun trivial nofun
    all_goals rw [hentry]; split
    case refine_1.isTrue heq => rw [heq]; rfl
    case refine_2.isTrue heq => rw [heq]; rfl
    case refine_3.isTrue heq =>
      intro post hpost
      rcases List.mem_append.1 hpost with hold | hnew
      · exact Or.inl (heq ▸ hold)
      · rw [List.mem_singleton.1 hnew]
        exact Or.inr (by simp)
    case refine_3.isFalse => exact fun _ ↦ Or.inl
    all_goals rfl
  | answer msg =>
    exact .of_send .idle connectionId msg trivial nofun trivial nofun
  | replaySend connId content loop =>
    exact .of_send (.replayNext loop) connId _ trivial nofun trivial fun _ h ↦ Or.inl h
  | postSend connId user loop =>
    exact .of_send (.postNext loop) connId _ trivial nofun trivial nofun
  | idle => exact .of_goOn trivial nofun trivial nofun
  | replayIterator user => exact .of_goOn trivial nofun trivial fun _ h ↦ Or.inl h
  | replayConnId content loop => exact .of_goOn trivial nofun trivial fun _ h ↦ Or.inl h
  | postMentions myUser message => exact .of_goOn trivial nofun trivial nofun
  | postIterator myUser message otherUsers => exact .of_goOn trivial nofun trivial nofun
  | postConnId user loop => exact .of_goOn trivial nofun trivial nofun

/-- A frame begins with a task that has done nothing yet. -/
theorem startTask_plain (message : JString) :
    (startTask message).Plain ∧ (startTask message).loginUser = none := by
  rw [startTask]
  split
  · split_ifs
    · split <;> exact ⟨trivial, rfl⟩
    · split <;> exact ⟨trivial, rfl⟩
    · split <;> exact ⟨trivial, rfl⟩
    · exact ⟨trivial, rfl⟩
  · exact ⟨trivial, rfl⟩

end Steps

/-! ### What an effect can change -/

namespace HandlerEffect

variable {env : Surroundings} {connectionId : ℤ} {s s' : Server} {task task' : HandlerTask}
  {r : UserRef}

theorem connectionsMap_eq (h : HandlerEffect env connectionId s task s' task') :
    s'.connectionsMap = s.connectionsMap := by
  cases h with
  | quiet hs => exact hs.connectionsMap
  | _ => rfl

theorem nextUser_le (h : HandlerEffect env connectionId s task s' task') :
    s.nextUser ≤ s'.nextUser := by
  cases h with
  | quiet hs => exact hs.nextUser.ge
  | registerPut => exact Nat.le_succ _
  | _ => exact Nat.le_refl _

/-- Only `put` registers a user, under the next reference. -/
theorem registered_lt (h : HandlerEffect env connectionId s task s' task')
    (hlt : ∀ r, s.Registered r → r < s.nextUser) (hr : s'.Registered r) : r < s'.nextUser := by
  have hle := h.nextUser_le
  obtain ⟨k, hk⟩ := hr
  cases h with
  | quiet hs =>
    rw [hs.usersMap] at hk
    exact (hlt r ⟨k, hk⟩).trans_le hle
  | registerPut =>
    rcases ConcurrentMap.mem_put.1 hk with ⟨-, rfl⟩ | ⟨-, hk⟩
    · exact Nat.lt_succ_self _
    · exact (hlt r ⟨k, hk⟩).trans_le hle
  | _ => exact hlt r ⟨k, hk⟩

/-- What is about to be acknowledged has just been put. -/
theorem mem_usersMap_of_registerReply (h : HandlerEffect env connectionId s task s' task')
    {username : JString} (htask' : task' = .registerReply username r) :
    (username, r) ∈ s'.usersMap.entries := by
  cases h with
  | quiet _ _ _ hplain' => exact absurd ⟨r, htask'⟩ (hplain'.not_registering username)
  | registerPut =>
    injection htask' with hname hr
    subst hname hr
    exact ConcurrentMap.mem_put_self _ _ _
  | _ => cases htask'

/-- A LOGIN goes on with the user it has found. -/
theorem loginUser (h : HandlerEffect env connectionId s task s' task')
    (hr : task'.loginUser = some r) : task.loginUser = some r ∨ task.FindsUser env s r := by
  cases h with
  | quiet _ _ _ _ huser => exact huser r hr
  | loginActivate => exact Or.inl hr
  | loginSetConnId => exact Or.inl hr
  | loginReply => exact Or.inl hr
  | _ => exact absurd hr nofun

/-- Only the LOGIN of a user activates it. -/
theorem isActivated (h : HandlerEffect env connectionId s task s' task')
    (hr : (s'.user r).isActivated = true) :
    (s.user r).isActivated = true ∨ task.loginUser = some r := by
  cases h with
  | quiet hs => exact Or.inl (hs.isActivated r ▸ hr)
  | registerPut =>
    simp only [Server.putUser] at hr
    split at hr
    case isTrue => exact absurd hr Bool.false_ne_true
    case isFalse => exact Or.inl hr
  | loginActivate r' =>
    by_cases heq : r = r'
    · exact Or.inr (congrArg some heq.symm)
    · rw [Server.modifyUser_user, if_neg heq] at hr
      exact Or.inl hr
  | loginSetConnId r' =>
    rw [Server.modifyUser_user] at hr
    split at hr
    case isTrue heq => exact Or.inl (heq ▸ hr)
    case isFalse => exact Or.inl hr
  | logout =>
    rw [Server.modifyUser_user] at hr
    split at hr
    case isTrue => exact absurd hr Bool.false_ne_true
    case isFalse => exact Or.inl hr
  | _ => exact Or.inl hr

/-- A user is stored under its own name, and nobody is renamed. -/
theorem username_of_mem (h : HandlerEffect env connectionId s task s' task')
    (hlt : ∀ r, s.Registered r → r < s.nextUser)
    (hname : ∀ k r, (k, r) ∈ s.usersMap.entries → (s.user r).username = k) {k : JString}
    (hk : (k, r) ∈ s'.usersMap.entries) : (s'.user r).username = k := by
  -- a step that runs a method of one user that leaves the name alone
  have hmodify : ∀ f r', (∀ u : User, (f u).username = u.username) →
      (k, r) ∈ s.usersMap.entries → ((s.modifyUser r' f).user r).username = k := by
    intro f r' hf hmem
    rw [Server.modifyUser_user]
    split
    case isTrue heq => rw [hf, ← heq, hname k r hmem]
    case isFalse => exact hname k r hmem
  cases h with
  | quiet hs =>
    rw [hs.username]
    exact hname k r (hs.usersMap ▸ hk)
  | registerPut =>
    rcases ConcurrentMap.mem_put.1 hk with ⟨rfl, rfl⟩ | ⟨-, hk⟩
    · simp [Server.putUser, User.new]
    · have hne : r ≠ s.nextUser := (hlt r ⟨k, hk⟩).ne
      simp only [Server.putUser, if_neg hne]
      exact hname k r hk
  | loginActivate => exact hmodify _ _ (fun _ ↦ rfl) hk
  | loginSetConnId => exact hmodify _ _ (fun _ ↦ rfl) hk
  | logout => exact hmodify _ _ (fun _ ↦ rfl) hk
  | _ => exact hname k r hk

/-- What is queued has a blank. -/
theorem blank_mem (h : HandlerEffect env connectionId s task s' task')
    (hblank : ∀ post ∈ (s.user r).awaitingPosts, space ∈ post) :
    ∀ post ∈ (s'.user r).awaitingPosts, space ∈ post := by
  have hmodify : ∀ f r', (∀ u : User, (f u).awaitingPosts = u.awaitingPosts) →
      ((s.modifyUser r' f).user r).awaitingPosts = (s.user r).awaitingPosts := by
    intro f r' hf
    rw [Server.modifyUser_user]
    split
    case isTrue heq => rw [hf, heq]
    case isFalse => rfl
  intro post hpost
  cases h with
  | quiet hs => exact (hs.blank_mem r post hpost).elim (hblank post) id
  | registerPut =>
    simp only [Server.putUser] at hpost
    split at hpost
    case isTrue => exact absurd hpost List.not_mem_nil
    case isFalse => exact hblank post hpost
  | loginActivate => exact hblank post (hmodify User.activate _ (fun _ ↦ rfl) ▸ hpost)
  | loginSetConnId =>
    exact hblank post (hmodify (User.setConnId connectionId) _ (fun _ ↦ rfl) ▸ hpost)
  | logout => exact hblank post (hmodify User.deActivate _ (fun _ ↦ rfl) ▸ hpost)
  | _ => exact hblank post hpost

end HandlerEffect

end SplNet
