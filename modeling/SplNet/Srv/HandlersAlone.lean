import SplNet.Api.Spec.Messages
import SplNet.Srv.Handlers

/-!
# A handler that runs alone

The steps of `HandlerTask` are the steps of `process`: when the other handlers rest, a handler that
takes up a frame leaves the store `process` leaves and sends what `process` sends (`alone_process`).
The loops are followed from any point on, so each is one induction over what it has still to visit.
-/

namespace SplNet

open Java

/-- The handler of a connection finishes its task while the others rest. -/
inductive RunsAlone (env : Surroundings) (connectionId : ℤ) :
    Server → HandlerTask → Server → List (ℤ × JString) → Prop
  | idle (s : Server) : RunsAlone env connectionId s .idle s []
  | step {s s' : Server} {task : HandlerTask} {sent : List (ℤ × JString)}
      (h : RunsAlone env connectionId (taskStep env connectionId s task).server
        (taskStep env connectionId s task).task s' sent) :
      RunsAlone env connectionId s task s' ((taskStep env connectionId s task).sent ++ sent)

/-- From this task on the handler, alone, does what the outcome says. -/
def Performs (env : Surroundings) (connectionId : ℤ) (s : Server) (task : HandlerTask)
    (o : Outcome) : Prop :=
  RunsAlone env connectionId s task o.server o.sent

section Alone

variable {env : Surroundings} {connectionId : ℤ} {s : Server} {task task' : HandlerTask}

/-! ### One step -/

theorem RunsAlone.of_eq {t : TaskStep} {s' : Server} {sent : List (ℤ × JString)}
    (h : taskStep env connectionId s task = t)
    (hrest : RunsAlone env connectionId t.server t.task s' sent) :
    RunsAlone env connectionId s task s' (t.sent ++ sent) := by
  subst h
  exact .step hrest

theorem performs_done (s : Server) : Performs env connectionId s .idle (.done s) := .idle s

theorem performs_throws (s : Server) (e : JException) :
    Performs env connectionId s .idle (.throws s e) := .idle s

/-- A step that sends nothing. -/
theorem Performs.of_step {s' : Server} {o : Outcome}
    (h : taskStep env connectionId s task = ⟨s', task', []⟩)
    (hrest : Performs env connectionId s' task' o) : Performs env connectionId s task o :=
  RunsAlone.of_eq h hrest

/-- A step that only reads. -/
theorem Performs.of_goOn {o : Outcome} (h : taskStep env connectionId s task = .goOn s task')
    (hrest : Performs env connectionId s task' o) : Performs env connectionId s task o :=
  .of_step h hrest

/-- A step that sends, with what is done unless the send throws. -/
theorem Performs.of_send {c : ℤ} {msg : JString} {f : Server → Outcome}
    (h : taskStep env connectionId s task = .send s c msg task')
    (hrest : Performs env connectionId s task' (f s)) :
    Performs env connectionId s task ((s.send c msg).andThen f) := by
  have hserver := s.send_server c msg
  rw [TaskStep.send] at h
  rcases hsend : s.send c msg with ⟨s', sent, - | e⟩
  · rw [hsend] at hserver h
    obtain rfl : s' = s := hserver
    exact RunsAlone.of_eq h hrest
  · -- nothing is done behind the exception
    rw [hsend] at hserver h
    obtain rfl : s' = s := hserver
    have hlast := RunsAlone.of_eq h (.idle s')
    rw [List.append_nil] at hlast
    exact hlast

/-- A last step that sends. -/
theorem Performs.of_last {c : ℤ} {msg : JString}
    (h : taskStep env connectionId s task = .send s c msg .idle) :
    Performs env connectionId s task (s.send c msg) := by
  have hlast := Performs.of_send h (f := .done) (performs_done s)
  rwa [Outcome.andThen_done] at hlast

section

variable (env connectionId s)

theorem performs_answer (msg : JString) :
    Performs env connectionId s (.answer msg) (s.send connectionId msg) :=
  .of_last rfl

/-! ### REGISTER and LOGIN -/

theorem performs_register (username password birthday : JString) :
    Performs env connectionId s (.registerScan username password birthday)
      (if (env.users s).any fun r ↦ contains (s.user r).username username then
        s.send connectionId (str "1101")
      else (s.putUser username (User.new username password birthday)).send connectionId
        (str "1001")) := by
  by_cases h : (env.users s).any fun r ↦ contains (s.user r).username username
  · rw [if_pos h]
    exact .of_step (if_pos h) (performs_answer _ _ _ _)
  · rw [if_neg h]
    exact .of_step (if_neg h) (.of_step rfl (.of_last rfl))

/-- The replay loop from any entry on. -/
theorem performs_replay {connectionId : ℤ} {s : Server} {r : UserRef}
    (hconn : (s.user r).connId = connectionId) (index : ℕ) (senderName : JString) (limit : ℕ) :
    Performs env connectionId s
      (.replayNext ⟨r, index, (s.user r).awaitingPosts[index]?, senderName, limit⟩)
      (replay connectionId senderName limit s ((s.user r).awaitingPosts.drop index)) := by
  generalize hposts : (s.user r).awaitingPosts.drop index = posts
  induction posts generalizing index senderName limit with
  | nil =>
    have hnone : (s.user r).awaitingPosts[index]? = none :=
      List.getElem?_eq_none (List.drop_eq_nil_iff.1 hposts)
    rw [hnone]
    exact .of_step rfl (performs_done s)
  | cons post posts ih =>
    have hsome : (s.user r).awaitingPosts[index]? = some post := by
      rw [← List.head?_drop, hposts]
      rfl
    have htail : (s.user r).awaitingPosts.drop (index + 1) = posts := by
      rw [← List.tail_drop, hposts]
      rfl
    rw [hsome, replay]
    rcases hscan : replayScan senderName limit 0 post with ⟨senderName', limit'⟩
    rcases hcut : substringFrom post limit' with e | content <;> simp only [hcut]
    · refine .of_step ?_ (performs_throws s e)
      simp only [taskStep, replayEntry, hscan, hcut]
      rfl
    · have hentry : taskStep env connectionId s
          (.replayNext ⟨r, index, some post, senderName, limit⟩) =
          .goOn s (.replayConnId content
            ⟨r, index + 1, (s.user r).awaitingPosts[index + 1]?, senderName', limit'⟩) := by
        simp only [taskStep, replayEntry, hscan, hcut]
      refine .of_goOn hentry (.of_goOn rfl
        (.of_send ?_ (ih (index + 1) senderName' limit' htail)))
      show TaskStep.send s (s.user r).connId _ _ = _
      rw [hconn]

/-- An accepted LOGIN behind its check. -/
theorem performs_session (username : JString) (r : UserRef) :
    Performs env connectionId s (.loginPut username r)
      (((startSession connectionId s username r).send connectionId (str "1002")).andThen fun s ↦
        replay connectionId [] 0 s (s.user r).awaitingPosts) := by
  have hstart : (((s.putActiveUser username r).modifyUser r User.activate).modifyUser r
      (User.setConnId connectionId)) = startSession connectionId s username r := by
    rw [Server.modifyUser_modifyUser]
    rfl
  have hconn : ((startSession connectionId s username r).user r).connId = connectionId := by
    rw [startSession_user, if_pos rfl]
    rfl
  have hset : taskStep env connectionId ((s.putActiveUser username r).modifyUser r User.activate)
      (.loginSetConnId r) = ⟨startSession connectionId s username r, .loginReply r, []⟩ := by
    rw [← hstart]
    rfl
  refine .of_step rfl (.of_step rfl (.of_step hset
    (.of_send rfl (?_ : Performs _ _ _ (.replayTest r) _))))
  by_cases hnil : ((startSession connectionId s username r).user r).awaitingPosts = []
  · rw [hnil]
    exact .of_step (if_pos hnil) (performs_done _)
  · exact .of_goOn (if_neg hnil) (.of_goOn rfl (performs_replay env hconn 0 [] 0))

theorem performs_login (username password captcha : JString) :
    Performs env connectionId s (.loginScan username password captcha)
      (match env.findContaining s username with
      | some user =>
        if (s.user user).password = password ∧ captcha = str "1" ∧
            (s.user user).isActivated = false then
          ((startSession connectionId s username user).send connectionId (str "1002")).andThen
            fun s ↦ replay connectionId [] 0 s (s.user user).awaitingPosts
        else s.send connectionId (str "1102")
      | none => s.send connectionId (str "1102")) := by
  rcases hfind : env.findContaining s username with - | user
  · refine .of_step ?_ (performs_answer _ _ _ _)
    simp only [taskStep, hfind]
    rfl
  · have hcheck : taskStep env connectionId s (.loginScan username password captcha) =
        .goOn s (.loginCheck username password captcha user) := by
      simp only [taskStep, hfind]
    refine .of_goOn hcheck ?_
    by_cases h : (s.user user).password = password ∧ captcha = str "1" ∧
        (s.user user).isActivated = false
    · simp only [if_pos h]
      exact .of_goOn (if_pos h) (performs_session _ _ _ username user)
    · simp only [if_neg h]
      exact .of_goOn (if_neg h) (performs_answer _ _ _ _)

/-! ### POST -/

/-- One delivery, and what is done behind it. -/
theorem performs_visit (loop : PostLoop) (r : UserRef) (f : Server → Outcome)
    (hrest : Performs env connectionId
      (deliverPost (s.user loop.myUser).username loop.message s r).server (.postNext loop)
      (f (deliverPost (s.user loop.myUser).username loop.message s r).server)) :
    Performs env connectionId s (.postTest r loop)
      ((deliverPost (s.user loop.myUser).username loop.message s r).andThen f) := by
  by_cases h : (s.user r).isActivated = false
  · rw [deliverPost, if_pos h] at hrest ⊢
    rw [Outcome.done, Outcome.andThen_of_none, List.nil_append]
    exact .of_goOn (if_pos h) (.of_step rfl hrest)
  · rw [deliverPost, if_neg h] at hrest ⊢
    rw [Server.send_server] at hrest
    exact .of_goOn (if_neg h) (.of_goOn rfl (.of_send rfl hrest))

/-- A delivery renames nobody, and changes nobody's list. -/
theorem deliverPost_user (author message : JString) (r r' : UserRef) :
    ((deliverPost author message s r).server.user r').username = (s.user r').username ∧
      ((deliverPost author message s r).server.user r').followers = (s.user r').followers := by
  rw [deliverPost_eq, queuePost_eq_except]
  exact ⟨rfl, rfl⟩

/-- The loop over the mentioned users. -/
theorem performs_others (my : UserRef) (message : JString) (others : List UserRef) :
    Performs env connectionId s (.postNext ⟨my, message, [], others⟩)
      ((Outcome.forEach (deliverPost (s.user my).username message) s others).andThen fun s ↦
        s.send connectionId (str "1005")) := by
  induction others generalizing s with
  | nil =>
    simp only [Outcome.forEach, Outcome.done, Outcome.andThen_of_none, List.nil_append]
    exact .of_goOn rfl (performs_answer env connectionId s (str "1005"))
  | cons r others ih =>
    have hrest := ih (deliverPost (s.user my).username message s r).server
    rw [(deliverPost_user s _ _ r my).1] at hrest
    rw [Outcome.forEach, Outcome.andThen_assoc]
    exact .of_goOn rfl (performs_visit env connectionId s ⟨my, message, [], others⟩ r
      (fun s' ↦ (Outcome.forEach (deliverPost (s.user my).username message) s' others).andThen
        fun s' ↦ s'.send connectionId (str "1005")) hrest)

/-- The follower loop, with the loop over the mentioned users behind it. -/
theorem performs_followers (my : UserRef) (message : JString) (users others : List UserRef) :
    Performs env connectionId s (.postNext ⟨my, message, users, others⟩)
      ((Outcome.forEach (deliverPost (s.user my).username message) s
          (users.filter fun r ↦ my ∈ (s.user r).followers)).andThen fun s' ↦
        (Outcome.forEach (deliverPost (s.user my).username message) s' others).andThen fun s ↦
          s.send connectionId (str "1005")) := by
  induction users generalizing s with
  | nil => exact performs_others env connectionId s my message others
  | cons r users ih =>
    by_cases h : my ∈ (s.user r).followers
    · have hrest := ih (deliverPost (s.user my).username message s r).server
      simp only [deliverPost_user] at hrest
      rw [List.filter_cons_of_pos (by simpa using h), Outcome.forEach, Outcome.andThen_assoc]
      refine .of_goOn ?_ (performs_visit env connectionId s ⟨my, message, users, others⟩ r _ hrest)
      simp only [taskStep, postVisit, if_pos h]
    · rw [List.filter_cons_of_neg (by simpa using h)]
      refine .of_goOn ?_ (ih s)
      simp only [taskStep, postVisit, if_neg h]

theorem performs_post (message : JString) :
    Performs env connectionId s (.postFind message)
      (match env.findActive s connectionId with
      | some myUser =>
        (Outcome.forEach (deliverPost (s.user myUser).username message) s
          ((env.users s).filter fun r ↦ myUser ∈ (s.user r).followers)).andThen fun s' ↦
        (Outcome.forEach (deliverPost (s.user myUser).username message) s'
          (dropFollowers s myUser (mentionedUsers env s message))).andThen fun s' ↦
          s'.send connectionId (str "1005")
      | none => s.send connectionId (str "1105")) := by
  rcases hfind : env.findActive s connectionId with - | myUser
  · refine .of_goOn ?_ (performs_answer _ _ _ _)
    simp only [taskStep, hfind]
  · have hmentions : taskStep env connectionId s (.postFind message) =
        .goOn s (.postMentions myUser message) := by
      simp only [taskStep, hfind]
    exact .of_goOn hmentions (.of_goOn rfl (.of_goOn rfl (performs_followers _ _ _ _ _ _ _)))

/-! ### Whole frames -/

theorem performs_frame (f : WholeFrame) :
    Performs env connectionId s (.frame f) (dispatch env connectionId s f.optCode f.text) := by
  have hlast : RunsAlone env connectionId s (.frame f)
      (dispatch env connectionId s f.optCode f.text).server
      ((dispatch env connectionId s f.optCode f.text).sent ++ []) := .of_eq rfl (.idle _)
  rwa [List.append_nil] at hlast

/-- A handler that runs alone does what `process` does. -/
theorem performs_process (message : JString) :
    Performs env connectionId s (startTask message) (process env connectionId s message) := by
  rw [startTask, process]
  rcases substring message 0 2 with e | optCode
  · exact performs_throws s e
  rcases substringFrom message 2 with e | text
  · exact performs_throws s e
  by_cases h₁ : optCode = str "01"
  · subst h₁
    simp only [dif_pos]
    rw [dispatch, if_pos rfl, processRegister]
    rcases split text nul with - | ⟨username, - | ⟨password, - | ⟨birthday, rest⟩⟩⟩
    · exact performs_throws s _
    · exact performs_throws s _
    · exact performs_throws s _
    · exact performs_register env connectionId s username password birthday
  by_cases h₂ : optCode = str "02"
  · subst h₂
    simp only [dif_neg h₁, dif_pos]
    rw [dispatch, if_neg h₁, if_pos rfl, processLogin]
    rcases split text nul with - | ⟨username, - | ⟨password, - | ⟨captcha, rest⟩⟩⟩
    · exact performs_throws s _
    · exact performs_throws s _
    · exact performs_throws s _
    · have hlogin := performs_login env connectionId s username password captcha
      dsimp only
      rcases hfind : env.findContaining s username with - | user
      · rw [hfind] at hlogin
        exact hlogin
      · rw [hfind] at hlogin
        convert hlogin
  by_cases h₅ : optCode = str "05"
  · subst h₅
    simp only [dif_neg h₁, dif_neg h₂, dif_pos]
    show Performs env connectionId s _ (processPost env connectionId s text)
    rw [processPost]
    rcases substring text 0 (text.length - 1) with e | text
    · exact performs_throws s e
    · exact performs_post env connectionId s text
  · simp only [dif_neg h₁, dif_neg h₂, dif_neg h₅]
    exact performs_frame env connectionId s _

end

/-! ### In the machine -/

theorem Handlers.assign_assign (σ : Handlers) (c : ℤ) (t t' : HandlerTask) :
    (σ.assign c t).assign c t' = σ.assign c t' := by
  have htask : ((σ.assign c t).assign c t').task = (σ.assign c t').task := by
    funext c'
    simp only [Handlers.assign]
    split <;> rfl
  exact congrArg (Handlers.mk σ.server) htask

theorem Handlers.assign_idle_resting (s : Server) (c : ℤ) :
    (Handlers.resting s).assign c .idle = .resting s := by
  have htask : ((Handlers.resting s).assign c .idle).task = (Handlers.resting s).task := by
    funext c'
    simp only [Handlers.assign, Handlers.resting]
    split <;> rfl
  exact congrArg (Handlers.mk s) htask

/-- The steps of one handler, from any of its tasks to the end. -/
theorem RunsAlone.exists_steps {s' : Server} {sent : List (ℤ × JString)} (σ₀ : Handlers)
    (h : RunsAlone env connectionId s task s' sent) :
    ∃ n, (List.replicate n (HandlerEvent.step env connectionId)).foldl (handlersMachine σ₀).next
        ((Handlers.resting s).assign connectionId task) = .resting s' ∧
      ((handlersMachine σ₀).outputsFrom ((Handlers.resting s).assign connectionId task)
        (List.replicate n (.step env connectionId))).flatten = sent := by
  induction h with
  | idle s => exact ⟨0, Handlers.assign_idle_resting s connectionId, rfl⟩
  | @step s s' task sent h ih =>
    obtain ⟨n, hstate, hsent⟩ := ih
    have htask : ((Handlers.resting s).assign connectionId task).stepOf env connectionId =
        taskStep env connectionId s task := by
      simp [Handlers.stepOf, Handlers.assign, Handlers.resting]
    have hnext : (handlersMachine σ₀).next ((Handlers.resting s).assign connectionId task)
        (.step env connectionId) =
        (Handlers.resting (taskStep env connectionId s task).server).assign connectionId
          (taskStep env connectionId s task).task := by
      show Handlers.assign _ _ _ = _
      rw [htask]
      exact Handlers.assign_assign (.resting (taskStep env connectionId s task).server) _ _ _
    have houtput : (handlersMachine σ₀).output ((Handlers.resting s).assign connectionId task)
        (.step env connectionId) = (taskStep env connectionId s task).sent := by
      show TaskStep.sent _ = _
      rw [htask]
    refine ⟨n + 1, ?_, ?_⟩
    · rw [List.replicate_succ, List.foldl_cons, hnext]
      exact hstate
    · rw [List.replicate_succ, LabelledMachine.outputsFrom, hnext, houtput, List.flatten_cons,
        hsent]

/-- **One frame alone.** When a connection with a handler is the only one that does something, the
steps of its handler for a frame end in the store `process` leaves, with every handler idle again,
and send what `process` sends. -/
theorem alone_process (env : Surroundings) {connectionId : ℤ} {s : Server} (σ₀ : Handlers)
    (hmem : connectionId ∈ s.connectionsMap) (message : JString) :
    ∃ n, (HandlerEvent.request connectionId message ::
          List.replicate n (.step env connectionId)).foldl (handlersMachine σ₀).next (.resting s) =
        .resting (process env connectionId s message).server ∧
      ((handlersMachine σ₀).outputsFrom (.resting s) (.request connectionId message ::
          List.replicate n (.step env connectionId))).flatten =
        (process env connectionId s message).sent := by
  obtain ⟨n, hstate, hsent⟩ := (performs_process env connectionId s message).exists_steps σ₀
  have hstep : handlersStep (.resting s) (.request connectionId message) =
      ((Handlers.resting s).assign connectionId (startTask message), []) := if_pos ⟨hmem, rfl⟩
  refine ⟨n, ?_, ?_⟩
  · rw [← hstate]
    show List.foldl _ (handlersStep (.resting s) (.request connectionId message)).1 _ = _
    rw [hstep]
  · rw [← hsent]
    show List.flatten ((handlersStep (.resting s) (.request connectionId message)).2 ::
      (handlersMachine σ₀).outputsFrom
        (handlersStep (.resting s) (.request connectionId message)).1 _) = _
    rw [hstep]
    rfl

end Alone

end SplNet
