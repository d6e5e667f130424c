import SplNet.Properties.ConcurrentAccounts
import SplNet.Srv.PostAndLogin

/-!
# A POST while a follower logs in

POST looks at the flag of a follower before it queues the post for him, or reads where to send it,
and LOGIN sets the flag before it stores the connection and looks through the queue. So a post can
be queued behind the last place the LOGIN looks at, and it can be sent to the connection of an
earlier session (`post_lost`).

**A post reaches the new connection exactly when the decision of the POST is in time** (`InTime`):
when it queues the post, the LOGIN has not yet looked beyond the end of the queue; when it reads
where to send, the LOGIN has stored its connection (`notified_iff_inTime`).

The run has exactly one decision for the follower (`exists_decision`). A queued post is ahead of the
LOGIN until it is sent, and a place that is not ahead never comes to be.
-/

namespace SplNet

open Java LabelledMachine

/-! ### The law -/

/-- The step finds `u` as the author of the POST on a connection. -/
def FindsAuthor (c : ℤ) (u : UserRef) (σ : Handlers) (e : HandlerEvent) : Prop :=
  ∃ env message, e = .step env c ∧ σ.task c = .postFind message ∧
    env.findActive σ.server c = some u

/-- The handler of `c` carries out an accepted POST by `u` while the handler of `d` carries out an
acknowledged LOGIN of the follower `v`, who was offline; nothing else happens, and both are done in
the end. -/
structure PostAndLogin (mode : ServerMode) (σ : Handlers) (c d : ℤ) (u v : UserRef)
    (message : JString) (es : List HandlerEvent) : Prop where
  reachable : (startedHandlers mode).Reachable σ
  post : σ.task c = .postFind message
  login : ∃ username password captcha, σ.task d = .loginScan username password captcha
  follower : u ∈ (σ.server.user v).followers
  offline : (σ.server.user v).isActivated = false
  steps : ∀ e ∈ es, ∃ env, e = .step env c ∨ e = .step env d
  accepted : (handlersMachine σ).Once (FindsAuthor c u) es
  acknowledged : (handlersMachine σ).Once (AcksLogin v) es
  completed : ((handlersMachine σ).stateAfter es).task c = .idle ∧
    ((handlersMachine σ).stateAfter es).task d = .idle

/-- The POST on `c` sends the notification for `v` to `d`. -/
def SendsPost (c d : ℤ) (u v : UserRef) (message : JString) (σ : Handlers) (e : HandlerEvent) :
    Prop :=
  ∃ env connId loop, e = .step env c ∧ σ.task c = .postSend connId v loop ∧
    (d, notification (str "091") (σ.server.user u).username message) ∈ (σ.stepOf env c).sent

/-- The POST on `c` queues the post for `v`, in the place `n`. -/
def QueuesPost (c : ℤ) (u v : UserRef) (message : JString) (n : ℕ) (post : JString)
    (σ : Handlers) (e : HandlerEvent) : Prop :=
  ∃ env loop, e = .step env c ∧ σ.task c = .postAppend v loop ∧
    post = (σ.server.user u).username ++ [space] ++ message ∧
    (σ.server.user v).awaitingPosts.length = n

/-- The LOGIN on `d` sends the queued post in the place `n`. -/
def SendsQueued (d : ℤ) (v : UserRef) (n : ℕ) (post : JString) (σ : Handlers) (e : HandlerEvent) :
    Prop :=
  ∃ env, e = .step env d ∧ SendsPlace v n post σ.server d (σ.task d) (σ.stepOf env d).sent

/-- **The notification of the post has been sent to `d`**, by the POST, or by the LOGIN from the
queue to which the POST has added it. -/
def Notified (σ : Handlers) (c d : ℤ) (u v : UserRef) (message : JString)
    (es : List HandlerEvent) : Prop :=
  (handlersMachine σ).Once (SendsPost c d u v message) es ∨
    ∃ n post, (handlersMachine σ).Once (QueuesPost c u v message n post) es ∧
      (handlersMachine σ).Once (SendsQueued d v n post) es

/-- The next step of a POST is no decision for `v`, or it is in time for the LOGIN of `v` on `d`. -/
def DecidesInTime (d : ℤ) (v : UserRef) (s : Server) (login : HandlerTask) :
    HandlerTask → Prop
  | .postAppend r _ => r = v → login.Ahead (s.user v).awaitingPosts.length
  | .postConnId r _ => r = v → (s.user v).connId = d
  | _ => True

/-- The step is none of the POST on `c`, or in time. -/
def InTime (c d : ℤ) (v : UserRef) (σ : Handlers) : HandlerEvent → Prop
  | .step _ k => k = c → DecidesInTime d v σ.server (σ.task d) (σ.task c)
  | _ => True

instance (d : ℤ) (v : UserRef) (s : Server) (login : HandlerTask) :
    ∀ task, Decidable (DecidesInTime d v s login task)
  | .postAppend r _ => inferInstanceAs (Decidable (r = v → _))
  | .postConnId r _ => inferInstanceAs (Decidable (r = v → _))
  | .idle | .frame _ | .answer _ | .registerScan _ _ _ | .registerPut _ _ _ | .registerReply _ _
  | .loginScan _ _ _ | .loginCheck _ _ _ _ | .loginPut _ _ | .loginActivate _ | .loginSetConnId _
  | .loginReply _ | .replayTest _ | .replayIterator _ | .replayNext _ | .replayConnId _ _
  | .replaySend _ _ _ | .postFind _ | .postMentions _ _ | .postIterator _ _ _ | .postNext _
  | .postTest _ _ | .postSend _ _ _ => isTrue trivial

instance (c d : ℤ) (v : UserRef) (σ : Handlers) : ∀ e, Decidable (InTime c d v σ e)
  | .step _ k => inferInstanceAs (Decidable (k = c → _))
  | .accept => isTrue trivial
  | .request _ _ => isTrue trivial

/-- The handler is at work on nothing that can turn into a LOGIN of `v`. -/
def HandlerTask.Elsewhere (v : UserRef) (task : HandlerTask) : Prop :=
  task.loginUser ≠ some v ∧ ∀ username password captcha,
    task ≠ .loginScan username password captcha

theorem HandlerTask.Elsewhere.step {env : Surroundings} {c : ℤ} {s : Server} {v : UserRef}
    {task : HandlerTask} (h : task.Elsewhere v) : (taskStep env c s task).task.Elsewhere v := by
  refine ⟨fun huser ↦ ?_, fun username password captcha heq ↦ ?_⟩
  · rcases (handlerEffect_taskStep env c s task).loginUser huser with hold | ⟨_, _, _, heq, -⟩
    · exact h.1 hold
    · exact h.2 _ _ _ heq
  · exact not_initial_of_eq heq trivial

/-! ### The run -/

namespace PostAndLogin

variable {mode : ServerMode} {σ : Handlers} {c d : ℤ} {u v : UserRef} {message : JString}
  {es : List HandlerEvent} (h : PostAndLogin mode σ c d u v message es)

include h

theorem ne : c ≠ d := by
  rintro rfl
  obtain ⟨_, _, _, hlogin⟩ := h.login
  exact absurd (h.post.symm.trans hlogin) nofun

/-- Every event is a step of one of the two handlers. -/
theorem cases_event {pre : List HandlerEvent} {e : HandlerEvent} (hocc : Occurs es pre e) :
    ∃ env, e = .step env c ∨ e = .step env d :=
  h.steps e (hocc.subset (List.mem_append_right _ (List.mem_singleton_self e)))

/-- What every step of a handler keeps of its task is kept. -/
theorem task_persists {P : HandlerTask → Prop} {k : ℤ}
    (hP : ∀ env s task, P task → P (taskStep env k s task).task) {start pre : List HandlerEvent}
    (hstart : P (((handlersMachine σ).stateAfter start).task k)) (hle : start <+: pre)
    (hpre : pre <+: es) : P (((handlersMachine σ).stateAfter pre).task k) := by
  refine persists_along (P := fun τ : Handlers ↦ P (τ.task k)) hstart (fun pre e _ hocc hτ ↦ ?_)
    hle hpre
  have hstep : ∀ env k', P (((handlersMachine σ).next ((handlersMachine σ).stateAfter pre)
      (.step env k')).task k) := by
    intro env k'
    rw [next_step_task]
    split
    case isTrue heq => exact heq ▸ hP env _ _ hτ
    case isFalse => exact hτ
  obtain ⟨env, rfl | rfl⟩ := h.cases_event hocc
  · exact hstep env c
  · exact hstep env d

/-- The search for the author finds `u`. -/
theorem author_found {pre : List HandlerEvent} {env : Surroundings}
    (hocc : Occurs es pre (.step env c)) {m : JString}
    (htask : ((handlersMachine σ).stateAfter pre).task c = .postFind m) :
    env.findActive ((handlersMachine σ).stateAfter pre).server c = some u := by
  -- there is only one step that begins a POST
  have honce : ∀ {pre pre' env m}, Occurs es pre' (.step env c) → pre' ++ [.step env c] <+: pre →
      pre <+: es → ((handlersMachine σ).stateAfter pre).task c ≠ .postFind m := by
    intro pre pre' env m _ hlt hpre heq
    refine h.task_persists (P := fun task ↦ ¬ task.Initial) (k := c)
      (fun env s task _ ↦ not_initial_taskStep) ?_ hlt hpre (heq ▸ trivial)
    rw [stateAfter_concat, next_step_task, if_pos rfl]
    exact not_initial_taskStep
  obtain ⟨pre₀, e₀, hocc₀, env₀, m₀, rfl, htask₀, hfind⟩ := h.accepted
  rcases hocc.trichotomy hocc₀ with rfl | hlt | hlt
  · injection hocc.event_eq hocc₀ with henv
    exact henv ▸ hfind
  · exact absurd htask₀ (honce hocc hlt hocc₀.before)
  · exact absurd htask (honce hocc₀ hlt hocc.before)

/-- The acknowledgement is sent by the handler of `d`. -/
theorem exists_reply : ∃ pre env, Occurs es pre (.step env d) ∧
    ((handlersMachine σ).stateAfter pre).task d = .loginReply v := by
  obtain ⟨pre, e, hocc, env, k, rfl, htask, -⟩ := h.acknowledged
  obtain ⟨env', heq | heq⟩ := h.cases_event hocc
  · injection heq with _ hk
    subst hk
    have hstart : (((handlersMachine σ).stateAfter []).task k).Elsewhere v := by
      show (σ.task k).Elsewhere v
      rw [h.post]
      exact ⟨nofun, nofun⟩
    have helse := h.task_persists (P := fun task ↦ task.Elsewhere v)
      (fun env s task ↦ HandlerTask.Elsewhere.step) hstart List.nil_prefix hocc.before
    exact absurd (congrArg HandlerTask.loginUser htask) helse.1
  · injection heq with _ hk
    subst hk
    exact ⟨pre, env, hocc, htask⟩

/-- The LOGIN finds `v` and accepts. -/
theorem login_goes_on {pre : List HandlerEvent} {env : Surroundings}
    (hocc : Occurs es pre (.step env d))
    (hundecided : (((handlersMachine σ).stateAfter pre).task d).Undecided) :
    (((handlersMachine σ).stateAfter pre).stepOf env d).task.loginUser = some v := by
  obtain ⟨pre₀, env₀, hocc₀, htask₀⟩ := h.exists_reply
  rcases hocc.trichotomy hocc₀ with rfl | hlt | hlt
  · rw [htask₀] at hundecided
    exact absurd hundecided id
  · by_contra huser
    have hstart : (((handlersMachine σ).stateAfter (pre ++ [.step env d])).task d).Elsewhere v := by
      rw [stateAfter_concat, next_step_task, if_pos rfl]
      exact ⟨huser, fun _ _ _ heq ↦ not_initial_of_eq heq trivial⟩
    have helse := h.task_persists (P := fun task ↦ task.Elsewhere v)
      (fun env s task ↦ HandlerTask.Elsewhere.step) hstart hlt hocc₀.before
    exact absurd (congrArg HandlerTask.loginUser htask₀) helse.1
  · have hstart :
        (((handlersMachine σ).stateAfter (pre₀ ++ [.step env₀ d])).task d).Replaying := by
      rw [stateAfter_concat, next_step_task, if_pos rfl, Handlers.stepOf, htask₀]
      exact TaskStep.send_task_of (P := HandlerTask.Replaying) trivial trivial
    have hreplay := h.task_persists (P := HandlerTask.Replaying)
      (fun env s task ↦ HandlerTask.Replaying.step) hstart hlt hocc.before
    revert hundecided hreplay
    generalize ((handlersMachine σ).stateAfter pre).task d = task
    cases task <;> intro hundecided hreplay <;> trivial

/-- What holds between any two steps. -/
structure Midway (σ : Handlers) (c d : ℤ) (u v : UserRef) (message : JString) (τ : Handlers) :
    Prop where
  sound : τ.Sound
  grows : σ.server.Grows τ.server
  posting : Posting u v message (τ.task c)
  login : LoginOf v d τ.server (τ.task d)

omit h in
theorem Midway.follower {τ : Handlers} (hτ : Midway σ c d u v message τ)
    (h : u ∈ (σ.server.user v).followers) : u ∈ (τ.server.user v).followers := by
  rw [hτ.grows.followers]
  exact h

/-- **Between any two steps** each handler is at work on its frame. -/
theorem midway {pre : List HandlerEvent} (hpre : pre <+: es) :
    Midway σ c d u v message ((handlersMachine σ).stateAfter pre) := by
  refine invariant_along (P := fun τ ↦ Midway σ c d u v message τ) ?_ (fun pre e hocc hτ ↦ ?_) hpre
  · obtain ⟨username, password, captcha, hlogin⟩ := h.login
    refine ⟨Handlers.sound_of_reachable h.reachable, .refl _, ?_, ?_⟩
    · exact (show σ.task c = _ from h.post) ▸ .find
    · exact (show σ.task d = _ from hlogin) ▸ .scan username password captcha
  · obtain ⟨env, rfl | rfl⟩ := h.cases_event hocc
    · -- the POST goes on: the LOGIN sees a longer queue at most
      obtain ⟨hgrows, hconn⟩ := hτ.posting.server env c ((handlersMachine σ).stateAfter pre).server
      refine ⟨hτ.sound.next _, hτ.grows.trans hgrows, ?_, ?_⟩
      · rw [next_step_task, if_pos rfl]
        exact (hτ.posting.step (fun m ↦ h.author_found hocc) (hτ.follower h.follower)).1
      · rw [next_step_task, if_neg (Ne.symm h.ne)]
        exact hτ.login.mono hgrows (hconn v)
    · have hgrows := hτ.login.grows env
      refine ⟨hτ.sound.next _, hτ.grows.trans hgrows, ?_, ?_⟩
      · rw [next_step_task, if_neg h.ne]
        exact hτ.posting
      · rw [next_step_task, if_pos rfl]
        exact hτ.login.step (h.login_goes_on hocc) (hτ.sound.blank_mem v)

/-- The follower is registered, as the LOGIN finds him. -/
theorem registered {pre : List HandlerEvent} (hpre : pre <+: es) :
    ((handlersMachine σ).stateAfter pre).server.Registered v := by
  obtain ⟨pre₀, env₀, hocc₀, htask₀⟩ := h.exists_reply
  obtain ⟨username, password, captcha, hlogin⟩ := h.login
  have hinit : ¬ (σ.task d).loginUser = some v := by
    rw [hlogin]
    nofun
  obtain ⟨pre', e, hocc', hbefore, hafter⟩ := exists_occurs_of_change (M := handlersMachine σ)
    (P := fun τ : Handlers ↦ (τ.task d).loginUser = some v) hinit
    (congrArg HandlerTask.loginUser htask₀)
  have hocc := hocc'.mono hocc₀.before
  obtain ⟨env, rfl | rfl⟩ := h.cases_event hocc
  · rw [next_step_task, if_neg (Ne.symm h.ne)] at hafter
    exact absurd hafter hbefore
  · rw [next_step_task, if_pos rfl] at hafter
    have hfinds := ((handlerEffect_taskStep env d _ _).loginUser hafter).resolve_left hbefore
    obtain ⟨_, _, _, -, hfind⟩ := hfinds
    have hreg := (Surroundings.findContaining_eq_some hfind).1
    -- nobody registers meanwhile
    rw [Server.Registered, (h.midway hocc.before).grows.usersMap] at hreg
    rw [Server.Registered, (h.midway hpre).grows.usersMap]
    exact hreg

/-- The step of the POST decides what it does for `v`. -/
def Decision (c : ℤ) (v : UserRef) (τ : Handlers) (e : HandlerEvent) : Prop :=
  ∃ env, e = .step env c ∧ (τ.task c).Decides v

/-- **The POST decides exactly once** what it does for `v`. -/
theorem exists_decision : ∃ pre e, Occurs es pre e ∧
    Decision c v ((handlersMachine σ).stateAfter pre) e ∧
      ∀ pre' e', Occurs es pre' e' → Decision c v ((handlersMachine σ).stateAfter pre') e' →
        pre' = pre := by
  refine countdown (f := fun τ : Handlers ↦ (τ.task c).visits v) ?_ ?_ fun pre e hocc ↦ ?_
  · show (σ.task c).visits v = 1
    rw [h.post]
    rfl
  · show (((handlersMachine σ).stateAfter es).task c).visits v = 0
    rw [h.completed.1]
    rfl
  · have hτ := h.midway hocc.before
    obtain ⟨env, rfl | rfl⟩ := h.cases_event hocc
    · have hstep := (hτ.posting.step (fun m ↦ h.author_found hocc) (hτ.follower h.follower)).2
        (hτ.sound.count_users (h.registered hocc.before) env)
      simp only [next_step_task, if_pos]
      refine hstep.imp (And.imp_left fun hdec ↦ ⟨env, rfl, hdec⟩) (And.imp_left ?_)
      rintro hnot ⟨_, _, hdec⟩
      exact hnot hdec
    · refine Or.inr ⟨?_, ?_⟩
      · rintro ⟨_, heq, -⟩
        injection heq with _ hdc
        exact h.ne hdc.symm
      · simp only [next_step_task, if_neg h.ne]

/-- The connection of the LOGIN is accepted. -/
theorem connected {pre : List HandlerEvent} (hpre : pre <+: es) :
    d ∈ ((handlersMachine σ).stateAfter pre).server.connectionsMap := by
  obtain ⟨username, password, captcha, hlogin⟩ := h.login
  rw [(h.midway hpre).grows.connectionsMap]
  refine (Handlers.sound_of_reachable h.reachable).connected d ?_
  rw [hlogin]
  nofun

/-- What the POST has decided to send to `d` is sent there before the POST is done. -/
theorem once_sendsPost {start : List HandlerEvent} {loop : PostLoop} (hstart : start <+: es)
    (htask : ((handlersMachine σ).stateAfter start).task c = .postSend d v loop) :
    (handlersMachine σ).Once (SendsPost c d u v message) es := by
  by_contra hnot
  have hkept : ((handlersMachine σ).stateAfter es).task c = .postSend d v loop := by
    refine persists_along (P := fun τ : Handlers ↦ τ.task c = .postSend d v loop) htask
      (fun pre e _ hocc hτ ↦ ?_) hstart List.prefix_rfl
    obtain ⟨env, rfl | rfl⟩ := h.cases_event hocc
    · refine absurd ⟨pre, _, hocc, env, d, loop, rfl, hτ, ?_⟩ hnot
      have hposting := (h.midway hocc.before).posting
      rw [hτ] at hposting
      rw [Handlers.stepOf, hτ]
      cases hposting
      rw [taskStep, TaskStep.send_eq_of_sendable _ (sendable_notification _ rfl rfl)]
      exact Server.mem_delivery.2 ⟨rfl, rfl, h.connected hocc.before⟩
    · rw [next_step_task, if_neg h.ne]
      exact hτ
  exact absurd (hkept.symm.trans h.completed.1) (by simp)

/-- What is in a place that is ahead of the LOGIN is sent to `d` before the LOGIN is done. -/
theorem once_sendsQueued {start : List HandlerEvent} {n : ℕ} {post : JString}
    (hstart : start <+: es)
    (hpost : (((handlersMachine σ).stateAfter start).server.user v).awaitingPosts[n]? = some post)
    (hahead : (((handlersMachine σ).stateAfter start).task d).Ahead n) :
    (handlersMachine σ).Once (SendsQueued d v n post) es := by
  by_contra hnot
  have hkept : (((handlersMachine σ).stateAfter es).server.user v).awaitingPosts[n]? = some post ∧
      (((handlersMachine σ).stateAfter es).task d).Ahead n := by
    refine persists_along (P := fun τ : Handlers ↦
      (τ.server.user v).awaitingPosts[n]? = some post ∧ (τ.task d).Ahead n) ⟨hpost, hahead⟩
      (fun pre e _ hocc hτ ↦ ?_) hstart List.prefix_rfl
    have hmid := h.midway hocc.before
    obtain ⟨env, rfl | rfl⟩ := h.cases_event hocc
    · refine ⟨(hmid.posting.server env c _).1.getElem?_eq_some hτ.1, ?_⟩
      rw [next_step_task, if_neg (Ne.symm h.ne)]
      exact hτ.2
    · refine ⟨(hmid.login.grows env).getElem?_eq_some hτ.1, ?_⟩
      rw [next_step_task, if_pos rfl]
      refine (hmid.login.ahead_step (h.login_goes_on hocc) (hmid.sound.blank_mem v)
        (h.connected hocc.before) hτ.1 hτ.2).resolve_right fun hsends ↦ hnot ?_
      exact ⟨pre, _, hocc, env, rfl, hsends⟩
  rw [h.completed.2] at hkept
  exact hkept.2

/-- A place that the LOGIN has behind it when the post comes there is not sent later. -/
theorem ahead_of_sendsQueued {start pre : List HandlerEvent} {e : HandlerEvent} {n : ℕ}
    {post : JString} (hstart : start <+: es) (hocc : Occurs es pre e)
    (hlen : (((handlersMachine σ).stateAfter start).server.user v).awaitingPosts.length = n)
    (hsends : SendsQueued d v n post ((handlersMachine σ).stateAfter pre) e) :
    (((handlersMachine σ).stateAfter start).task d).Ahead n := by
  obtain ⟨env, rfl, hpost, k, content, loop, htask, hindex, -⟩ := hsends
  have hahead : (((handlersMachine σ).stateAfter pre).task d).Ahead n := by
    rw [htask]
    exact Or.inl hindex
  rcases List.prefix_or_prefix_of_prefix hstart hocc.before with hle | hle
  · by_contra hnot
    exact h.task_persists (P := fun task ↦ ¬ task.Ahead n) (k := d)
      (fun env s task ↦ not_ahead_step) hnot hle hocc.before hahead
  · -- the place was filled before, so the queue was longer
    have hthere := persists_along (M := handlersMachine σ)
      (P := fun τ : Handlers ↦ (τ.server.user v).awaitingPosts[n]? = some post) hpost
      (fun pre e _ hocc hτ ↦ ?_) hle hstart
    · have := (List.getElem?_eq_some_iff.1 hthere).1
      omega
    · have hmid := h.midway hocc.before
      obtain ⟨env, rfl | rfl⟩ := h.cases_event hocc
      · exact (hmid.posting.server env c _).1.getElem?_eq_some hτ
      · exact (hmid.login.grows env).getElem?_eq_some hτ

/-- The POST sends to `d` only if it has read `d` as the connection. -/
theorem decision_of_sendsPost {pre : List HandlerEvent} {e : HandlerEvent}
    (hocc : Occurs es pre e)
    (hsends : SendsPost c d u v message ((handlersMachine σ).stateAfter pre) e) :
    ∃ pre' env' loop', Occurs es pre' (.step env' c) ∧
      ((handlersMachine σ).stateAfter pre').task c = .postConnId v loop' ∧
        (((handlersMachine σ).stateAfter pre').server.user v).connId = d := by
  obtain ⟨env, k, loop, rfl, htask, hsent⟩ := hsends
  have hmid := h.midway hocc.before
  have hk : d = k := by
    have hposting := hmid.posting
    rw [htask] at hposting
    rw [Handlers.stepOf, htask] at hsent
    cases hposting
    rw [taskStep, TaskStep.send_eq_of_sendable _ (sendable_notification _ rfl rfl)] at hsent
    exact (Server.mem_delivery.1 hsent).1
  subst hk
  have hinit : ¬ σ.task c = .postSend d v loop := by simp [h.post]
  obtain ⟨pre', e', hocc', hbefore, hafter⟩ := exists_occurs_of_change (M := handlersMachine σ)
    (P := fun τ : Handlers ↦ τ.task c = .postSend d v loop) hinit htask
  have hocc'' := hocc'.mono hocc.before
  obtain ⟨env', rfl | rfl⟩ := h.cases_event hocc''
  · rw [next_step_task, if_pos rfl] at hafter
    obtain ⟨hconn, hd⟩ := (h.midway hocc''.before).posting.of_postSend hafter
    exact ⟨pre', env', loop, hocc'', hconn, hd.symm⟩
  · rw [next_step_task, if_neg h.ne] at hafter
    exact absurd hafter hbefore

end PostAndLogin

/-- **A post of which a follower is notified while he logs in** is one whose decision is in time. -/
theorem notified_iff_inTime (mode : ServerMode) (σ : Handlers) (c d : ℤ) (u v : UserRef)
    (message : JString) (es : List HandlerEvent) (h : PostAndLogin mode σ c d u v message es) :
    Notified σ c d u v message es ↔
      ∀ pre e, Occurs es pre e → InTime c d v ((handlersMachine σ).stateAfter pre) e := by
  obtain ⟨pre₀, e₀, hocc₀, ⟨env₀, rfl, hdecides⟩, hunique⟩ := h.exists_decision
  -- any decision of the run is this one
  have hsame : ∀ {pre env}, Occurs es pre (.step env c) →
      (((handlersMachine σ).stateAfter pre).task c).Decides v → pre = pre₀ :=
    fun hocc hdec ↦ hunique _ _ hocc ⟨_, rfl, hdec⟩
  have hmid := h.midway hocc₀.before
  constructor
  · intro hnotified pre e hocc
    obtain ⟨env, rfl | rfl⟩ := h.cases_event hocc
    case inr => exact fun hdc ↦ absurd hdc.symm h.ne
    intro _
    cases htask : ((handlersMachine σ).stateAfter pre).task c with
    | postAppend r loop =>
      rintro rfl
      have hpre : pre = pre₀ := hsame hocc (by rw [htask]; rfl)
      rcases hnotified with ⟨pre₁, e₁, hocc₁, hsends⟩ | ⟨n, post, hqueues, hsends⟩
      · -- the POST would have decided a second time
        obtain ⟨pre₂, env₂, loop₂, hocc₂, hconn, -⟩ := h.decision_of_sendsPost hocc₁ hsends
        have hpre₂ : pre₂ = pre₀ := hsame hocc₂ (by rw [hconn]; rfl)
        rw [hpre₂, ← hpre, htask] at hconn
        cases hconn
      · obtain ⟨pre₁, e₁, hocc₁, env₁, loop₁, rfl, hqueue, -, hlen⟩ := hqueues
        have hpre₁ : pre₁ = pre₀ := hsame hocc₁ (by rw [hqueue]; rfl)
        rw [hpre₁, ← hpre] at hlen
        obtain ⟨pre₂, e₂, hocc₂, hsends⟩ := hsends
        rw [hlen]
        exact h.ahead_of_sendsQueued hocc.before hocc₂ hlen hsends
    | postConnId r loop =>
      rintro rfl
      have hpre : pre = pre₀ := hsame hocc (by rw [htask]; rfl)
      rcases hnotified with ⟨pre₁, e₁, hocc₁, hsends⟩ | ⟨n, post, hqueues, -⟩
      · obtain ⟨pre₂, env₂, loop₂, hocc₂, hconn, hd⟩ := h.decision_of_sendsPost hocc₁ hsends
        have hpre₂ : pre₂ = pre₀ := hsame hocc₂ (by rw [hconn]; rfl)
        rw [hpre, ← hpre₂]
        exact hd
      · obtain ⟨pre₁, e₁, hocc₁, env₁, loop₁, rfl, hqueue, -⟩ := hqueues
        have hpre₁ : pre₁ = pre₀ := hsame hocc₁ (by rw [hqueue]; rfl)
        rw [hpre₁, ← hpre, htask] at hqueue
        cases hqueue
    | _ => trivial
  · intro hintime
    have hdecision := hintime pre₀ _ hocc₀ rfl
    have hposting := hmid.posting
    cases htask : ((handlersMachine σ).stateAfter pre₀).task c with
    | postAppend r loop =>
      rw [htask] at hdecides hdecision hposting
      obtain rfl : r = v := hdecides
      cases hposting
      -- the step puts the post behind the queue, and leaves the LOGIN where it is
      have hqueued : (((handlersMachine σ).stateAfter (pre₀ ++ [.step env₀ c])).server.user
          r).awaitingPosts = (((handlersMachine σ).stateAfter pre₀).server.user r).awaitingPosts ++
            [(((handlersMachine σ).stateAfter pre₀).server.user u).username ++ [space] ++
              message] := by
        rw [stateAfter_concat, next_step_server, Handlers.stepOf, htask, taskStep,
          Server.modifyUser_user, if_pos rfl]
        rfl
      refine Or.inr ⟨_, _, ⟨pre₀, _, hocc₀, env₀, _, rfl, htask, rfl, rfl⟩,
        h.once_sendsQueued hocc₀ ?_ ?_⟩
      · rw [hqueued]
        exact List.getElem?_concat_length
      · rw [stateAfter_concat, next_step_task, if_neg (Ne.symm h.ne)]
        exact hdecision rfl
    | postConnId r loop =>
      rw [htask] at hdecides hdecision
      obtain rfl : r = v := hdecides
      have hsending : ((handlersMachine σ).stateAfter (pre₀ ++ [.step env₀ c])).task c =
          .postSend d r loop := by
        rw [stateAfter_concat, next_step_task, if_pos rfl, Handlers.stepOf, htask]
        exact congrArg (HandlerTask.postSend · r loop) (hdecision rfl)
      exact Or.inl (h.once_sendsPost hocc₀ hsending)
    | _ =>
      rw [htask] at hdecides
      exact absurd hdecides id

/-! ### Two lost posts -/

/-- Alice and Bob register and log in on the connections 0 and 2. Bob follows Alice and logs out.
Then Alice posts, while Bob logs in on the connection 1. -/
def beforePostAndLogin : List HandlerEvent :=
  [.accept, .accept, .accept,
    .request 0 (str "01alice\x00a\x0001-01-1990\x00"), .go 0, .go 0, .go 0,
    .request 2 (str "01bob\x00b\x0002-02-1990\x00"), .go 2, .go 2, .go 2,
    .request 0 (str "02alice\x00a\x001"), .go 0, .go 0, .go 0, .go 0, .go 0, .go 0, .go 0,
    .request 2 (str "02bob\x00b\x001"), .go 2, .go 2, .go 2, .go 2, .go 2, .go 2, .go 2,
    .request 2 (str "040alice\x00"), .go 2, .request 2 (str "03"), .go 2,
    .request 0 (str "05hi\x00"), .request 1 (str "02bob\x00b\x001")]

/-- The post is queued when the LOGIN has found the queue empty. -/
def lateAppend : List HandlerEvent :=
  [0, 0, 0, 0, 0, 1, 1, 1, 1, 1, 1, 1, 0, 0, 0, 0].map .go

/-- The post is sent to the connection of the last session. -/
def staleConnId : List HandlerEvent :=
  [1, 1, 1, 1, 0, 0, 0, 0, 0, 0, 0, 0, 0, 0, 1, 1, 1].map .go

/-- The post is queued before the LOGIN begins. -/
def postFirst : List HandlerEvent :=
  [0, 0, 0, 0, 0, 0, 0, 0, 0, 1, 1, 1, 1, 1, 1, 1, 1, 1, 1, 1, 1].map .go

/-- The handlers when Alice's POST and Bob's LOGIN are taken up. -/
def postAndLogin (mode : ServerMode) : Handlers :=
  (startedHandlers mode).stateAfter beforePostAndLogin

/-- Alice's POST and Bob's LOGIN are taken up, and Bob is a follower of Alice who is offline. -/
theorem postAndLogin_begins (mode : ServerMode) :
    (postAndLogin mode).task 0 = .postFind (str "hi") ∧
      (postAndLogin mode).task 1 = .loginScan (str "bob") (str "b") (str "1") ∧
      0 ∈ ((postAndLogin mode).server.user 1).followers ∧
      ((postAndLogin mode).server.user 1).isActivated = false := by
  cases mode <;> decide +kernel

/-- Alice's POST and Bob's LOGIN go on in the given order: the POST finds its author behind `found`,
the LOGIN is acknowledged behind `acked`, and both are done in the end. The facts are one statement,
so that the run is evaluated once. -/
theorem postAndLogin_go (mode : ServerMode) {ks : List ℤ} (hks : ∀ k ∈ ks, k = 0 ∨ k = 1)
    (found acked : List HandlerEvent) (hfound : Occurs (ks.map .go) found (.go 0))
    (hacked : Occurs (ks.map .go) acked (.go 1))
    (hfacts :
      (((handlersMachine (postAndLogin mode)).stateAfter found).task 0 = .postFind (str "hi") ∧
        Surroundings.listed.findActive
          ((handlersMachine (postAndLogin mode)).stateAfter found).server 0 = some 0) ∧
      (((handlersMachine (postAndLogin mode)).stateAfter acked).task 1 = .loginReply 1 ∧
        (1, str "1002") ∈
          (((handlersMachine (postAndLogin mode)).stateAfter acked).stepOf .listed 1).sent) ∧
      ((handlersMachine (postAndLogin mode)).stateAfter (ks.map .go)).task 0 = .idle ∧
        ((handlersMachine (postAndLogin mode)).stateAfter (ks.map .go)).task 1 = .idle) :
    PostAndLogin mode (postAndLogin mode) 0 1 0 1 (str "hi") (ks.map .go) := by
  obtain ⟨hpost, hlogin, hfollower, hoffline⟩ := postAndLogin_begins mode
  obtain ⟨⟨htask, hauthor⟩, ⟨hreply, hsent⟩, hcompleted⟩ := hfacts
  refine ⟨⟨_, rfl⟩, hpost, ⟨_, _, _, hlogin⟩, hfollower, hoffline, ?_,
    ⟨found, .go 0, hfound, .listed, _, rfl, htask, hauthor⟩,
    ⟨acked, .go 1, hacked, .listed, 1, rfl, hreply, hsent⟩, hcompleted⟩
  intro e he
  obtain ⟨k, hk, rfl⟩ := List.mem_map.1 he
  exact ⟨.listed, (hks k hk).imp (congrArg _) (congrArg _)⟩

theorem postAndLogin_lateAppend (mode : ServerMode) :
    PostAndLogin mode (postAndLogin mode) 0 1 0 1 (str "hi") lateAppend :=
  postAndLogin_go mode (by decide) [] (lateAppend.take 10) ⟨_, rfl⟩ ⟨_, rfl⟩
    (by cases mode <;> decide +kernel)

theorem postAndLogin_staleConnId (mode : ServerMode) :
    PostAndLogin mode (postAndLogin mode) 0 1 0 1 (str "hi") staleConnId :=
  postAndLogin_go mode (by decide) (staleConnId.take 4) (staleConnId.take 15) ⟨_, rfl⟩
    ⟨_, rfl⟩ (by cases mode <;> decide +kernel)

theorem postAndLogin_postFirst :
    PostAndLogin .threadPerClient (postAndLogin .threadPerClient) 0 1 0 1 (str "hi") postFirst :=
  postAndLogin_go .threadPerClient (by decide) [] (postFirst.take 14) ⟨_, rfl⟩ ⟨_, rfl⟩
    (by decide +kernel)

/-- A run that sends nothing but the acknowledgement to the new connection does not notify. -/
theorem not_notified {σ : Handlers} {c d : ℤ} {u v : UserRef} {message : JString}
    {es : List HandlerEvent}
    (h : ∀ o ∈ (handlersMachine σ).outputs es, ∀ m ∈ o, m.1 = d → m.2 = str "1002") :
    ¬ Notified σ c d u v message es := by
  -- a notification begins with another character
  have hnone : ∀ {pre e name content}, Occurs es pre e →
      (d, notification (str "091") name content) ∉
        (handlersMachine σ).output ((handlersMachine σ).stateAfter pre) e := by
    intro pre e name content hocc hmem
    have heq := h _ (hocc.mem_outputs (handlersMachine σ)) _ hmem rfl
    exact absurd (List.cons.inj heq).1 (by decide)
  rintro (⟨pre, e, hocc, env, k, loop, rfl, -, hsent⟩ |
    ⟨n, post, -, pre, e, hocc, env, rfl, -, k, content, loop, -, -, name, hsent⟩)
  · exact hnone hocc hsent
  · exact hnone hocc hsent

theorem not_notified_lateAppend (mode : ServerMode) :
    ¬ Notified (postAndLogin mode) 0 1 0 1 (str "hi") lateAppend :=
  not_notified (by cases mode <;> decide +kernel)

theorem not_notified_staleConnId (mode : ServerMode) :
    ¬ Notified (postAndLogin mode) 0 1 0 1 (str "hi") staleConnId :=
  not_notified (by cases mode <;> decide +kernel)

/-- **In both runs Bob is never told of the post**, in both modes. -/
theorem post_lost :
    (PostAndLogin .threadPerClient (postAndLogin .threadPerClient) 0 1 0 1 (str "hi") lateAppend ∧
      ¬ Notified (postAndLogin .threadPerClient) 0 1 0 1 (str "hi") lateAppend) ∧
    (PostAndLogin .reactor (postAndLogin .reactor) 0 1 0 1 (str "hi") lateAppend ∧
      ¬ Notified (postAndLogin .reactor) 0 1 0 1 (str "hi") lateAppend) ∧
    (PostAndLogin .threadPerClient (postAndLogin .threadPerClient) 0 1 0 1 (str "hi") staleConnId ∧
      ¬ Notified (postAndLogin .threadPerClient) 0 1 0 1 (str "hi") staleConnId) ∧
    PostAndLogin .reactor (postAndLogin .reactor) 0 1 0 1 (str "hi") staleConnId ∧
      ¬ Notified (postAndLogin .reactor) 0 1 0 1 (str "hi") staleConnId :=
  ⟨⟨postAndLogin_lateAppend _, not_notified_lateAppend _⟩,
    ⟨postAndLogin_lateAppend _, not_notified_lateAppend _⟩,
    ⟨postAndLogin_staleConnId _, not_notified_staleConnId _⟩,
    postAndLogin_staleConnId _, not_notified_staleConnId _⟩

theorem notified_iff_inTime_postFirst :
    Notified (postAndLogin .threadPerClient) 0 1 0 1 (str "hi") postFirst :=
  (notified_iff_inTime .threadPerClient _ 0 1 0 1 (str "hi") postFirst
    postAndLogin_postFirst).2 (forall_occurs (by decide +kernel))

end SplNet
