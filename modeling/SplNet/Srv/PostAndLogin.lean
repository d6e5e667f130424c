import SplNet.Api.Spec.Messages
import SplNet.Srv.HandlerInvariant

/-!
# The tasks of a POST and of a LOGIN

What the handler of a POST by `u` still has to do for a follower `v` (`Posting`), what the handler
of a LOGIN of `v` knows of the queue of `v` (`LoginOf`), and what one step of each does to both.
Nothing is said here about the order of their steps.

* A POST decides once what it does for `v`: `visits` counts the decisions it has still to make, and
  goes down by one at a decision and at no other step (`Posting.step`).
* A LOGIN has the entry in one place of the queue `Ahead` of it until it sends it
  (`LoginOf.ahead_step`), and never again once it has passed it (`not_ahead_step`).
-/

namespace SplNet

open Java

/-- The store keeps the accounts, the connections and the follow lists, and queues only grow. -/
structure Server.Grows (s s' : Server) : Prop where
  usersMap : s'.usersMap = s.usersMap
  connectionsMap : s'.connectionsMap = s.connectionsMap
  followers : ∀ r, (s'.user r).followers = (s.user r).followers
  awaitingPosts : ∀ r, (s.user r).awaitingPosts <+: (s'.user r).awaitingPosts

theorem Server.Grows.refl (s : Server) : s.Grows s :=
  ⟨rfl, rfl, fun _ ↦ rfl, fun _ ↦ List.prefix_rfl⟩

theorem Server.Grows.trans {s s' s'' : Server} (h : s.Grows s') (h' : s'.Grows s'') :
    s.Grows s'' where
  usersMap := h'.usersMap.trans h.usersMap
  connectionsMap := h'.connectionsMap.trans h.connectionsMap
  followers r := (h'.followers r).trans (h.followers r)
  awaitingPosts r := (h.awaitingPosts r).trans (h'.awaitingPosts r)

/-- A method that leaves the list alone and only adds to the queue. -/
theorem Server.Grows.modifyUser (s : Server) (r : UserRef) {f : User → User}
    (hfollowers : ∀ u : User, (f u).followers = u.followers)
    (hposts : ∀ u : User, u.awaitingPosts <+: (f u).awaitingPosts) :
    s.Grows (s.modifyUser r f) := by
  refine ⟨rfl, rfl, fun r' ↦ ?_, fun r' ↦ ?_⟩
  all_goals rw [Server.modifyUser_user]
  · split
    case isTrue heq => rw [hfollowers, heq]
    case isFalse => rfl
  · split
    case isTrue heq => exact heq ▸ hposts _
    case isFalse => exact List.prefix_rfl

/-- What is in a place of a queue stays in that place. -/
theorem Server.Grows.getElem?_eq_some {s s' : Server} (h : s.Grows s') {r : UserRef} {i : ℕ}
    {post : JString} (hpost : (s.user r).awaitingPosts[i]? = some post) :
    (s'.user r).awaitingPosts[i]? = some post := by
  obtain ⟨hlt, -⟩ := List.getElem?_eq_some_iff.1 hpost
  obtain ⟨rest, hrest⟩ := h.awaitingPosts r
  rw [← hrest, List.getElem?_append_left hlt, hpost]

/-- What holds of no task, and of the one behind a send, holds behind the step that sends. -/
theorem TaskStep.send_task_of {P : HandlerTask → Prop} {s : Server} {k : ℤ} {m : JString}
    {task : HandlerTask} (hidle : P .idle) (htask : P task) :
    P (TaskStep.send s k m task).task := by
  rw [TaskStep.send]
  split
  · exact htask
  · exact hidle

/-- What holds of no task, and of the tasks that send an entry, holds behind `it.next()`. -/
theorem replayEntry_task_of {P : HandlerTask → Prop} {s : Server} {loop : ReplayLoop}
    {post : JString} (hidle : P .idle)
    (hentry : ∀ content loop', loop'.index = loop.index + 1 → P (.replayConnId content loop')) :
    P (replayEntry s loop post).task := by
  simp only [replayEntry]
  split
  · exact hentry _ _ rfl
  · exact hidle

/-! ### POST -/

/-- The task of a POST by `u`, whose mentioned users do not include `v`. -/
inductive Posting (u v : UserRef) (message : JString) : HandlerTask → Prop
  | find : Posting u v message (.postFind message)
  | mentions : Posting u v message (.postMentions u message)
  | iterator {others : List UserRef} (h : v ∉ others) :
      Posting u v message (.postIterator u message others)
  | next {users others : List UserRef} (h : v ∉ others) :
      Posting u v message (.postNext ⟨u, message, users, others⟩)
  | test (r : UserRef) {users others : List UserRef} (h : v ∉ others) :
      Posting u v message (.postTest r ⟨u, message, users, others⟩)
  | append (r : UserRef) {users others : List UserRef} (h : v ∉ others) :
      Posting u v message (.postAppend r ⟨u, message, users, others⟩)
  | connId (r : UserRef) {users others : List UserRef} (h : v ∉ others) :
      Posting u v message (.postConnId r ⟨u, message, users, others⟩)
  | send (k : ℤ) (r : UserRef) {users others : List UserRef} (h : v ∉ others) :
      Posting u v message (.postSend k r ⟨u, message, users, others⟩)
  | answer : Posting u v message (.answer (str "1005"))
  | idle : Posting u v message .idle

/-- How often a POST has still to decide what it does for a follower. -/
def HandlerTask.visits (v : UserRef) : HandlerTask → ℕ
  | .postFind _ => 1
  | .postMentions _ _ => 1
  | .postIterator _ _ _ => 1
  | .postNext loop => loop.users.count v
  | .postTest r loop => (r :: loop.users).count v
  | .postAppend r loop => (r :: loop.users).count v
  | .postConnId r loop => (r :: loop.users).count v
  | .postSend _ _ loop => loop.users.count v
  | _ => 0

/-- The next step queues the post for the follower, or reads where to send it. -/
def HandlerTask.Decides (v : UserRef) : HandlerTask → Prop
  | .postAppend r _ => r = v
  | .postConnId r _ => r = v
  | _ => False

section Post

variable {env : Surroundings} {c : ℤ} {s : Server} {u v : UserRef} {message : JString}
  {task : HandlerTask}

/-- A POST changes nothing but queues. -/
theorem Posting.server (h : Posting u v message task) (env : Surroundings) (c : ℤ) (s : Server) :
    s.Grows (taskStep env c s task).server ∧
      ∀ r, ((taskStep env c s task).server.user r).connId = (s.user r).connId := by
  have hsame : ∀ s', s' = s → s.Grows s' ∧ ∀ r, (s'.user r).connId = (s.user r).connId := by
    rintro s' rfl
    exact ⟨.refl s', fun _ ↦ rfl⟩
  cases h with
  | find =>
    refine hsame _ ?_
    rw [taskStep]
    split <;> rfl
  | test =>
    refine hsame _ ?_
    rw [taskStep]
    split <;> rfl
  | append r =>
    refine ⟨.modifyUser s r (fun _ ↦ rfl) fun u ↦ List.prefix_append _ _, fun r' ↦ ?_⟩
    rw [taskStep, Server.modifyUser_user]
    split
    case isTrue heq => rw [heq]; rfl
    case isFalse => rfl
  | _ => exact hsame _ rfl

/-- A step that decides nothing and leaves the users to be visited as they are. -/
theorem posting_next {P : Prop} (task' : HandlerTask) (hposting : Posting u v message task')
    (hnot : ¬ task.Decides v) (hvisits : P → task'.visits v = task.visits v) :
    Posting u v message task' ∧ (P → task.Decides v ∧ task'.visits v + 1 = task.visits v ∨
      ¬ task.Decides v ∧ task'.visits v = task.visits v) :=
  ⟨hposting, fun h ↦ Or.inr ⟨hnot, hvisits h⟩⟩

/-- **One step of a POST** by `u`: a decision for the follower is one decision less to make. -/
theorem Posting.step (h : Posting u v message task)
    (hfind : ∀ m, task = .postFind m → env.findActive s c = some u)
    (hfollows : u ∈ (s.user v).followers) :
    Posting u v message (taskStep env c s task).task ∧ ((env.users s).count v = 1 →
      task.Decides v ∧ (taskStep env c s task).task.visits v + 1 = task.visits v ∨
        ¬ task.Decides v ∧ (taskStep env c s task).task.visits v = task.visits v) := by
  cases h with
  | find =>
    rw [taskStep, hfind message rfl]
    exact posting_next _ .mentions id fun _ ↦ rfl
  | mentions =>
    have hnot : v ∉ dropFollowers s u (mentionedUsers env s message) := by
      rw [dropFollowers_eq_filter]
      intro hmem
      exact of_decide_eq_true (List.mem_filter.1 hmem).2 hfollows
    exact posting_next _ (.iterator hnot) id fun _ ↦ rfl
  | iterator hnot => exact posting_next _ (.next hnot) id id
  | @next users others hnot =>
    rw [taskStep, postVisit]
    rcases users with - | ⟨r, users⟩
    · rcases others with - | ⟨r, others⟩
      · exact posting_next _ .answer id fun _ ↦ rfl
      · have hne : v ≠ r := fun heq ↦ hnot (heq ▸ List.mem_cons_self)
        refine posting_next _ (.test r fun hmem ↦ hnot (List.mem_cons_of_mem _ hmem)) id fun _ ↦ ?_
        exact List.count_cons_of_ne (Ne.symm hne)
    · by_cases hr : u ∈ (s.user r).followers
      · simp only [if_pos hr]
        exact posting_next _ (.test r hnot) id fun _ ↦ rfl
      · have hne : v ≠ r := by
          rintro rfl
          exact hr hfollows
        simp only [if_neg hr]
        exact posting_next _ (.next hnot) id fun _ ↦ (List.count_cons_of_ne (Ne.symm hne)).symm
  | test r hnot =>
    rw [taskStep]
    split
    · exact posting_next _ (.append r hnot) id fun _ ↦ rfl
    · exact posting_next _ (.connId r hnot) id fun _ ↦ rfl
  | @append r users others hnot =>
    refine ⟨.next hnot, fun _ ↦ ?_⟩
    by_cases heq : r = v
    · exact Or.inl ⟨heq, heq ▸ List.count_cons_self.symm⟩
    · exact Or.inr ⟨heq, (List.count_cons_of_ne heq).symm⟩
  | @connId r users others hnot =>
    refine ⟨.send _ r hnot, fun _ ↦ ?_⟩
    by_cases heq : r = v
    · exact Or.inl ⟨heq, heq ▸ List.count_cons_self.symm⟩
    · exact Or.inr ⟨heq, (List.count_cons_of_ne heq).symm⟩
  | send k r hnot =>
    rw [taskStep, TaskStep.send_eq_of_sendable s (sendable_notification _ rfl rfl)]
    exact posting_next _ (.next hnot) id fun _ ↦ rfl
  | answer =>
    rw [taskStep, TaskStep.send_eq_of_sendable s (by decide)]
    exact posting_next _ .idle id fun _ ↦ rfl
  | idle => exact posting_next _ .idle id fun _ ↦ rfl

/-- A POST sends where it has read that the user is. -/
theorem Posting.of_postSend (h : Posting u v message task) {k : ℤ} {r : UserRef} {loop : PostLoop}
    (heq : (taskStep env c s task).task = .postSend k r loop) :
    task = .postConnId r loop ∧ k = (s.user r).connId := by
  cases h with
  | find =>
    rw [taskStep] at heq
    split at heq <;> cases heq
  | next =>
    rw [taskStep, postVisit] at heq
    repeat' split at heq
    all_goals cases heq
  | test =>
    rw [taskStep] at heq
    split at heq <;> cases heq
  | connId r' =>
    cases heq
    exact ⟨rfl, rfl⟩
  | send =>
    rw [taskStep, TaskStep.send_eq_of_sendable s (sendable_notification _ rfl rfl)] at heq
    cases heq
  | answer =>
    rw [taskStep, TaskStep.send_eq_of_sendable s (by decide)] at heq
    cases heq
  | _ => cases heq

end Post

/-! ### LOGIN -/

/-- The replay loop goes through the queue of `v`, whose connection is `d`, and the entry it has
fetched is the one in its place. -/
structure LoopOf (v : UserRef) (d : ℤ) (s : Server) (loop : ReplayLoop) : Prop where
  connId : (s.user v).connId = d
  user : loop.user = v
  nextItem : ∀ post, loop.nextItem = some post → (s.user v).awaitingPosts[loop.index]? = some post

/-- The text of a queued post behind the name of its author. -/
def postContent (post : JString) : JString := (post.dropWhile (· ≠ space)).tail

/-- The content is that of the entry the loop has just handed out. -/
def ContentOf (v : UserRef) (s : Server) (content : JString) (loop : ReplayLoop) : Prop :=
  ∃ place post, loop.index = place + 1 ∧ (s.user v).awaitingPosts[place]? = some post ∧
    content = postContent post

/-- The task of a LOGIN of `v` on the connection `d`. -/
inductive LoginOf (v : UserRef) (d : ℤ) (s : Server) : HandlerTask → Prop
  | scan (username password captcha : JString) :
      LoginOf v d s (.loginScan username password captcha)
  | check (username password captcha : JString) :
      LoginOf v d s (.loginCheck username password captcha v)
  | put (username : JString) : LoginOf v d s (.loginPut username v)
  | activate : LoginOf v d s (.loginActivate v)
  | setConnId : LoginOf v d s (.loginSetConnId v)
  | reply (h : (s.user v).connId = d) : LoginOf v d s (.loginReply v)
  | test (h : (s.user v).connId = d) : LoginOf v d s (.replayTest v)
  | iterator (h : (s.user v).connId = d) (hposts : (s.user v).awaitingPosts ≠ []) :
      LoginOf v d s (.replayIterator v)
  | next {loop : ReplayLoop} (h : LoopOf v d s loop) : LoginOf v d s (.replayNext loop)
  | connId {content : JString} {loop : ReplayLoop} (h : LoopOf v d s loop)
      (hcontent : ContentOf v s content loop) : LoginOf v d s (.replayConnId content loop)
  | send {content : JString} {loop : ReplayLoop} (h : LoopOf v d s loop)
      (hcontent : ContentOf v s content loop) : LoginOf v d s (.replaySend d content loop)
  | idle : LoginOf v d s .idle

/-- The LOGIN has still to find its user, or to check the password and the flag. -/
def HandlerTask.Undecided : HandlerTask → Prop
  | .loginScan _ _ _ => True
  | .loginCheck _ _ _ _ => True
  | _ => False

/-- The replay loop has the place `n` of the queue before it. -/
def ReplayLoop.Ahead (n : ℕ) (loop : ReplayLoop) : Prop :=
  loop.nextItem ≠ none ∧ loop.index ≤ n

/-- The LOGIN has still to send what is in the place `n` of the queue. -/
def HandlerTask.Ahead (n : ℕ) : HandlerTask → Prop
  | .loginScan _ _ _ => True
  | .loginCheck _ _ _ _ => True
  | .loginPut _ _ => True
  | .loginActivate _ => True
  | .loginSetConnId _ => True
  | .loginReply _ => True
  | .replayTest _ => True
  | .replayIterator _ => True
  | .replayNext loop => loop.Ahead n
  | .replayConnId _ loop => loop.index = n + 1 ∨ loop.Ahead n
  | .replaySend _ _ loop => loop.index = n + 1 ∨ loop.Ahead n
  | _ => False

instance (n : ℕ) (loop : ReplayLoop) : Decidable (loop.Ahead n) :=
  inferInstanceAs (Decidable (_ ∧ _))

instance (n : ℕ) : ∀ task : HandlerTask, Decidable (task.Ahead n)
  | .loginScan _ _ _ | .loginCheck _ _ _ _ | .loginPut _ _ | .loginActivate _ | .loginSetConnId _
  | .loginReply _ | .replayTest _ | .replayIterator _ => isTrue trivial
  | .replayNext loop => inferInstanceAs (Decidable (loop.Ahead n))
  | .replayConnId _ loop | .replaySend _ _ loop =>
    inferInstanceAs (Decidable (loop.index = n + 1 ∨ loop.Ahead n))
  | .idle | .frame _ | .answer _ | .registerScan _ _ _ | .registerPut _ _ _ | .registerReply _ _
  | .postFind _ | .postMentions _ _ | .postIterator _ _ _ | .postNext _ | .postTest _ _
  | .postAppend _ _ | .postConnId _ _ | .postSend _ _ _ => isFalse id

/-- The LOGIN is answered, or the handler has nothing to do. -/
def HandlerTask.Replaying : HandlerTask → Prop
  | .idle => True
  | .replayTest _ => True
  | .replayIterator _ => True
  | .replayNext _ => True
  | .replayConnId _ _ => True
  | .replaySend _ _ _ => True
  | _ => False

section Login

variable {env : Surroundings} {d : ℤ} {s s' : Server} {v : UserRef} {task : HandlerTask}

/-- The replay of an entry with a blank goes on. -/
theorem replayEntry_eq {post : JString} (h : space ∈ post) (loop : ReplayLoop) :
    replayEntry s loop post = .goOn s (.replayConnId (postContent post)
      { loop with
        index := loop.index + 1
        nextItem := (s.user loop.user).awaitingPosts[loop.index + 1]?
        senderName := loop.senderName ++ post.takeWhile (· ≠ space)
        limit := (post.takeWhile (· ≠ space)).length + 1 }) := by
  simp only [replayEntry, replayScan_eq h, Nat.zero_add, substringFrom_of_mem_space h]
  rfl

/-- A LOGIN changes no queue. -/
theorem LoginOf.grows (h : LoginOf v d s task) (env : Surroundings) :
    s.Grows (taskStep env d s task).server := by
  have hsame : ∀ s', s' = s → s.Grows s' := by
    rintro s' rfl
    exact .refl s'
  cases h with
  | scan =>
    refine hsame _ ?_
    rw [taskStep]
    split <;> rfl
  | check =>
    refine hsame _ ?_
    rw [taskStep]
    split <;> rfl
  | put => exact ⟨rfl, rfl, fun _ ↦ rfl, fun _ ↦ List.prefix_rfl⟩
  | activate => exact .modifyUser s v (fun _ ↦ rfl) fun _ ↦ List.prefix_rfl
  | setConnId => exact .modifyUser s v (fun _ ↦ rfl) fun _ ↦ List.prefix_rfl
  | test =>
    refine hsame _ ?_
    rw [taskStep]
    split <;> rfl
  | @next loop h =>
    refine hsame _ ?_
    rw [taskStep]
    rcases loop.nextItem with - | post
    · rfl
    · simp only [replayEntry]
      split <;> rfl
  | _ => exact hsame _ rfl

theorem LoopOf.mono {loop : ReplayLoop} (h : LoopOf v d s loop) (hgrows : s.Grows s')
    (hconn : (s'.user v).connId = (s.user v).connId) : LoopOf v d s' loop :=
  ⟨hconn.trans h.connId, h.user, fun post hpost ↦ hgrows.getElem?_eq_some (h.nextItem post hpost)⟩

theorem ContentOf.mono {content : JString} {loop : ReplayLoop} (h : ContentOf v s content loop)
    (hgrows : s.Grows s') : ContentOf v s' content loop := by
  obtain ⟨place, post, hindex, hpost, hcontent⟩ := h
  exact ⟨place, post, hindex, hgrows.getElem?_eq_some hpost, hcontent⟩

/-- Steps of other handlers that keep the connection and only add to queues do not matter. -/
theorem LoginOf.mono (h : LoginOf v d s task) (hgrows : s.Grows s')
    (hconn : (s'.user v).connId = (s.user v).connId) : LoginOf v d s' task := by
  cases h with
  | scan => exact .scan ..
  | check => exact .check ..
  | put => exact .put _
  | activate => exact .activate
  | setConnId => exact .setConnId
  | reply h => exact .reply (hconn.trans h)
  | test h => exact .test (hconn.trans h)
  | iterator h hposts =>
    refine .iterator (hconn.trans h) fun hnil ↦ hposts ?_
    have hle := hgrows.awaitingPosts v
    rw [hnil] at hle
    exact List.prefix_nil.1 hle
  | next h => exact .next (h.mono hgrows hconn)
  | connId h hcontent => exact .connId (h.mono hgrows hconn) (hcontent.mono hgrows)
  | send h hcontent => exact .send (h.mono hgrows hconn) (hcontent.mono hgrows)
  | idle => exact .idle

/-- **One step of a LOGIN** that finds `v` and accepts. -/
theorem LoginOf.step (h : LoginOf v d s task)
    (hgo : task.Undecided → (taskStep env d s task).task.loginUser = some v)
    (hblank : ∀ post ∈ (s.user v).awaitingPosts, space ∈ post) :
    LoginOf v d (taskStep env d s task).server (taskStep env d s task).task := by
  cases h with
  | scan username password captcha =>
    have hfound := hgo trivial
    rw [taskStep] at hfound ⊢
    split at hfound
    · injection hfound with hfound
      exact hfound ▸ .check ..
    · cases hfound
  | check username password captcha =>
    have haccepted := hgo trivial
    rw [taskStep] at haccepted ⊢
    split at haccepted
    case isTrue h => exact if_pos h ▸ .put username
    case isFalse => cases haccepted
  | put => exact .activate
  | activate => exact .setConnId
  | setConnId =>
    refine .reply ?_
    rw [taskStep, Server.modifyUser_user, if_pos rfl]
    rfl
  | reply h =>
    rw [taskStep, TaskStep.send_eq_of_sendable s (by decide)]
    exact .test h
  | test h =>
    rw [taskStep]
    split
    case isTrue => exact .idle
    case isFalse hposts => exact .iterator h hposts
  | iterator h => exact .next ⟨h, rfl, fun _ ↦ id⟩
  | @next loop h =>
    rw [taskStep]
    rcases hitem : loop.nextItem with - | post
    · exact .idle
    · have hpost := h.nextItem post hitem
      simp only [replayEntry_eq (hblank post (List.mem_of_getElem? hpost))]
      refine .connId ⟨h.connId, h.user, fun post' hpost' ↦ ?_⟩ ⟨loop.index, post, rfl, hpost, rfl⟩
      rwa [h.user] at hpost'
  | @connId content loop h hcontent =>
    rw [taskStep, h.user, h.connId]
    exact .send h hcontent
  | send h =>
    rw [taskStep, TaskStep.send_eq_of_sendable s (sendable_notification _ rfl rfl)]
    exact .next h
  | idle => exact .idle

/-- A LOGIN sends `d` the post in the place `n` of the queue of `v`, under whatever name. -/
def SendsPlace (v : UserRef) (n : ℕ) (post : JString) (s : Server) (d : ℤ) (task : HandlerTask)
    (sent : List (ℤ × JString)) : Prop :=
  (s.user v).awaitingPosts[n]? = some post ∧
    ∃ connId content loop, task = .replaySend connId content loop ∧ loop.index = n + 1 ∧
      ∃ senderName, (d, notification (str "091") senderName (postContent post)) ∈ sent

/-- **A LOGIN has a place of the queue ahead of it until it sends what is there.** -/
theorem LoginOf.ahead_step (h : LoginOf v d s task)
    (hgo : task.Undecided → (taskStep env d s task).task.loginUser = some v)
    (hblank : ∀ post ∈ (s.user v).awaitingPosts, space ∈ post) (hd : d ∈ s.connectionsMap)
    {n : ℕ} {post : JString} (hpost : (s.user v).awaitingPosts[n]? = some post)
    (hahead : task.Ahead n) :
    (taskStep env d s task).task.Ahead n ∨
      SendsPlace v n post s d task (taskStep env d s task).sent := by
  cases h with
  | scan username password captcha =>
    refine Or.inl ?_
    have hfound := hgo trivial
    rw [taskStep] at hfound ⊢
    split at hfound
    · trivial
    · cases hfound
  | check username password captcha =>
    refine Or.inl ?_
    have haccepted := hgo trivial
    rw [taskStep] at haccepted ⊢
    split at haccepted
    case isTrue h => exact if_pos h ▸ trivial
    case isFalse => cases haccepted
  | put => exact Or.inl trivial
  | activate => exact Or.inl trivial
  | setConnId => exact Or.inl trivial
  | reply =>
    refine Or.inl ?_
    rw [taskStep, TaskStep.send_eq_of_sendable s (by decide)]
    trivial
  | test =>
    refine Or.inl ?_
    rw [taskStep, if_neg (List.ne_nil_of_mem (List.mem_of_getElem? hpost))]
    trivial
  | iterator _ hposts =>
    refine Or.inl ⟨?_, Nat.zero_le n⟩
    show (s.user v).awaitingPosts[0]? ≠ none
    rw [ne_eq, List.getElem?_eq_none_iff, Nat.le_zero]
    exact fun hlen ↦ hposts (List.length_eq_zero_iff.1 hlen)
  | @next loop h =>
    obtain ⟨hitem, hle⟩ := hahead
    refine Or.inl ?_
    rw [taskStep]
    rcases hentry : loop.nextItem with - | entry
    · exact absurd hentry hitem
    · have hmem := List.mem_of_getElem? (h.nextItem entry hentry)
      simp only [replayEntry_eq (hblank entry hmem)]
      rcases Nat.eq_or_lt_of_le hle with heq | hlt
      · exact Or.inl (congrArg (· + 1) heq)
      · refine Or.inr ⟨?_, hlt⟩
        show (s.user loop.user).awaitingPosts[loop.index + 1]? ≠ none
        have hlen := (List.getElem?_eq_some_iff.1 hpost).1
        rw [h.user, ne_eq, List.getElem?_eq_none_iff]
        omega
  | connId => exact Or.inl hahead
  | @send content loop h hcontent =>
    rw [taskStep, TaskStep.send_eq_of_sendable s (sendable_notification _ rfl rfl)]
    rcases hahead with hindex | hahead
    · obtain ⟨place, post', hplace, hpost', rfl⟩ := hcontent
      obtain rfl : place = n := by omega
      obtain rfl : post' = post := Option.some.inj (hpost'.symm.trans hpost)
      exact Or.inr ⟨hpost, d, _, loop, rfl, hindex, loop.senderName,
        Server.mem_delivery.2 ⟨rfl, rfl, hd⟩⟩
    · exact Or.inl hahead
  | idle => exact absurd hahead id

/-- **A place that a handler has passed, or never had ahead of it, stays so.** -/
theorem not_ahead_step {n : ℕ} (h : ¬ task.Ahead n) : ¬ (taskStep env d s task).task.Ahead n := by
  cases task with
  | answer => exact TaskStep.send_task_of (P := fun task ↦ ¬ task.Ahead n) id id
  | registerScan =>
    rw [taskStep]
    split <;> exact id
  | registerReply => exact TaskStep.send_task_of (P := fun task ↦ ¬ task.Ahead n) id id
  | loginScan => exact absurd trivial h
  | loginCheck => exact absurd trivial h
  | loginPut => exact absurd trivial h
  | loginActivate => exact absurd trivial h
  | loginSetConnId => exact absurd trivial h
  | loginReply => exact absurd trivial h
  | replayTest => exact absurd trivial h
  | replayIterator => exact absurd trivial h
  | replayNext loop =>
    rw [taskStep]
    rcases hentry : loop.nextItem with - | entry
    · exact id
    · have hgt : n < loop.index := by
        by_contra hle
        exact h ⟨hentry ▸ Option.some_ne_none entry, Nat.le_of_not_lt hle⟩
      refine replayEntry_task_of (P := fun task ↦ ¬ task.Ahead n) id fun content loop' hindex ↦ ?_
      intro hahead
      have hplace : loop'.index = n + 1 ∨ loop'.index ≤ n := hahead.imp_right And.right
      omega
  | replayConnId => exact h
  | replaySend =>
    exact TaskStep.send_task_of (P := fun task ↦ ¬ task.Ahead n) id fun hahead ↦ h (Or.inr hahead)
  | postFind =>
    rw [taskStep]
    split <;> exact id
  | postNext loop =>
    rw [taskStep, postVisit]
    repeat' split
    all_goals exact id
  | postTest =>
    rw [taskStep]
    split <;> exact id
  | postSend => exact TaskStep.send_task_of (P := fun task ↦ ¬ task.Ahead n) id id
  | _ => exact id

end Login

/-! ### Where a task can come from -/

/-- The task is the first one of a frame that is carried out in steps. -/
def HandlerTask.Initial : HandlerTask → Prop
  | .registerScan _ _ _ => True
  | .loginScan _ _ _ => True
  | .postFind _ => True
  | _ => False

section Origin

variable {env : Surroundings} {c : ℤ} {s : Server} {task : HandlerTask}

/-- A step never begins a frame. -/
theorem not_initial_taskStep : ¬ (taskStep env c s task).task.Initial := by
  have hsend : ∀ k m task, ¬ task.Initial → ¬ (TaskStep.send s k m task).task.Initial :=
    fun k m task ↦ TaskStep.send_task_of (P := fun task ↦ ¬ task.Initial) id
  cases task with
  | answer => exact hsend _ _ _ id
  | registerReply => exact hsend _ _ _ id
  | loginReply => exact hsend _ _ _ id
  | replaySend => exact hsend _ _ _ id
  | postSend => exact hsend _ _ _ id
  | replayNext loop =>
    rw [taskStep]
    split
    · exact replayEntry_task_of (P := fun task ↦ ¬ task.Initial) id fun _ _ _ ↦ id
    · exact id
  | postNext loop =>
    rw [taskStep, postVisit]
    repeat' split
    all_goals exact id
  | registerScan => rw [taskStep]; split <;> exact id
  | loginScan => rw [taskStep]; split <;> exact id
  | loginCheck => rw [taskStep]; split <;> exact id
  | replayTest => rw [taskStep]; split <;> exact id
  | postFind => rw [taskStep]; split <;> exact id
  | postTest => rw [taskStep]; split <;> exact id
  | _ => exact id

theorem not_initial_of_eq {task' : HandlerTask} (h : (taskStep env c s task).task = task')
    (hinitial : task'.Initial) : False :=
  not_initial_taskStep (h.symm ▸ hinitial : (taskStep env c s task).task.Initial)

/-- An answered LOGIN stays one. -/
theorem HandlerTask.Replaying.step (h : task.Replaying) :
    (taskStep env c s task).task.Replaying := by
  cases task with
  | replayTest =>
    rw [taskStep]
    split <;> trivial
  | replayNext loop =>
    rw [taskStep]
    split
    · exact replayEntry_task_of (P := Replaying) trivial fun _ _ _ ↦ trivial
    · trivial
  | replaySend => exact TaskStep.send_task_of (P := Replaying) trivial trivial
  | idle => trivial
  | replayIterator => trivial
  | replayConnId => trivial
  | _ => exact absurd h id

end Origin

end SplNet
