import SplNet.Foundations.RunExtension
import SplNet.Srv.HandlerInvariant
import SplNet.Srv.HandlersAlone

/-!
# Every task can be finished

**No task is ever stuck**: from any task and in any store, a handler whose connection is the only
one to make steps becomes idle (`finishes`), whatever the others were in the middle of. The store a
task meets need not be one that its frame began in, so each loop is followed from any entry on.
-/

namespace SplNet

open Java

/-- Alone, the handler of a connection comes to the end of its task. -/
def Finishes (env : Surroundings) (connectionId : ℤ) (s : Server) (task : HandlerTask) : Prop :=
  ∃ s' sent, RunsAlone env connectionId s task s' sent

section Finish

variable {env : Surroundings} {connectionId : ℤ} {s : Server} {task task' : HandlerTask}

theorem finishes_idle (s : Server) : Finishes env connectionId s .idle := ⟨s, [], .idle s⟩

theorem Finishes.of_step (h : Finishes env connectionId (taskStep env connectionId s task).server
    (taskStep env connectionId s task).task) : Finishes env connectionId s task := by
  obtain ⟨s', sent, hrest⟩ := h
  exact ⟨s', _, .step hrest⟩

/-- A step that only reads. -/
theorem Finishes.of_goOn (hstep : taskStep env connectionId s task = .goOn s task')
    (h : Finishes env connectionId s task') : Finishes env connectionId s task := by
  refine .of_step ?_
  rw [hstep]
  exact h

/-- A step that sends. Nothing is done behind an exception. -/
theorem Finishes.of_send {c : ℤ} {msg : JString}
    (hstep : taskStep env connectionId s task = .send s c msg task')
    (h : Finishes env connectionId s task') : Finishes env connectionId s task := by
  refine .of_step ?_
  rw [hstep, TaskStep.send]
  show Finishes env connectionId s _
  split
  · exact h
  · exact finishes_idle s

variable (env connectionId)

theorem finishes_answer (s : Server) (msg : JString) :
    Finishes env connectionId s (.answer msg) :=
  .of_send rfl (finishes_idle s)

/-! ### The replay loop -/

/-- The replay loop ends: each round takes the next entry of the queue. -/
theorem finishes_replayNext (s : Server) (loop : ReplayLoop) :
    Finishes env connectionId s (.replayNext loop) := by
  induction hleft : (s.user loop.user).awaitingPosts.length - loop.index generalizing loop with
  | zero =>
    rcases hitem : loop.nextItem with - | post
    · exact .of_goOn (by simp only [taskStep, hitem]) (finishes_idle s)
    rcases hscan : replayScan loop.senderName loop.limit 0 post with ⟨senderName, limit⟩
    rcases hcut : substringFrom post limit with e | content
    · exact .of_goOn (by simp only [taskStep, hitem, replayEntry, hscan, hcut]) (finishes_idle s)
    · refine .of_goOn (by simp only [taskStep, hitem, replayEntry, hscan, hcut]; rfl)
        (.of_goOn rfl (.of_send rfl (.of_goOn ?_ (finishes_idle s))))
      -- the iterator has come to the end of the queue
      have hnone : (s.user loop.user).awaitingPosts[loop.index + 1]? = none :=
        List.getElem?_eq_none (by omega)
      simp only [taskStep, hnone]
  | succ n ih =>
    rcases hitem : loop.nextItem with - | post
    · exact .of_goOn (by simp only [taskStep, hitem]) (finishes_idle s)
    rcases hscan : replayScan loop.senderName loop.limit 0 post with ⟨senderName, limit⟩
    rcases hcut : substringFrom post limit with e | content
    · exact .of_goOn (by simp only [taskStep, hitem, replayEntry, hscan, hcut]) (finishes_idle s)
    · refine .of_goOn (by simp only [taskStep, hitem, replayEntry, hscan, hcut]; rfl)
        (.of_goOn rfl (.of_send rfl (ih _ ?_)))
      show (s.user loop.user).awaitingPosts.length - (loop.index + 1) = n
      omega

theorem finishes_replayTest (s : Server) (r : UserRef) :
    Finishes env connectionId s (.replayTest r) := by
  by_cases hnil : (s.user r).awaitingPosts = []
  · exact .of_goOn (if_pos hnil) (finishes_idle s)
  · exact .of_goOn (if_neg hnil) (.of_goOn rfl (finishes_replayNext env connectionId s _))

/-! ### The loops of POST -/

/-- One user is visited, and then what is left. -/
theorem finishes_postTest {s : Server} (r : UserRef) {loop : PostLoop}
    (h : ∀ s, Finishes env connectionId s (.postNext loop)) :
    Finishes env connectionId s (.postTest r loop) := by
  by_cases hactive : (s.user r).isActivated = false
  · exact .of_goOn (if_pos hactive) (.of_step (h _))
  · exact .of_goOn (if_neg hactive) (.of_goOn rfl (.of_send rfl (h s)))

theorem finishes_postNext (s : Server) (loop : PostLoop) :
    Finishes env connectionId s (.postNext loop) := by
  obtain ⟨my, message, users, others⟩ := loop
  induction users generalizing s with
  | nil =>
    induction others generalizing s with
    | nil => exact .of_goOn rfl (finishes_answer env connectionId s _)
    | cons r others ih => exact .of_goOn rfl (finishes_postTest env connectionId r ih)
  | cons r users ih =>
    by_cases hfollows : my ∈ (s.user r).followers
    · refine .of_goOn ?_ (finishes_postTest env connectionId r ih)
      simp only [taskStep, postVisit, if_pos hfollows]
    · refine .of_goOn ?_ (ih s)
      simp only [taskStep, postVisit, if_neg hfollows]

/-! ### All tasks -/

/-- **Every task can be finished.** -/
theorem finishes (s : Server) (task : HandlerTask) : Finishes env connectionId s task := by
  have hlogin : ∀ s r, Finishes env connectionId s (.loginActivate r) := fun s r ↦
    .of_step (.of_step (.of_send rfl (finishes_replayTest env connectionId _ r)))
  have hiterator : ∀ s my message others,
      Finishes env connectionId s (.postIterator my message others) := fun s my message others ↦
    .of_goOn rfl (finishes_postNext env connectionId s _)
  cases task with
  | idle => exact finishes_idle s
  | frame f => exact .of_step (finishes_idle _)
  | answer msg => exact finishes_answer env connectionId s msg
  | registerScan username password birthday =>
    by_cases h : (env.users s).any fun r ↦ contains (s.user r).username username
    · exact .of_goOn (if_pos h) (finishes_answer env connectionId s _)
    · exact .of_goOn (if_neg h) (.of_step (.of_send rfl (finishes_idle _)))
  | registerPut username password birthday => exact .of_step (.of_send rfl (finishes_idle _))
  | registerReply username r => exact .of_send rfl (finishes_idle s)
  | loginScan username password captcha =>
    rcases hfind : env.findContaining s username with - | r
    · exact .of_goOn (by simp only [taskStep, hfind]; rfl) (finishes_answer env connectionId s _)
    · refine .of_goOn (by simp only [taskStep, hfind]; rfl) ?_
      by_cases h : (s.user r).password = password ∧ captcha = str "1" ∧
          (s.user r).isActivated = false
      · exact .of_goOn (if_pos h) (.of_step (hlogin _ r))
      · exact .of_goOn (if_neg h) (finishes_answer env connectionId s _)
  | loginCheck username password captcha r =>
    by_cases h : (s.user r).password = password ∧ captcha = str "1" ∧
        (s.user r).isActivated = false
    · exact .of_goOn (if_pos h) (.of_step (hlogin _ r))
    · exact .of_goOn (if_neg h) (finishes_answer env connectionId s _)
  | loginPut username r => exact .of_step (hlogin _ r)
  | loginActivate r => exact hlogin s r
  | loginSetConnId r => exact .of_step (.of_send rfl (finishes_replayTest env connectionId _ r))
  | loginReply r => exact .of_send rfl (finishes_replayTest env connectionId s r)
  | replayTest r => exact finishes_replayTest env connectionId s r
  | replayIterator r => exact .of_goOn rfl (finishes_replayNext env connectionId s _)
  | replayNext loop => exact finishes_replayNext env connectionId s loop
  | replayConnId content loop =>
    exact .of_goOn rfl (.of_send rfl (finishes_replayNext env connectionId s loop))
  | replaySend connId content loop =>
    exact .of_send rfl (finishes_replayNext env connectionId s loop)
  | postFind message =>
    rcases hfind : env.findActive s connectionId with - | my
    · exact .of_goOn (by simp only [taskStep, hfind]; rfl) (finishes_answer env connectionId s _)
    · exact .of_goOn (by simp only [taskStep, hfind]; rfl) (.of_goOn rfl (hiterator s my message _))
  | postMentions my message => exact .of_goOn rfl (hiterator s my message _)
  | postIterator my message others => exact hiterator s my message others
  | postNext loop => exact finishes_postNext env connectionId s loop
  | postTest r loop =>
    exact finishes_postTest env connectionId r fun s ↦ finishes_postNext env connectionId s loop
  | postAppend r loop => exact .of_step (finishes_postNext env connectionId _ loop)
  | postConnId r loop =>
    exact .of_goOn rfl (.of_send rfl (finishes_postNext env connectionId s loop))
  | postSend connId r loop => exact .of_send rfl (finishes_postNext env connectionId s loop)

end Finish

end SplNet
