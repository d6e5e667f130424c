import SplNet.Srv.GraphHandlers
import SplNet.Srv.HandlerEffect

/-!
# What one step does to the follow lists and the block lists

In the finest interleaving the lists change by five kinds of steps. `GraphEffect` lists what a step
other than the append of a FOLLOW can do: it shortens lists at most, and a BLOCK that has appended
to a block list goes on until the blocked user no longer follows; or it is that append.
-/

namespace SplNet

open Java

/-- Nobody follows or blocks anybody new. -/
def FewerFollows (s s' : Server) : Prop :=
  ∀ r, (s'.user r).followers.Sublist (s.user r).followers ∧
    (s'.user r).blockingUsers ⊆ (s.user r).blockingUsers

theorem FewerFollows.refl (s : Server) : FewerFollows s s :=
  fun _ ↦ ⟨List.Sublist.refl _, List.Subset.refl _⟩

/-- A method of one user that only shortens the lists. -/
theorem FewerFollows.modifyUser {s : Server} {r : UserRef} {f : User → User}
    (hfollowers : (f (s.user r)).followers.Sublist (s.user r).followers)
    (hblocking : (f (s.user r)).blockingUsers ⊆ (s.user r).blockingUsers) :
    FewerFollows s (s.modifyUser r f) := by
  intro r'
  rw [Server.modifyUser_user]
  split
  case isTrue heq =>
    obtain rfl := heq
    exact ⟨hfollowers, hblocking⟩
  case isFalse => exact ⟨List.Sublist.refl _, List.Subset.refl _⟩

/-! ### The two appends -/

section Appends

variable (s : Server) (myUser otherUser r : UserRef)

theorem followers_addFollower :
    ((s.modifyUser myUser (User.addFollower otherUser)).user r).followers =
      if r = myUser then (s.user myUser).followers ++ [otherUser] else (s.user r).followers := by
  rw [Server.modifyUser_user]
  split <;> rfl

theorem blockingUsers_addFollower :
    ((s.modifyUser myUser (User.addFollower otherUser)).user r).blockingUsers =
      (s.user r).blockingUsers := by
  rw [Server.modifyUser_user]
  split
  case isTrue heq => rw [heq]; rfl
  case isFalse => rfl

theorem followers_addBlockingUser :
    ((s.modifyUser myUser (User.addBlockingUser otherUser)).user r).followers =
      (s.user r).followers := by
  rw [Server.modifyUser_user]
  split
  case isTrue heq => rw [heq]; rfl
  case isFalse => rfl

theorem mem_blockingUsers_addBlockingUser {x : UserRef} :
    x ∈ ((s.modifyUser myUser (User.addBlockingUser otherUser)).user r).blockingUsers ↔
      x ∈ (s.user r).blockingUsers ∨ r = myUser ∧ x = otherUser := by
  rw [Server.modifyUser_user]
  split
  case isTrue heq =>
    rw [heq, and_iff_right rfl]
    exact List.mem_append.trans (or_congr Iff.rfl List.mem_singleton)
  case isFalse hne => rw [or_iff_left fun h ↦ hne h.1]

end Appends

/-- The frame is a FOLLOW or a BLOCK. -/
def WholeFrame.OfGraph (f : WholeFrame) : Prop := f.optCode = str "04" ∨ f.optCode = str "12"

/-- The step shortens lists at most, and begins no frame. -/
structure CalmStep (s : Server) (t : TaskStep) : Prop where
  fewer : FewerFollows s t.server
  not_frame : ∀ f, t.task ≠ .frame f

section Calm

variable {env : Surroundings} {connectionId : ℤ} {s : Server}

theorem CalmStep.of_goOn {task : HandlerTask} (h : ∀ f, task ≠ .frame f) :
    CalmStep s (.goOn s task) := ⟨.refl s, h⟩

theorem CalmStep.of_send (c : ℤ) (msg : JString) {task : HandlerTask} (h : ∀ f, task ≠ .frame f) :
    CalmStep s (.send s c msg task) := by
  refine ⟨.refl s, fun f ↦ ?_⟩
  rw [TaskStep.send]
  show (if _ then task else HandlerTask.idle) ≠ _
  split
  · exact h f
  · exact HandlerTask.noConfusion

/-- A frame that is no FOLLOW and no BLOCK leaves the lists alone. -/
theorem dispatch_fewer {f : WholeFrame} (h : ¬ f.OfGraph) :
    FewerFollows s (dispatch env connectionId s f.optCode f.text).server := by
  have hwhole : f.optCode ≠ str "01" ∧ f.optCode ≠ str "02" ∧ f.optCode ≠ str "05" := by
    simpa [steppedOpCodes] using f.whole
  obtain ⟨h₁, h₂, h₅⟩ := hwhole
  obtain ⟨h₄, h₁₂⟩ := not_or.1 h
  rw [dispatch, if_neg h₁, if_neg h₂, if_neg h₄, if_neg h₅, if_neg h₁₂]
  split_ifs
  · rcases hfind : env.findActive s connectionId with - | r
    · rw [(processLogout_refusal hfind).server_eq]
      exact .refl s
    · rw [processLogout_of_session hfind]
      exact .modifyUser (List.Sublist.refl _) (List.Subset.refl _)
  · rw [processPm_server]
    exact .refl s
  · rw [processLogstat_server]
    exact .refl s
  · rw [processStat_server]
    exact .refl s
  · exact .refl s

/-- **The steps of the other commands are calm.** -/
theorem calmStep_taskStep {task : HandlerTask} (h : ∀ f, task = .frame f → ¬ f.OfGraph) :
    CalmStep s (taskStep env connectionId s task) := by
  cases task with
  | idle => exact .of_goOn fun _ ↦ HandlerTask.noConfusion
  | frame f => exact ⟨dispatch_fewer (h f rfl), fun _ ↦ HandlerTask.noConfusion⟩
  | answer msg => exact .of_send _ _ fun _ ↦ HandlerTask.noConfusion
  | registerScan username password birthday =>
    rw [taskStep]
    split <;> exact .of_goOn fun _ ↦ HandlerTask.noConfusion
  | registerPut username password birthday =>
    refine ⟨fun r ↦ ?_, fun _ ↦ HandlerTask.noConfusion⟩
    show ((if r = s.nextUser then User.new username password birthday
      else s.user r).followers).Sublist _ ∧
        (if r = s.nextUser then _ else _ : User).blockingUsers ⊆ _
    split
    · exact ⟨List.nil_sublist _, List.nil_subset _⟩
    · exact ⟨List.Sublist.refl _, List.Subset.refl _⟩
  | registerReply username r => exact .of_send _ _ fun _ ↦ HandlerTask.noConfusion
  | loginScan username password captcha =>
    rw [taskStep]
    split <;> exact .of_goOn fun _ ↦ HandlerTask.noConfusion
  | loginCheck username password captcha user =>
    rw [taskStep]
    split <;> exact .of_goOn fun _ ↦ HandlerTask.noConfusion
  | loginPut username user => exact ⟨.refl s, fun _ ↦ HandlerTask.noConfusion⟩
  | loginActivate user =>
    exact ⟨.modifyUser (List.Sublist.refl _) (List.Subset.refl _),
      fun _ ↦ HandlerTask.noConfusion⟩
  | loginSetConnId user =>
    exact ⟨.modifyUser (List.Sublist.refl _) (List.Subset.refl _),
      fun _ ↦ HandlerTask.noConfusion⟩
  | loginReply user => exact .of_send _ _ fun _ ↦ HandlerTask.noConfusion
  | replayTest user =>
    rw [taskStep]
    split <;> exact .of_goOn fun _ ↦ HandlerTask.noConfusion
  | replayIterator user => exact .of_goOn fun _ ↦ HandlerTask.noConfusion
  | replayNext loop =>
    rw [taskStep]
    split
    · rw [replayEntry]
      dsimp only
      split <;> exact .of_goOn fun _ ↦ HandlerTask.noConfusion
    · exact .of_goOn fun _ ↦ HandlerTask.noConfusion
  | replayConnId content loop => exact .of_goOn fun _ ↦ HandlerTask.noConfusion
  | replaySend connId content loop => exact .of_send _ _ fun _ ↦ HandlerTask.noConfusion
  | postFind message =>
    rw [taskStep]
    split <;> exact .of_goOn fun _ ↦ HandlerTask.noConfusion
  | postMentions myUser message => exact .of_goOn fun _ ↦ HandlerTask.noConfusion
  | postIterator myUser message otherUsers => exact .of_goOn fun _ ↦ HandlerTask.noConfusion
  | postNext loop =>
    rw [taskStep, postVisit]
    split
    · split <;> exact .of_goOn fun _ ↦ HandlerTask.noConfusion
    · exact .of_goOn fun _ ↦ HandlerTask.noConfusion
    · exact .of_goOn fun _ ↦ HandlerTask.noConfusion
  | postTest user loop =>
    rw [taskStep]
    split <;> exact .of_goOn fun _ ↦ HandlerTask.noConfusion
  | postAppend user loop =>
    exact ⟨.modifyUser (List.Sublist.refl _) (List.Subset.refl _),
      fun _ ↦ HandlerTask.noConfusion⟩
  | postConnId user loop => exact .of_goOn fun _ ↦ HandlerTask.noConfusion
  | postSend connId user loop => exact .of_send _ _ fun _ ↦ HandlerTask.noConfusion

end Calm

/-! ### What one step of the finest interleaving does -/

/-- A BLOCK that has put the second user into the block list of the first one, and has still to end
the following. -/
def GraphTask.ending : GraphTask → Option (UserRef × UserRef)
  | .blockOwnTest myUser otherUser => some (myUser, otherUser)
  | .blockOwnRemove myUser otherUser => some (myUser, otherUser)
  | .blockOtherTest myUser otherUser => some (myUser, otherUser)
  | .blockOtherRemove myUser otherUser => some (myUser, otherUser)
  | _ => none

/-- The task is no FOLLOW and no BLOCK as a whole. -/
def GraphTask.Stepped (task : GraphTask) : Prop :=
  ∀ f, task = .other (.frame f) → ¬ f.OfGraph

/-- The possible effects of a step that is not the one that appends a followed user. -/
inductive GraphEffect (s : Server) : GraphTask → Server → GraphTask → Prop
  /-- The lists are shortened at most, and a BLOCK goes on unless the following has ended. -/
  | fewer {task task' : GraphTask} {s' : Server} (hfewer : FewerFollows s s')
      (hending : ∀ a b, task.ending = some (a, b) → (s.user b).followers.Nodup →
        task'.ending = some (a, b) ∨ a ∉ (s'.user b).followers) :
      GraphEffect s task s' task'
  | block (myUser otherUser : UserRef) :
      GraphEffect s (.blockAdd myUser otherUser)
        (s.modifyUser myUser (User.addBlockingUser otherUser)) (.blockOwnTest myUser otherUser)

section Effects

variable {env : Surroundings} {connectionId : ℤ} {s : Server} {task : GraphTask}

theorem GraphTask.Stepped.of_ne (h : ∀ t, task ≠ .other t) : task.Stepped :=
  fun f hf ↦ absurd hf (h (.frame f))

theorem GraphTask.stepped_other {t : HandlerTask} (h : ∀ f, t ≠ .frame f) :
    (GraphTask.other t).Stepped :=
  fun f hf ↦ absurd (GraphTask.other.inj hf) (h f)

theorem stepped_startGraphTask (message : JString) : (startGraphTask message).Stepped := by
  rw [startGraphTask]
  split
  case h_1 f _ =>
    split_ifs with h₄ h₁₂
    · split
      · exact GraphTask.stepped_other fun _ ↦ HandlerTask.noConfusion
      · exact .of_ne fun _ ↦ GraphTask.noConfusion
    · exact .of_ne fun _ ↦ GraphTask.noConfusion
    · intro f' hf'
      obtain rfl := HandlerTask.frame.inj (GraphTask.other.inj hf')
      rintro (h | h)
      · exact h₄ h
      · exact h₁₂ h
  case h_2 t hframe => exact GraphTask.stepped_other hframe

/-- A step that changes no list. -/
theorem GraphEffect.of_same {task' : GraphTask} {s' : Server} (h : FewerFollows s s')
    (hending : task.ending = none) : GraphEffect s task s' task' :=
  .fewer h fun _ _ hab ↦ absurd (hab.symm.trans hending) (Option.some_ne_none _)

/-- A step of a BLOCK that goes on. -/
theorem GraphEffect.of_going {task' : GraphTask} {s' : Server} (h : FewerFollows s s')
    (hending : task'.ending = task.ending) : GraphEffect s task s' task' :=
  .fewer h fun _ _ hab _ ↦ Or.inl (hending.trans hab)

/-- `removeFollower` only shortens a list. -/
theorem fewerFollows_removeFollower (r r' : UserRef) :
    FewerFollows s (s.modifyUser r (User.removeFollower r')) :=
  .modifyUser List.erase_sublist (List.Subset.refl _)

/-- **The step lemma.** -/
theorem graphEffect_graphTaskStep (hstepped : task.Stepped) (hadd : ∀ f, task ≠ .followAdd f) :
    GraphEffect s task (graphTaskStep env connectionId s task).server
      (graphTaskStep env connectionId s task).task := by
  cases task with
  | other t =>
    have hcalm : CalmStep s (taskStep env connectionId s t) :=
      calmStep_taskStep fun f hf ↦ hstepped f (congrArg GraphTask.other hf)
    exact .of_same hcalm.fewer rfl
  | followFind action message =>
    rw [graphTaskStep]
    split <;> exact .of_same (.refl s) rfl
  | followSession action message otherUser =>
    rw [graphTaskStep]
    split <;> exact .of_same (.refl s) rfl
  | followActivated action f =>
    rw [graphTaskStep]
    split <;> exact .of_same (.refl s) rfl
  | followTest action f =>
    rw [graphTaskStep]
    split_ifs <;> exact .of_same (.refl s) rfl
  | followUnblocked f =>
    rw [graphTaskStep]
    split <;> exact .of_same (.refl s) rfl
  | followAdd f => exact absurd rfl (hadd f)
  | followCount f => exact .of_same (.modifyUser (List.Sublist.refl _) (List.Subset.refl _)) rfl
  | unfollowRemove f => exact .of_same (fewerFollows_removeFollower f.myUser f.otherUser) rfl
  | unfollowCount f => exact .of_same (.modifyUser (List.Sublist.refl _) (List.Subset.refl _)) rfl
  | blockSession message => exact .of_same (.refl s) rfl
  | blockFind myUser message =>
    cases myUser with
    | none => exact .of_same (.refl s) rfl
    | some myUser =>
      rw [graphTaskStep]
      split <;> exact .of_same (.refl s) rfl
  | blockTest myUser otherUser message =>
    rw [graphTaskStep]
    split
    · split <;> exact .of_same (.refl s) rfl
    · exact .of_same (.refl s) rfl
  | blockAdd myUser otherUser => exact .block myUser otherUser
  | blockOwnTest myUser otherUser =>
    rw [graphTaskStep]
    split <;> exact .of_going (.refl s) rfl
  | blockOwnRemove myUser otherUser =>
    exact .of_going (fewerFollows_removeFollower myUser otherUser) rfl
  | blockOtherTest myUser otherUser =>
    rw [graphTaskStep]
    split
    case isTrue => exact .of_going (.refl s) rfl
    case isFalse hnot =>
      refine .fewer (.refl s) fun a b hab _ ↦ Or.inr ?_
      obtain ⟨rfl, rfl⟩ := Prod.mk.inj (Option.some.inj hab)
      exact hnot
  | blockOtherRemove myUser otherUser =>
    refine .fewer (fewerFollows_removeFollower otherUser myUser) fun a b hab hnodup ↦ Or.inr ?_
    obtain ⟨rfl, rfl⟩ := Prod.mk.inj (Option.some.inj hab)
    show myUser ∉ (if otherUser = otherUser then (s.user otherUser).removeFollower myUser
      else s.user otherUser).followers
    rw [if_pos rfl]
    exact hnodup.not_mem_erase

theorem stepped_graphTaskStep (hstepped : task.Stepped) :
    (graphTaskStep env connectionId s task).task.Stepped := by
  have hne : ∀ {task' : GraphTask}, (∀ t, task' ≠ .other t) → task'.Stepped := .of_ne
  have hidle : GraphTask.idle.Stepped :=
    GraphTask.stepped_other fun _ ↦ HandlerTask.noConfusion
  have hanswer : ∀ msg, (GraphTask.answer msg).Stepped := fun _ ↦
    GraphTask.stepped_other fun _ ↦ HandlerTask.noConfusion
  cases task with
  | other t =>
    have hcalm : CalmStep s (taskStep env connectionId s t) :=
      calmStep_taskStep fun f hf ↦ hstepped f (congrArg GraphTask.other hf)
    exact GraphTask.stepped_other hcalm.not_frame
  | followFind action message =>
    rw [graphTaskStep]
    split
    · exact hne fun _ ↦ GraphTask.noConfusion
    · exact hanswer _
  | followSession action message otherUser =>
    rw [graphTaskStep]
    split
    · exact hne fun _ ↦ GraphTask.noConfusion
    · exact hidle
  | followActivated action f =>
    rw [graphTaskStep]
    split
    · exact hne fun _ ↦ GraphTask.noConfusion
    · exact hidle
  | followTest action f =>
    rw [graphTaskStep]
    split_ifs
    · exact hne fun _ ↦ GraphTask.noConfusion
    · exact hne fun _ ↦ GraphTask.noConfusion
    · exact hanswer _
  | followUnblocked f =>
    rw [graphTaskStep]
    split
    · exact hne fun _ ↦ GraphTask.noConfusion
    · exact hanswer _
  | followAdd f => exact hne fun _ ↦ GraphTask.noConfusion
  | followCount f => exact hanswer _
  | unfollowRemove f => exact hne fun _ ↦ GraphTask.noConfusion
  | unfollowCount f => exact hanswer _
  | blockSession message => exact hne fun _ ↦ GraphTask.noConfusion
  | blockFind myUser message =>
    cases myUser with
    | none => exact hanswer _
    | some myUser =>
      rw [graphTaskStep]
      split
      · exact hne fun _ ↦ GraphTask.noConfusion
      · exact hanswer _
  | blockTest myUser otherUser message =>
    rw [graphTaskStep]
    split
    · split
      · exact hne fun _ ↦ GraphTask.noConfusion
      · exact hidle
    · exact hanswer _
  | blockAdd myUser otherUser => exact hne fun _ ↦ GraphTask.noConfusion
  | blockOwnTest myUser otherUser =>
    rw [graphTaskStep]
    split <;> exact hne fun _ ↦ GraphTask.noConfusion
  | blockOwnRemove myUser otherUser => exact hne fun _ ↦ GraphTask.noConfusion
  | blockOtherTest myUser otherUser =>
    rw [graphTaskStep]
    split
    · exact hne fun _ ↦ GraphTask.noConfusion
    · exact hanswer _
  | blockOtherRemove myUser otherUser => exact hanswer _

end Effects

end SplNet
