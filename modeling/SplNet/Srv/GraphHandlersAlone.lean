import SplNet.Srv.GraphHandlers
import SplNet.Srv.HandlersAlone

/-!
# A handler that runs alone, in the finest interleaving

The steps of FOLLOW and BLOCK are the steps of `process` too: when the other handlers rest, a
handler of `GraphHandlers` leaves the store `process` leaves and sends what `process` sends
(`graph_alone_process`). The tasks of the other commands are followed in `HandlersAlone`.
-/

namespace SplNet

open Java

/-- The handler of a connection finishes its task while the others rest. -/
inductive GraphRunsAlone (env : Surroundings) (connectionId : ℤ) :
    Server → GraphTask → Server → List (ℤ × JString) → Prop
  | idle (s : Server) : GraphRunsAlone env connectionId s .idle s []
  | step {s s' : Server} {task : GraphTask} {sent : List (ℤ × JString)}
      (h : GraphRunsAlone env connectionId (graphTaskStep env connectionId s task).server
        (graphTaskStep env connectionId s task).task s' sent) :
      GraphRunsAlone env connectionId s task s'
        ((graphTaskStep env connectionId s task).sent ++ sent)

/-- From this task on the handler, alone, does what the outcome says. -/
def GraphPerforms (env : Surroundings) (connectionId : ℤ) (s : Server) (task : GraphTask)
    (o : Outcome) : Prop :=
  GraphRunsAlone env connectionId s task o.server o.sent

section Alone

variable {env : Surroundings} {connectionId : ℤ} {s : Server} {task task' : GraphTask}

/-- The other commands go on as they do in `taskStep`. -/
theorem RunsAlone.graph {t : HandlerTask} {s' : Server} {sent : List (ℤ × JString)}
    (h : RunsAlone env connectionId s t s' sent) :
    GraphRunsAlone env connectionId s (.other t) s' sent := by
  induction h with
  | idle s => exact .idle s
  | step _ ih => exact .step ih

theorem graphPerforms_throws (s : Server) (e : JException) :
    GraphPerforms env connectionId s .idle (.throws s e) := .idle s

theorem graphPerforms_answer (s : Server) (msg : JString) :
    GraphPerforms env connectionId s (.answer msg) (s.send connectionId msg) :=
  (performs_answer env connectionId s msg).graph

/-- A step that sends nothing. -/
theorem GraphPerforms.of_step {s' : Server} {o : Outcome}
    (h : graphTaskStep env connectionId s task = ⟨s', task', []⟩)
    (hrest : GraphPerforms env connectionId s' task' o) :
    GraphPerforms env connectionId s task o := by
  have hserver := congrArg GraphTaskStep.server h
  have htask := congrArg GraphTaskStep.task h
  have hsent := congrArg GraphTaskStep.sent h
  have hstep : GraphRunsAlone env connectionId s task o.server
      ((graphTaskStep env connectionId s task).sent ++ o.sent) := by
    refine .step ?_
    rw [hserver, htask]
    exact hrest
  rw [hsent] at hstep
  exact hstep

variable (env connectionId s)

theorem graphPerforms_follow (action : JChar) (message : JString) :
    GraphPerforms env connectionId s (.followFind action message)
      (processFollow env connectionId s (action :: message)) := by
  rw [processFollow]
  rcases hfind : env.findContained s message with - | other
  · refine .of_step ?_ (graphPerforms_answer s _)
    simp only [graphTaskStep, hfind]
  refine .of_step (show graphTaskStep env connectionId s (.followFind action message) =
    ⟨s, .followSession action message other, []⟩ by simp only [graphTaskStep, hfind]) ?_
  rcases hmy : env.findActive s connectionId with - | my
  · refine .of_step ?_ (.idle s)
    simp only [graphTaskStep, hmy]
  refine .of_step (show graphTaskStep env connectionId s (.followSession action message other) =
    ⟨s, .followActivated action ⟨my, other, message⟩, []⟩ by simp only [graphTaskStep, hmy]) ?_
  dsimp only
  split
  case isFalse hactive => exact .of_step (if_neg hactive) (.idle s)
  case isTrue hactive =>
    refine .of_step (if_pos hactive) ?_
    rcases Classical.em (action = char '0' ∧ other ∉ (s.user my).followers) with hnew | hnew
    · refine .of_step (if_pos hnew) ?_
      rcases Classical.em (my ∈ (s.user other).blockingUsers) with hblocked | hblocked
      · have hunfollow : ¬ (action = char '1' ∧ other ∈ (s.user my).followers) :=
          fun h ↦ hnew.2 h.2
        rw [if_neg fun h ↦ h.2.2 hblocked, if_neg hunfollow]
        exact .of_step (if_neg (not_not.2 hblocked)) (graphPerforms_answer s _)
      · rw [if_pos ⟨hnew.1, hnew.2, hblocked⟩]
        refine .of_step (if_pos hblocked) (.of_step rfl (.of_step rfl ?_))
        rw [Server.modifyUser_modifyUser]
        exact graphPerforms_answer _ _
    · rw [if_neg fun h ↦ hnew ⟨h.1, h.2.1⟩]
      have htest : graphTaskStep env connectionId s (.followTest action ⟨my, other, message⟩) =
          if action = char '1' ∧ other ∈ (s.user my).followers then
            ⟨s, .unfollowRemove ⟨my, other, message⟩, []⟩
          else ⟨s, .answer (str "1104"), []⟩ := if_neg hnew
      split
      case isTrue hunfollow =>
        refine .of_step (htest.trans (if_pos hunfollow)) (.of_step rfl (.of_step rfl ?_))
        rw [Server.modifyUser_modifyUser]
        exact graphPerforms_answer _ _
      case isFalse hunfollow =>
        exact .of_step (htest.trans (if_neg hunfollow)) (graphPerforms_answer s _)

/-- A BLOCK behind its append. -/
theorem graphPerforms_ending (my other : UserRef) :
    GraphPerforms env connectionId s (.blockAdd my other)
      ((blockUser s my other).send connectionId (str "1012")) := by
  have hother : ∀ s : Server, GraphPerforms env connectionId s (.blockOtherTest my other)
      ((if my ∈ (s.user other).followers then s.modifyUser other (User.removeFollower my)
        else s).send connectionId (str "1012")) := by
    intro s
    split
    case isTrue h => exact .of_step (if_pos h) (.of_step rfl (graphPerforms_answer _ _))
    case isFalse h => exact .of_step (if_neg h) (graphPerforms_answer _ _)
  refine .of_step rfl ?_
  rw [blockUser]
  split
  case isTrue h => exact .of_step (if_pos h) (.of_step rfl (hother _))
  case isFalse h => exact .of_step (if_neg h) (hother _)

theorem graphPerforms_block (message : JString) :
    GraphPerforms env connectionId s (.blockSession message)
      (processBlock env connectionId s message) := by
  rw [processBlock]
  refine .of_step rfl ?_
  rcases hmy : env.findActive s connectionId with - | my
  · exact .of_step rfl (graphPerforms_answer s _)
  rcases hfind : env.findContained s message with - | other
  · refine .of_step ?_ (graphPerforms_answer s _)
    simp only [graphTaskStep, hfind]
  refine .of_step (show graphTaskStep env connectionId s (.blockFind (some my) message) =
    ⟨s, .blockTest my other message, []⟩ by simp only [graphTaskStep, hfind]) ?_
  show GraphPerforms env connectionId s _ (if other ∉ (s.user my).blockingUsers then _ else _)
  split
  case isFalse hblocked => exact .of_step (if_neg hblocked) (graphPerforms_answer s _)
  case isTrue hnew =>
    rcases hcut : substring message 0 (message.length - 1) with e | text
    · refine .of_step ?_ (graphPerforms_throws s e)
      simp only [graphTaskStep, if_pos hnew, hcut]
    · refine .of_step ?_ (graphPerforms_ending env connectionId s my other)
      simp only [graphTaskStep, if_pos hnew, hcut]

variable {env connectionId s} in
/-- A frame that begins no steps of `Handlers` is dispatched as a whole. -/
theorem process_of_startTask {message : JString} {f : WholeFrame}
    (h : startTask message = .frame f) :
    process env connectionId s message = dispatch env connectionId s f.optCode f.text := by
  revert h
  rw [startTask, process]
  rcases substring message 0 2 with e | optCode
  · exact fun h ↦ HandlerTask.noConfusion h
  rcases substringFrom message 2 with e | text
  · exact fun h ↦ HandlerTask.noConfusion h
  intro h
  dsimp only at h ⊢
  split_ifs at h
  · split at h <;> exact HandlerTask.noConfusion h
  · split at h <;> exact HandlerTask.noConfusion h
  · split at h <;> exact HandlerTask.noConfusion h
  · obtain rfl := HandlerTask.frame.inj h
    rfl

/-- **A handler that runs alone does what `process` does**, also in the finest interleaving. -/
theorem graphPerforms_process (message : JString) :
    GraphPerforms env connectionId s (startGraphTask message)
      (process env connectionId s message) := by
  have hrest : Performs env connectionId s (startTask message)
      (process env connectionId s message) := performs_process env connectionId s message
  rw [startGraphTask]
  split
  case h_2 t _ => exact hrest.graph
  case h_1 f hf =>
    split_ifs with hop₄ hop₁₂
    · rw [process_of_startTask hf, hop₄]
      show GraphPerforms env connectionId s _ (processFollow env connectionId s f.text)
      rcases f.text with - | ⟨action, text⟩
      · exact graphPerforms_throws s _
      · exact graphPerforms_follow env connectionId s action text
    · rw [process_of_startTask hf, hop₁₂]
      exact graphPerforms_block env connectionId s f.text
    · rw [hf] at hrest
      exact hrest.graph

end Alone

/-! ### In the machine -/

section InMachine

variable {env : Surroundings} {connectionId : ℤ}

theorem GraphHandlers.assign_assign (σ : GraphHandlers) (c : ℤ) (t t' : GraphTask) :
    (σ.assign c t).assign c t' = σ.assign c t' := by
  have htask : ((σ.assign c t).assign c t').task = (σ.assign c t').task := by
    funext c'
    simp only [GraphHandlers.assign]
    split <;> rfl
  exact congrArg (GraphHandlers.mk σ.server) htask

theorem GraphHandlers.assign_idle_resting (s : Server) (c : ℤ) :
    (GraphHandlers.resting s).assign c .idle = .resting s := by
  have htask : ((GraphHandlers.resting s).assign c .idle).task =
      (GraphHandlers.resting s).task := by
    funext c'
    simp only [GraphHandlers.assign, GraphHandlers.resting]
    split <;> rfl
  exact congrArg (GraphHandlers.mk s) htask

/-- A step of the one handler at work. -/
theorem graphHandlersStep_alone (env : Surroundings) (connectionId : ℤ) (s : Server)
    (task : GraphTask) :
    graphHandlersStep ((GraphHandlers.resting s).assign connectionId task)
        (.step env connectionId) =
      ((GraphHandlers.resting (graphTaskStep env connectionId s task).server).assign connectionId
        (graphTaskStep env connectionId s task).task,
        (graphTaskStep env connectionId s task).sent) := by
  have htask : ((GraphHandlers.resting s).assign connectionId task).stepOf env connectionId =
      graphTaskStep env connectionId s task := by
    simp [GraphHandlers.stepOf, GraphHandlers.assign, GraphHandlers.resting]
  rw [graphHandlersStep, htask]
  refine congrArg₂ Prod.mk ?_ rfl
  exact GraphHandlers.assign_assign
    (.resting (graphTaskStep env connectionId s task).server) connectionId task _

/-- The steps of one handler, from any of its tasks to the end. -/
theorem GraphRunsAlone.exists_steps {s s' : Server} {task : GraphTask}
    {sent : List (ℤ × JString)} (σ₀ : GraphHandlers)
    (h : GraphRunsAlone env connectionId s task s' sent) :
    ∃ n, (List.replicate n (HandlerEvent.step env connectionId)).foldl
          (graphHandlersMachine σ₀).next ((GraphHandlers.resting s).assign connectionId task) =
        .resting s' ∧
      ((graphHandlersMachine σ₀).outputsFrom
        ((GraphHandlers.resting s).assign connectionId task)
        (List.replicate n (.step env connectionId))).flatten = sent := by
  induction h with
  | idle s => exact ⟨0, GraphHandlers.assign_idle_resting s connectionId, rfl⟩
  | @step s s' task sent h ih =>
    obtain ⟨n, hstate, hsent⟩ := ih
    have hstep := graphHandlersStep_alone env connectionId s task
    have hnext : (graphHandlersMachine σ₀).next ((GraphHandlers.resting s).assign connectionId task)
        (.step env connectionId) =
        (GraphHandlers.resting (graphTaskStep env connectionId s task).server).assign connectionId
          (graphTaskStep env connectionId s task).task := congrArg Prod.fst hstep
    have houtput : (graphHandlersMachine σ₀).output
        ((GraphHandlers.resting s).assign connectionId task) (.step env connectionId) =
          (graphTaskStep env connectionId s task).sent := congrArg Prod.snd hstep
    refine ⟨n + 1, ?_, ?_⟩
    · rw [List.replicate_succ, List.foldl_cons, hnext]
      exact hstate
    · rw [List.replicate_succ, LabelledMachine.outputsFrom, hnext, houtput, List.flatten_cons,
        hsent]

/-- **One frame alone**, in the finest interleaving. -/
theorem graph_alone_process (env : Surroundings) {connectionId : ℤ} {s : Server}
    (σ₀ : GraphHandlers) (hmem : connectionId ∈ s.connectionsMap) (message : JString) :
    ∃ n, (HandlerEvent.request connectionId message ::
          List.replicate n (.step env connectionId)).foldl (graphHandlersMachine σ₀).next
            (.resting s) =
        .resting (process env connectionId s message).server ∧
      ((graphHandlersMachine σ₀).outputsFrom (.resting s) (.request connectionId message ::
          List.replicate n (.step env connectionId))).flatten =
        (process env connectionId s message).sent := by
  obtain ⟨n, hstate, hsent⟩ := (graphPerforms_process env connectionId s message).exists_steps σ₀
  have hstep : graphHandlersStep (.resting s) (.request connectionId message) =
      ((GraphHandlers.resting s).assign connectionId (startGraphTask message), []) :=
    if_pos ⟨hmem, rfl⟩
  refine ⟨n, ?_, ?_⟩
  · rw [← hstate]
    show List.foldl _ (graphHandlersStep (.resting s) (.request connectionId message)).1 _ = _
    rw [hstep]
  · rw [← hsent]
    show List.flatten ((graphHandlersStep (.resting s) (.request connectionId message)).2 ::
      (graphHandlersMachine σ₀).outputsFrom
        (graphHandlersStep (.resting s) (.request connectionId message)).1 _) = _
    rw [hstep]
    rfl

end InMachine

end SplNet
