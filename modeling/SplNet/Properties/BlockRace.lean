import SplNet.Srv.BaseServer
import SplNet.Srv.GraphEffect

/-!
# The block law under interleaving

A BLOCK appends to the block list, and then takes the two users out of each other's follow list; a
FOLLOW tests the block list, and then appends to the follow list. When each is one step, a blocked
user never follows the blocker. In the finest interleaving that law holds of everything but a BLOCK
that is still under way (`BlockLaw`), **exactly as long as no FOLLOW appends late**
(`block_law_along_iff`): an append is late when the list has the user already, or the user has
blocked the follower and no BLOCK is left to undo it. A FOLLOW that is late because it is blocked
was overtaken between its test and its append (`late_follow_window`).
-/

namespace SplNet

open Java

/-! ### The law -/

/-- **The block law under way**: whoever is blocked and still follows the blocker is about to be
taken out of its list, by the BLOCK that blocked it. Nobody follows anybody twice. -/
structure BlockLaw (σ : GraphHandlers) : Prop where
  nodup : ∀ r, (σ.server.user r).followers.Nodup
  ended : ∀ a b, b ∈ (σ.server.user a).blockingUsers → a ∈ (σ.server.user b).followers →
    ∃ c, (σ.task c).ending = some (a, b)

/-- The step appends a user to a follow list although the list has it, or although that user has
blocked the follower and no BLOCK is left that would take it out again. -/
def FollowsLate (σ : GraphHandlers) (e : HandlerEvent) : Prop :=
  ∃ env c f, e = .step env c ∧ σ.task c = .followAdd f ∧
    (f.otherUser ∈ (σ.server.user f.myUser).followers ∨
      f.myUser ∈ (σ.server.user f.otherUser).blockingUsers ∧
        ∀ d, (σ.task d).ending ≠ some (f.otherUser, f.myUser))

/-- At rest the law is the plain one: a blocked user does not follow the blocker. -/
theorem BlockLaw.at_rest {σ : GraphHandlers} (h : BlockLaw σ) (hrest : ∀ c, σ.task c = .idle)
    {a b : UserRef} (hblocks : b ∈ (σ.server.user a).blockingUsers) :
    a ∉ (σ.server.user b).followers := by
  intro hfollows
  obtain ⟨c, hc⟩ := h.ended a b hblocks hfollows
  rw [hrest c] at hc
  exact absurd hc.symm (Option.some_ne_none _)

section Law

variable {σ₀ σ : GraphHandlers} {c : ℤ} {s' : Server} {task' : GraphTask}

/-- The state after a step of one handler. -/
def GraphHandlers.after (σ : GraphHandlers) (s' : Server) (c : ℤ) (task' : GraphTask) :
    GraphHandlers :=
  ({ σ with server := s' }).assign c task'

theorem GraphHandlers.after_server : (σ.after s' c task').server = s' := rfl

theorem GraphHandlers.after_task (d : ℤ) :
    (σ.after s' c task').task d = if d = c then task' else σ.task d := rfl

/-- A BLOCK of another handler is as far as it was. -/
theorem exists_ending_after {a b : UserRef} (h : ∃ d, (σ.task d).ending = some (a, b))
    (hc : (σ.task c).ending = some (a, b) → task'.ending = some (a, b)) :
    ∃ d, ((σ.after s' c task').task d).ending = some (a, b) := by
  obtain ⟨d, hd⟩ := h
  refine ⟨d, ?_⟩
  rw [GraphHandlers.after_task]
  split
  case isTrue heq => exact hc (heq ▸ hd)
  case isFalse => exact hd

theorem BlockLaw.of_fewer (h : BlockLaw σ) (hfewer : FewerFollows σ.server s')
    (hending : ∀ a b, (σ.task c).ending = some (a, b) → (σ.server.user b).followers.Nodup →
      task'.ending = some (a, b) ∨ a ∉ (s'.user b).followers) :
    BlockLaw (σ.after s' c task') where
  nodup r := (h.nodup r).sublist (hfewer r).1
  ended a b hblocks hfollows :=
    exists_ending_after (h.ended a b ((hfewer a).2 hblocks) ((hfewer b).1.subset hfollows))
      fun hc ↦ (hending a b hc (h.nodup b)).resolve_right (not_not.2 hfollows)

theorem BlockLaw.of_block (h : BlockLaw σ) {a₀ b₀ : UserRef} (hc : (σ.task c).ending = none) :
    BlockLaw (σ.after (σ.server.modifyUser a₀ (User.addBlockingUser b₀)) c
      (.blockOwnTest a₀ b₀)) where
  nodup r := by
    rw [GraphHandlers.after_server, followers_addBlockingUser]
    exact h.nodup r
  ended a b hblocks hfollows := by
    rw [GraphHandlers.after_server, followers_addBlockingUser] at hfollows
    rw [GraphHandlers.after_server, mem_blockingUsers_addBlockingUser] at hblocks
    rcases hblocks with hold | ⟨rfl, rfl⟩
    · exact exists_ending_after (h.ended a b hold hfollows) fun hab ↦
        absurd (hab.symm.trans hc) (Option.some_ne_none _)
    · refine ⟨c, ?_⟩
      rw [GraphHandlers.after_task, if_pos rfl]
      rfl

/-- **The append of a FOLLOW keeps the law exactly when it is not late.** -/
theorem blockLaw_follow_iff (h : BlockLaw σ) {f : FollowPair} (hc : σ.task c = .followAdd f) :
    BlockLaw (σ.after (σ.server.modifyUser f.myUser (User.addFollower f.otherUser)) c
        (.followCount f)) ↔
      ¬ (f.otherUser ∈ (σ.server.user f.myUser).followers ∨
        f.myUser ∈ (σ.server.user f.otherUser).blockingUsers ∧
          ∀ d, (σ.task d).ending ≠ some (f.otherUser, f.myUser)) := by
  constructor
  · rintro hlaw (htwice | ⟨hblocked, hnobody⟩)
    · have hnodup : ((σ.server.user f.myUser).followers ++ [f.otherUser]).Nodup := by
        have hlist := hlaw.nodup f.myUser
        rwa [GraphHandlers.after_server, followers_addFollower, if_pos rfl] at hlist
      exact (List.nodup_append.1 hnodup).2.2 f.otherUser htwice f.otherUser
        (List.mem_singleton_self _) rfl
    · have hnew : f.otherUser ∈ ((σ.server.modifyUser f.myUser
          (User.addFollower f.otherUser)).user f.myUser).followers := by
        rw [followers_addFollower, if_pos rfl]
        exact List.mem_append_right _ (List.mem_singleton_self _)
      obtain ⟨d, hd⟩ := hlaw.ended f.otherUser f.myUser
        (by rwa [GraphHandlers.after_server, blockingUsers_addFollower]) hnew
      rw [GraphHandlers.after_task] at hd
      split at hd
      case isTrue => exact absurd hd.symm (Option.some_ne_none _)
      case isFalse => exact hnobody d hd
  · intro hnot
    obtain ⟨hnew, hending⟩ := not_or.1 hnot
    have hkeep : ∀ {a b}, (∃ d, (σ.task d).ending = some (a, b)) →
        ∃ d, ((σ.after (σ.server.modifyUser f.myUser (User.addFollower f.otherUser)) c
          (.followCount f)).task d).ending = some (a, b) := fun hex ↦
      exists_ending_after hex fun hab ↦ by
        rw [hc] at hab
        exact absurd hab.symm (Option.some_ne_none _)
    refine ⟨fun r ↦ ?_, fun a b hblocks hfollows ↦ ?_⟩
    · rw [GraphHandlers.after_server, followers_addFollower]
      split
      · simpa using (h.nodup f.myUser).concat hnew
      · exact h.nodup r
    · rw [GraphHandlers.after_server, blockingUsers_addFollower] at hblocks
      rw [GraphHandlers.after_server, followers_addFollower] at hfollows
      split at hfollows
      case isTrue heq =>
        rcases List.mem_append.1 hfollows with hold | hlast
        · exact hkeep (h.ended a b hblocks (heq ▸ hold))
        · obtain rfl := List.mem_singleton.1 hlast
          refine hkeep (not_forall_not.1 fun hnobody ↦ hending ⟨heq ▸ hblocks, fun d hd ↦ ?_⟩)
          exact hnobody d (heq ▸ hd)
      case isFalse => exact hkeep (h.ended a b hblocks hfollows)

/-- A step that is not the append of a FOLLOW: the lists are shortened at most, or it is the append
of a BLOCK. -/
theorem stepOf_fewer_or_block (env : Surroundings) (hstepped : (σ.task c).Stepped)
    (hno : ¬ ∃ f, σ.task c = .followAdd f) :
    (FewerFollows σ.server (σ.stepOf env c).server ∧
      ∀ a b, (σ.task c).ending = some (a, b) → (σ.server.user b).followers.Nodup →
        (σ.stepOf env c).task.ending = some (a, b) ∨
          a ∉ ((σ.stepOf env c).server.user b).followers) ∨
    ∃ a b, σ.task c = .blockAdd a b ∧
      (σ.stepOf env c).server = σ.server.modifyUser a (User.addBlockingUser b) ∧
        (σ.stepOf env c).task = .blockOwnTest a b := by
  have heffect : GraphEffect σ.server (σ.task c) (σ.stepOf env c).server (σ.stepOf env c).task :=
    graphEffect_graphTaskStep hstepped fun f hf ↦ hno ⟨f, hf⟩
  generalize (σ.stepOf env c).server = s' at heffect ⊢
  generalize (σ.stepOf env c).task = task' at heffect ⊢
  generalize σ.task c = task at heffect ⊢
  cases heffect with
  | fewer hfewer hending => exact .inl ⟨hfewer, hending⟩
  | block a b => exact .inr ⟨a, b, rfl, rfl, rfl⟩

/-- **A step keeps the law exactly when it appends nobody late.** -/
theorem blockLaw_next_iff (hstepped : ∀ c, (σ.task c).Stepped) (h : BlockLaw σ)
    (e : HandlerEvent) :
    BlockLaw ((graphHandlersMachine σ₀).next σ e) ↔ ¬ FollowsLate σ e := by
  cases e with
  | accept =>
    refine iff_of_true ⟨h.nodup, h.ended⟩ ?_
    rintro ⟨env, c, f, heq, -⟩
    exact HandlerEvent.noConfusion heq
  | request c message =>
    refine iff_of_true ?_ ?_
    · show BlockLaw (graphHandlersStep σ (.request c message)).1
      rw [graphHandlersStep]
      split
      case isTrue hidle =>
        refine h.of_fewer (.refl _) fun a b hab ↦ ?_
        rw [hidle.2] at hab
        exact absurd hab.symm (Option.some_ne_none _)
      case isFalse => exact h
    · rintro ⟨env, c, f, heq, -⟩
      exact HandlerEvent.noConfusion heq
  | step env c =>
    show BlockLaw (σ.after (σ.stepOf env c).server c (σ.stepOf env c).task) ↔ _
    rcases Classical.em (∃ f, σ.task c = .followAdd f) with ⟨f, hf⟩ | hno
    · rw [GraphHandlers.stepOf, hf]
      refine (blockLaw_follow_iff h hf).trans (not_congr ⟨fun hlate ↦ ?_, ?_⟩)
      · exact ⟨env, c, f, rfl, hf, hlate⟩
      · rintro ⟨env', c', f', heq, hf', hlate⟩
        obtain ⟨rfl, rfl⟩ := HandlerEvent.step.inj heq
        obtain rfl := GraphTask.followAdd.inj (hf.symm.trans hf')
        exact hlate
    · refine iff_of_true ?_ ?_
      · rcases stepOf_fewer_or_block env (hstepped c) hno with
          ⟨hfewer, hending⟩ | ⟨a, b, htask, hserver, htask'⟩
        · exact h.of_fewer hfewer hending
        · rw [hserver, htask']
          exact h.of_block (congrArg GraphTask.ending htask)
      · rintro ⟨env', c', f', heq, hf', -⟩
        obtain ⟨rfl, rfl⟩ := HandlerEvent.step.inj heq
        exact hno ⟨f', hf'⟩

theorem stepped_of_reachable {s : Server}
    (h : (graphHandlersMachine (.resting s)).Reachable σ) : ∀ c, (σ.task c).Stepped := by
  refine LabelledMachine.Reachable.invariant (P := fun σ ↦ ∀ c, (σ.task c).Stepped)
    (fun _ ↦ GraphTask.stepped_other fun _ ↦ HandlerTask.noConfusion) ?_ h
  intro σ e _ hσ d
  cases e with
  | accept => exact hσ d
  | request c message =>
    show ((graphHandlersStep σ (.request c message)).1.task d).Stepped
    rw [graphHandlersStep]
    split
    · show (if d = c then startGraphTask message else σ.task d).Stepped
      split
      · exact stepped_startGraphTask message
      · exact hσ d
    · exact hσ d
  | step env c =>
    show (if d = c then (σ.stepOf env c).task else σ.task d).Stepped
    split
    · exact stepped_graphTaskStep (hσ c)
    · exact hσ d

/-- **The block law survives a run exactly when no FOLLOW of it appends late.** -/
theorem block_law_along_iff (mode : ServerMode) (es : List HandlerEvent) :
    (∀ pre, pre <+: es →
        BlockLaw ((graphHandlersMachine (.resting (Server.init mode))).stateAfter pre)) ↔
      ∀ pre e, LabelledMachine.Occurs es pre e →
        ¬ FollowsLate ((graphHandlersMachine (.resting (Server.init mode))).stateAfter pre) e :=
  LabelledMachine.invariant_along_iff (M := graphHandlersMachine (.resting (Server.init mode)))
    (P := BlockLaw) ⟨fun _ ↦ List.nodup_nil, fun _ _ h ↦ absurd h List.not_mem_nil⟩
    (fun _ e hreach hlaw ↦ blockLaw_next_iff (stepped_of_reachable hreach) hlaw e) es

end Law

/-! ### The window -/

section Window

variable {σ₀ σ : GraphHandlers} {e : HandlerEvent} {c : ℤ} {f : FollowPair} {a b : UserRef}

/-- The handler of the connection makes a step. -/
def StepsOn (c : ℤ) (_ : GraphHandlers) (e : HandlerEvent) : Prop := ∃ env, e = .step env c

/-- The FOLLOW on this connection tests the block list, and is not blocked. -/
def PassesTest (c : ℤ) (f : FollowPair) (σ : GraphHandlers) (e : HandlerEvent) : Prop :=
  StepsOn c σ e ∧ σ.task c = .followUnblocked f ∧
    f.myUser ∉ (σ.server.user f.otherUser).blockingUsers

/-- A BLOCK of the second user by the first one, on this connection, appends to the block list. -/
def BlockAppends (c : ℤ) (a b : UserRef) (σ : GraphHandlers) (e : HandlerEvent) : Prop :=
  StepsOn c σ e ∧ σ.task c = .blockAdd a b

/-- A FOLLOW is about to append because it has passed its test. -/
theorem graphTaskStep_task_followAdd_iff {env : Surroundings} {s : Server} {task : GraphTask} :
    (graphTaskStep env c s task).task = .followAdd f ↔
      task = .followUnblocked f ∧ f.myUser ∉ (s.user f.otherUser).blockingUsers := by
  have hother : ∀ {task' : GraphTask}, (∀ f', task ≠ .followUnblocked f') → task' ≠ .followAdd f →
      (task' = .followAdd f ↔ task = .followUnblocked f ∧
        f.myUser ∉ (s.user f.otherUser).blockingUsers) :=
    fun hne hne' ↦ iff_of_false hne' fun h ↦ hne f h.1
  cases task with
  | followUnblocked g =>
    rw [graphTaskStep]
    split
    case isTrue hpass =>
      constructor
      · intro h
        obtain rfl := GraphTask.followAdd.inj h
        exact ⟨rfl, hpass⟩
      · rintro ⟨h, -⟩
        obtain rfl := GraphTask.followUnblocked.inj h
        rfl
    case isFalse hblocked =>
      refine iff_of_false GraphTask.noConfusion ?_
      rintro ⟨h, hpass⟩
      obtain rfl := GraphTask.followUnblocked.inj h
      exact hblocked hpass
  | other t => exact hother (fun _ ↦ GraphTask.noConfusion) GraphTask.noConfusion
  | followFind action message =>
    rw [graphTaskStep]
    split <;> exact hother (fun _ ↦ GraphTask.noConfusion) GraphTask.noConfusion
  | followSession action message otherUser =>
    rw [graphTaskStep]
    split <;> exact hother (fun _ ↦ GraphTask.noConfusion) GraphTask.noConfusion
  | followActivated action g =>
    rw [graphTaskStep]
    split <;> exact hother (fun _ ↦ GraphTask.noConfusion) GraphTask.noConfusion
  | followTest action g =>
    rw [graphTaskStep]
    split
    · exact hother (fun _ ↦ GraphTask.noConfusion) GraphTask.noConfusion
    · split <;> exact hother (fun _ ↦ GraphTask.noConfusion) GraphTask.noConfusion
  | blockFind myUser message =>
    cases myUser with
    | none => exact hother (fun _ ↦ GraphTask.noConfusion) GraphTask.noConfusion
    | some myUser =>
      rw [graphTaskStep]
      split <;> exact hother (fun _ ↦ GraphTask.noConfusion) GraphTask.noConfusion
  | blockTest myUser otherUser message =>
    rw [graphTaskStep]
    split
    · split <;> exact hother (fun _ ↦ GraphTask.noConfusion) GraphTask.noConfusion
    · exact hother (fun _ ↦ GraphTask.noConfusion) GraphTask.noConfusion
  | blockOwnTest myUser otherUser =>
    rw [graphTaskStep]
    split <;> exact hother (fun _ ↦ GraphTask.noConfusion) GraphTask.noConfusion
  | blockOtherTest myUser otherUser =>
    rw [graphTaskStep]
    split <;> exact hother (fun _ ↦ GraphTask.noConfusion) GraphTask.noConfusion
  | _ => exact hother (fun _ ↦ GraphTask.noConfusion) GraphTask.noConfusion

theorem startGraphTask_ne_followAdd (message : JString) :
    startGraphTask message ≠ .followAdd f := by
  rw [startGraphTask]
  split
  · split_ifs
    · split <;> exact GraphTask.noConfusion
    · exact GraphTask.noConfusion
    · exact GraphTask.noConfusion
  · exact GraphTask.noConfusion

/-- A FOLLOW is about to append exactly since it passed its test. -/
theorem followAdd_next_iff (σ : GraphHandlers) (e : HandlerEvent) :
    ((graphHandlersMachine σ₀).next σ e).task c = .followAdd f ↔
      PassesTest c f σ e ∨ σ.task c = .followAdd f ∧ ¬ StepsOn c σ e := by
  have hquiet : ¬ StepsOn c σ e → (((graphHandlersMachine σ₀).next σ e).task c = .followAdd f ↔
      σ.task c = .followAdd f) →
      (((graphHandlersMachine σ₀).next σ e).task c = .followAdd f ↔
        PassesTest c f σ e ∨ σ.task c = .followAdd f ∧ ¬ StepsOn c σ e) := fun hnot hsame ↦
    hsame.trans (by rw [or_iff_right fun h : PassesTest c f σ e ↦ hnot h.1, and_iff_left hnot])
  cases e with
  | accept => exact hquiet (fun ⟨_, h⟩ ↦ HandlerEvent.noConfusion h) Iff.rfl
  | request d message =>
    refine hquiet (fun ⟨_, h⟩ ↦ HandlerEvent.noConfusion h) ?_
    show (graphHandlersStep σ (.request d message)).1.task c = _ ↔ _
    rw [graphHandlersStep]
    split
    case isFalse => exact Iff.rfl
    case isTrue hidle =>
      show (if c = d then startGraphTask message else σ.task c) = _ ↔ _
      split
      case isFalse => exact Iff.rfl
      case isTrue heq =>
        refine iff_of_false (startGraphTask_ne_followAdd message) ?_
        rw [heq, hidle.2]
        exact GraphTask.noConfusion
  | step env d =>
    rcases eq_or_ne d c with rfl | hne
    · have hsteps : StepsOn d σ (.step env d) := ⟨env, rfl⟩
      show (if d = d then (σ.stepOf env d).task else σ.task d) = _ ↔ _
      rw [if_pos rfl, GraphHandlers.stepOf, graphTaskStep_task_followAdd_iff,
        or_iff_left fun h ↦ h.2 hsteps]
      exact (and_iff_right hsteps).symm
    · refine hquiet (fun ⟨_, h⟩ ↦ hne (HandlerEvent.step.inj h).2) ?_
      show (if c = d then (σ.stepOf env d).task else σ.task c) = _ ↔ _
      rw [if_neg hne.symm]

/-- A block list grows by the append of a BLOCK only. -/
theorem not_mem_blockingUsers_next (hstepped : ∀ c, (σ.task c).Stepped)
    (hnot : b ∉ (σ.server.user a).blockingUsers) (hno : ∀ d, ¬ BlockAppends d a b σ e) :
    b ∉ (((graphHandlersMachine σ₀).next σ e).server.user a).blockingUsers := by
  cases e with
  | accept => exact hnot
  | request d message =>
    show b ∉ ((graphHandlersStep σ (.request d message)).1.server.user a).blockingUsers
    rw [graphHandlersStep]
    split <;> exact hnot
  | step env d =>
    show b ∉ ((σ.stepOf env d).server.user a).blockingUsers
    rcases Classical.em (∃ f, σ.task d = .followAdd f) with ⟨f, hf⟩ | hnofollow
    · rw [GraphHandlers.stepOf, hf]
      show b ∉ ((σ.server.modifyUser f.myUser (User.addFollower f.otherUser)).user a).blockingUsers
      rwa [blockingUsers_addFollower]
    · rcases stepOf_fewer_or_block env (hstepped d) hnofollow with
        ⟨hfewer, -⟩ | ⟨a₀, b₀, htask, hserver, -⟩
      · exact fun hmem ↦ hnot ((hfewer a).2 hmem)
      · rw [hserver, mem_blockingUsers_addBlockingUser]
        rintro (hold | ⟨rfl, rfl⟩)
        · exact hnot hold
        · exact hno d ⟨⟨env, rfl⟩, htask⟩

/-- **A FOLLOW overtakes a BLOCK only inside its own window.** When a FOLLOW appends a user that has
blocked it, then on another connection the BLOCK has appended to the block list behind the test of
the FOLLOW. -/
theorem late_follow_window (mode : ServerMode) {es : List HandlerEvent} {c : ℤ} {f : FollowPair}
    (htask : ((graphHandlersMachine (.resting (Server.init mode))).stateAfter es).task c =
      .followAdd f)
    (hblocked : f.myUser ∈ (((graphHandlersMachine (.resting (Server.init mode))).stateAfter
      es).server.user f.otherUser).blockingUsers) :
    ∃ pre e pre' e' d, LabelledMachine.Occurs es pre e ∧
      PassesTest c f ((graphHandlersMachine (.resting (Server.init mode))).stateAfter pre) e ∧
      pre ++ [e] <+: pre' ∧ LabelledMachine.Occurs es pre' e' ∧ d ≠ c ∧
      BlockAppends d f.otherUser f.myUser
        ((graphHandlersMachine (.resting (Server.init mode))).stateAfter pre') e' := by
  obtain ⟨pre, e, hocc, hpass, hquiet⟩ := (LabelledMachine.since_iff
    (M := graphHandlersMachine (.resting (Server.init mode)))
    (P := fun σ ↦ σ.task c = .followAdd f) GraphTask.noConfusion
    (fun σ e _ ↦ followAdd_next_iff σ e) es).1 htask
  refine Classical.by_contradiction fun hnone ↦ ?_
  -- without such a BLOCK the test would still succeed
  have hkeep : f.myUser ∉ (((graphHandlersMachine (.resting (Server.init mode))).stateAfter
      es).server.user f.otherUser).blockingUsers := by
    refine LabelledMachine.persists_along
      (M := graphHandlersMachine (.resting (Server.init mode)))
      (P := fun σ ↦ f.myUser ∉ (σ.server.user f.otherUser).blockingUsers) ?_ ?_ hocc
      List.prefix_rfl
    · rw [LabelledMachine.stateAfter_concat]
      refine not_mem_blockingUsers_next (stepped_of_reachable ⟨pre, rfl⟩) hpass.2.2 ?_
      rintro d ⟨⟨env, hd⟩, hblock⟩
      obtain ⟨⟨env', hc⟩, hfollow, -⟩ := hpass
      obtain ⟨-, rfl⟩ := HandlerEvent.step.inj (hd.symm.trans hc)
      exact GraphTask.noConfusion (hblock.symm.trans hfollow)
    · intro pre' e' hle hocc' hnot
      refine not_mem_blockingUsers_next (stepped_of_reachable ⟨pre', rfl⟩) hnot fun d hblock ↦ ?_
      refine hnone ⟨pre, e, pre', e', d, hocc, hpass, hle, hocc', ?_, hblock⟩
      rintro rfl
      exact hquiet pre' e' hle hocc' hblock.1
  exact hkeep hblocked

/-- A frame of which the handler carries out the first steps. -/
def frameSteps (connectionId : ℤ) (text : String) (n : ℕ) : List HandlerEvent :=
  .request connectionId (str text) :: List.replicate n (.step .listed connectionId)

/-- Bob wants to follow Alice and has passed the test, and then Alice blocks Bob. -/
def aliceBlocksBob : List HandlerEvent :=
  [.accept, .accept] ++ frameSteps 0 "01alice\x00a\x0001-01-1990\x00" 3 ++
    frameSteps 1 "01bob\x00b\x0002-02-1990\x00" 3 ++ frameSteps 0 "02alice\x00a\x001" 7 ++
    frameSteps 1 "02bob\x00b\x001" 7 ++ frameSteps 1 "040alice\x00" 5 ++ frameSteps 0 "12bob\x00" 7

set_option maxRecDepth 4000 in
/-- Bob's FOLLOW is late. -/
theorem late_follow_window_bob :
    ∃ pre e pre' e' d, LabelledMachine.Occurs aliceBlocksBob pre e ∧
      PassesTest 1 ⟨1, 0, str "alice\x00"⟩
        ((graphHandlersMachine (.resting (Server.init .reactor))).stateAfter pre) e ∧
      pre ++ [e] <+: pre' ∧ LabelledMachine.Occurs aliceBlocksBob pre' e' ∧ d ≠ 1 ∧
      BlockAppends d 0 1
        ((graphHandlersMachine (.resting (Server.init .reactor))).stateAfter pre') e' :=
  late_follow_window .reactor (f := ⟨1, 0, str "alice\x00"⟩) (by decide) (by decide)

set_option maxRecDepth 4000 in
/-- Both are acknowledged, both handlers rest, and Bob follows Alice, who has blocked him. -/
example :
    ((graphHandlersMachine (.resting (Server.init .reactor))).outputs
        (aliceBlocksBob ++ List.replicate 3 (.step .listed 1))).flatten.drop 4 =
          [(0, str "1012"), (1, str "100400alice\x00\x00")] ∧
      ((graphHandlersMachine (.resting (Server.init .reactor))).stateAfter
        (aliceBlocksBob ++ List.replicate 3 (.step .listed 1))).task 1 = .idle ∧
      1 ∈ (((graphHandlersMachine (.resting (Server.init .reactor))).stateAfter
        (aliceBlocksBob ++ List.replicate 3 (.step .listed 1))).server.user 0).blockingUsers ∧
      0 ∈ (((graphHandlersMachine (.resting (Server.init .reactor))).stateAfter
        (aliceBlocksBob ++ List.replicate 3 (.step .listed 1))).server.user 1).followers := by
  decide

end Window

end SplNet
