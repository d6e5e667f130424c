import SplNet.Srv.Reactor
import SplNet.Srv.BaseServer

/-!
# What stops the reactor

A queued task throws when it has captured no key, or a key that is not valid any more. Such a task
never becomes harmless again, and `serve` does not catch what it throws, so the whole server stops
as soon as the task is run. The loop keeps running exactly in the runs in which **no channel is
closed while one of its tasks is queued, and nothing is sent to a channel that is not registered**
(`loop_keeps_running_iff`).
-/

namespace SplNet

open Java LabelledMachine

/-- Running the task throws. -/
def SelectorTask.Fails (key : ℤ → KeyState) (t : SelectorTask) : Prop :=
  ∀ c, t.key = some c → (key c).isValid = false

/-- `serve` has ended with an exception, or a queued task will end it. -/
def Reactor.Doomed (s : Reactor) : Prop :=
  s.thrown ≠ none ∨ ∃ t ∈ s.selectorTasks, t.Fails s.key

/-- The step closes no channel whose key a queued task has captured, and adds no task without a
valid key. -/
def SparesLoop (s : Reactor) : ReactorEvent → Prop
  | .close c => s.looping = true → ∀ t ∈ s.selectorTasks, t.key ≠ some c
  | .send c msg => c ∈ s.connectionsMap → (∃ bytes, encode msg = .ok bytes) → (s.key c).isValid
  | _ => True

/-- The step is one of the selector thread that closes nothing. -/
def ReactorEvent.Quiet : ReactorEvent → Prop
  | .close _ => False
  | .send _ _ => False
  | _ => True

/-! ### Keys -/

/-- A channel is registered once, before anybody captures its key. -/
structure KeysInOrder (s : Reactor) : Prop where
  fresh : ∀ c, s.connectionId ≤ c → s.key c = .unregistered
  accepting : ∀ c, s.accepting = some c → s.key c = .unregistered ∧ c < s.connectionId
  captured : ∀ t ∈ s.selectorTasks, ∀ c, t.key = some c → s.key c ≠ .unregistered

section Keys

variable {s : Reactor}

theorem KeysInOrder.setKey {c : ℤ} {k : KeyState} (h : KeysInOrder s)
    (hc : s.key c ≠ .unregistered) (hk : k ≠ .unregistered) : KeysInOrder (s.setKey c k) where
  fresh := by
    intro c' hc'
    have hne : c' ≠ c := fun heq ↦ hc (heq ▸ h.fresh c' hc')
    exact (if_neg hne).trans (h.fresh c' hc')
  accepting := by
    intro c' hc'
    have hne : c' ≠ c := fun heq ↦ hc (heq ▸ (h.accepting c' hc').1)
    exact ⟨(if_neg hne).trans (h.accepting c' hc').1, (h.accepting c' hc').2⟩
  captured := by
    intro t ht c' hc'
    show (if c' = c then k else s.key c') ≠ _
    split
    case isTrue => exact hk
    case isFalse => exact h.captured t ht c' hc'

theorem KeysInOrder.runTask {t : SelectorTask} (h : KeysInOrder s) : KeysInOrder (s.runTask t) := by
  rw [Reactor.runTask]
  split
  case h_1 => exact ⟨h.fresh, h.accepting, h.captured⟩
  case h_2 c _ =>
    split
    case isTrue hvalid =>
      refine h.setKey (fun heq ↦ ?_) (by simp)
      rw [heq] at hvalid
      exact Bool.false_ne_true hvalid
    case isFalse => exact ⟨h.fresh, h.accepting, h.captured⟩

theorem keysInOrder_next (h : KeysInOrder s) (e : ReactorEvent) :
    KeysInOrder (reactorMachine.next s e) := by
  rw [reactorMachine_next]
  cases e with
  | accept =>
    rw [reactorStep]
    split
    case isTrue =>
      refine ⟨fun c hc ↦ h.fresh c (by simp only at hc; omega), fun c hc ↦ ?_, h.captured⟩
      obtain rfl := Option.some.inj hc
      exact ⟨h.fresh _ (Int.le_refl _), by simp only; omega⟩
    case isFalse => exact h
  | register =>
    rw [reactorStep]
    split
    case h_1 c hc =>
      obtain ⟨hkey, hlt⟩ := h.accepting c hc
      refine ⟨fun c' hc' ↦ ?_, fun c' hc' ↦ absurd hc' (by simp), fun t ht c' hc' ↦ ?_⟩
      · have hne : c' ≠ c := by
          rintro rfl
          exact absurd hlt (Int.not_lt.2 hc')
        exact (if_neg hne).trans (h.fresh c' hc')
      · have hne : c' ≠ c := fun heq ↦ h.captured t ht c' hc' (heq ▸ hkey)
        show (if c' = c then _ else s.key c') ≠ _
        rw [if_neg hne]
        exact h.captured t ht c' hc'
    case h_2 => exact h
  | close c =>
    rw [reactorStep]
    split
    case isTrue hcond =>
      refine h.setKey (fun heq ↦ ?_) (by simp)
      rw [heq] at hcond
      exact Bool.false_ne_true hcond.2
    case isFalse => exact h
  | select =>
    rw [reactorStep]
    split
    case isTrue =>
      refine ⟨fun c hc ↦ ?_, fun c hc ↦ ⟨?_, (h.accepting c hc).2⟩, fun t ht c hc ↦ ?_⟩
      · show (s.key c).deregister = _
        rw [h.fresh c hc]
        rfl
      · show (s.key c).deregister = _
        rw [(h.accepting c hc).1]
        rfl
      · have hkey := h.captured t ht c hc
        show (s.key c).deregister ≠ _
        rcases hk : s.key c with - | ops | - | -
        · exact absurd hk hkey
        all_goals simp [KeyState.deregister]
    case isFalse => exact h
  | send c msg =>
    rw [reactorStep, Reactor.send]
    split
    · split
      · refine ⟨h.fresh, h.accepting, fun t ht c' hc' ↦ ?_⟩
        rcases List.mem_append.1 ht with ht | ht
        · exact h.captured t ht c' hc'
        · obtain rfl := List.mem_singleton.1 ht
          simp only [Option.ite_none_right_eq_some, Option.some.injEq] at hc'
          obtain ⟨hfound, rfl⟩ := hc'
          show s.key c ≠ _
          intro heq
          rw [heq] at hfound
          exact Bool.false_ne_true hfound
      · exact h
    · exact h
  | runTask =>
    rw [reactorStep]
    split
    case h_1 => exact h
    case h_2 t ts htasks =>
      split
      case isTrue =>
        refine KeysInOrder.runTask ⟨h.fresh, h.accepting, fun t' ht' ↦ h.captured t' ?_⟩
        rw [htasks]
        exact List.mem_cons_of_mem t ht'
      case isFalse => exact h

theorem keysInOrder_of_reachable (h : reactorMachine.Reachable s) : KeysInOrder s := by
  have hinit : KeysInOrder Reactor.init :=
    ⟨fun _ _ ↦ rfl, fun c hc ↦ absurd hc (by simp [Reactor.init]),
      fun t ht ↦ absurd ht List.not_mem_nil⟩
  exact h.invariant (P := KeysInOrder) hinit fun s e _ hs ↦ keysInOrder_next hs e

end Keys

/-! ### Doom -/

section Doom

variable {s s' : Reactor}

/-- What is doomed depends on the tasks and on which keys are valid. -/
theorem Reactor.Doomed.congr (h : s'.Doomed) (hthrown : s'.thrown = s.thrown)
    (htasks : s'.selectorTasks = s.selectorTasks)
    (hkey : ∀ t ∈ s.selectorTasks, ∀ c, t.key = some c →
      (s'.key c).isValid = (s.key c).isValid) : s.Doomed := by
  rw [Reactor.Doomed, hthrown, htasks] at h
  refine h.imp_right fun ⟨t, ht, hfails⟩ ↦ ⟨t, ht, fun c hc ↦ ?_⟩
  rw [← hkey t ht c hc]
  exact hfails c hc

theorem isValid_deregister (k : KeyState) : k.deregister.isValid = k.isValid := by
  cases k <;> rfl

theorem isValid_setKey {c : ℤ} (hvalid : (s.key c).isValid = true) (ops : InterestOps) (c' : ℤ) :
    ((s.setKey c (.registered ops)).key c').isValid = (s.key c').isValid := by
  show (if c' = c then KeyState.registered ops else s.key c').isValid = _
  split
  case isTrue heq => rw [heq, hvalid]; rfl
  case isFalse => rfl

/-- A task that does not fail sets the interest of a valid key. -/
theorem runTask_of_not_fails {t : SelectorTask} (ht : ¬ t.Fails s.key) :
    ∃ c, (s.key c).isValid = true ∧ s.runTask t = s.setKey c (.registered t.ops) := by
  simp only [SelectorTask.Fails, not_forall, Bool.not_eq_false] at ht
  obtain ⟨c, hc, hvalid⟩ := ht
  exact ⟨c, hvalid, by simp only [Reactor.runTask, hc, if_pos hvalid]⟩

theorem Reactor.Doomed.of_runTask {t : SelectorTask} (h : (s.runTask t).Doomed)
    (ht : ¬ t.Fails s.key) : s.Doomed := by
  obtain ⟨c, hvalid, hrun⟩ := runTask_of_not_fails ht
  rw [hrun] at h
  exact h.congr rfl rfl fun _ _ c' _ ↦ isValid_setKey hvalid t.ops c'

theorem Reactor.Doomed.runTask {t : SelectorTask} (h : s.Doomed) (ht : ¬ t.Fails s.key) :
    (s.runTask t).selectorTasks = s.selectorTasks ∧ (s.runTask t).accepting = s.accepting ∧
      (s.runTask t).Doomed := by
  obtain ⟨c, hvalid, hrun⟩ := runTask_of_not_fails ht
  rw [hrun]
  exact ⟨rfl, rfl, h.congr rfl rfl fun _ _ c' _ ↦ (isValid_setKey hvalid t.ops c').symm⟩

/-- A task that fails ends `serve`. -/
theorem thrown_runTask {t : SelectorTask} (ht : t.Fails s.key) : (s.runTask t).thrown ≠ none := by
  rw [Reactor.runTask]
  split
  case h_1 => simp
  case h_2 c hc =>
    rw [if_neg (by simp [ht c hc])]
    simp

theorem thrown_reactorStep (h : s.thrown ≠ none) (e : ReactorEvent) :
    (reactorStep s e).thrown ≠ none := by
  have hloop : s.looping = false := by
    simp [Reactor.looping, h]
  cases e with
  | accept => simpa [reactorStep, hloop] using h
  | register =>
    rw [reactorStep]
    split <;> exact h
  | close c => simpa [reactorStep, hloop] using h
  | select => simpa [reactorStep, hloop] using h
  | send c msg =>
    rw [reactorStep, Reactor.send]
    split
    · split <;> exact h
    · exact h
  | runTask =>
    rw [reactorStep]
    split
    case h_1 => exact h
    case h_2 => simpa [hloop] using h

/-- A send dooms the reactor if it adds a task without a valid key. -/
theorem doomed_send_iff {c : ℤ} {msg : JString} (hs : ¬ s.Doomed) :
    ¬ (s.send c msg).Doomed ↔ SparesLoop s (.send c msg) := by
  by_cases hmem : c ∈ s.connectionsMap
  · rcases hencode : encode msg with e | bytes
    · rw [Reactor.send, if_pos hmem, hencode]
      exact iff_of_true hs fun _ ⟨bytes, hbytes⟩ ↦ absurd (hencode.symm.trans hbytes) (by simp)
    · have hfails : ¬ (⟨if (s.key c).isFound then some c else none, .readWrite⟩ :
          SelectorTask).Fails s.key ↔ (s.key c).isValid = true := by
        rcases hk : s.key c with - | ops | - | -
        all_goals simp [SelectorTask.Fails, KeyState.isFound, KeyState.isValid, hk]
      simp only [Reactor.Doomed, not_or, not_exists, not_and] at hs
      simp only [Reactor.send, if_pos hmem, hencode, SparesLoop, Reactor.Doomed,
        Reactor.updateInterestedOps, List.mem_append, List.mem_singleton, not_or, not_exists,
        not_and]
      constructor
      · rintro ⟨-, htasks⟩ - -
        exact hfails.1 (htasks _ (Or.inr rfl))
      · rintro hvalid
        refine ⟨hs.1, fun t ht ↦ ?_⟩
        rcases ht with ht | rfl
        · exact hs.2 t ht
        · exact hfails.2 (hvalid hmem ⟨bytes, rfl⟩)
  · rw [Reactor.send, if_neg hmem]
    exact iff_of_true hs fun h ↦ absurd h hmem

/-- **The step lemma.** -/
theorem not_doomed_next_iff (hkeys : KeysInOrder s) (hs : ¬ s.Doomed) (e : ReactorEvent) :
    ¬ (reactorMachine.next s e).Doomed ↔ SparesLoop s e := by
  rw [reactorMachine_next]
  cases e with
  | accept =>
    refine iff_of_true ?_ trivial
    rw [reactorStep]
    split
    · exact hs
    · exact hs
  | register =>
    refine iff_of_true ?_ trivial
    rw [reactorStep]
    split
    case h_1 c hc =>
      refine fun hdoomed ↦ hs (hdoomed.congr rfl rfl fun t ht c' hc' ↦ ?_)
      have hne : c' ≠ c := fun heq ↦
        hkeys.captured t ht c' hc' (heq ▸ (hkeys.accepting c hc).1)
      exact congrArg KeyState.isValid (if_neg hne)
    case h_2 => exact hs
  | close c =>
    rw [reactorStep]
    split
    case isTrue hcond =>
      simp only [SparesLoop, hcond.1, true_implies]
      constructor
      · -- the key of a closed channel is not valid
        intro hnot t ht hc
        refine hnot (Or.inr ⟨t, ht, fun c' hc' ↦ ?_⟩)
        obtain rfl := Option.some.inj (hc.symm.trans hc')
        exact congrArg KeyState.isValid (if_pos rfl)
      · intro hfree hdoomed
        refine hs (hdoomed.congr rfl rfl fun t ht c' hc' ↦ ?_)
        have hne : c' ≠ c := fun heq ↦ hfree t ht (heq ▸ hc')
        exact congrArg KeyState.isValid (if_neg hne)
    case isFalse hcond =>
      refine iff_of_true hs fun hloop t ht hc ↦ hs (Or.inr ⟨t, ht, fun c' hc' ↦ ?_⟩)
      obtain rfl := Option.some.inj (hc.symm.trans hc')
      simpa [hloop] using hcond
  | select =>
    refine iff_of_true ?_ trivial
    rw [reactorStep]
    split
    · exact fun hdoomed ↦
        hs (hdoomed.congr rfl rfl fun _ _ c _ ↦ isValid_deregister (s.key c))
    · exact hs
  | send c msg => exact doomed_send_iff hs
  | runTask =>
    refine iff_of_true ?_ trivial
    rw [reactorStep]
    split
    case h_1 => exact hs
    case h_2 t ts htasks =>
      split
      case isTrue =>
        rw [Reactor.Doomed, not_or, not_exists, htasks] at hs
        intro hdoomed
        rcases hdoomed.of_runTask fun hfails ↦ hs.2 t ⟨List.mem_cons_self, hfails⟩ with
          hthrown | ⟨t', ht', hfails⟩
        · exact hs.1 hthrown
        · exact hs.2 t' ⟨List.mem_cons_of_mem t ht', hfails⟩
      case isFalse => exact hs

/-- Registering a channel makes no task harmless. -/
theorem Reactor.Doomed.register (h : s.Doomed) (hkeys : KeysInOrder s) :
    (reactorStep s .register).Doomed ∧ (reactorStep s .register).accepting = none := by
  rw [reactorStep]
  split
  case h_1 c hc =>
    refine ⟨h.congr rfl rfl fun t ht c' hc' ↦ ?_, rfl⟩
    have hne : c' ≠ c := fun heq ↦
      hkeys.captured t ht c' hc' (heq ▸ (hkeys.accepting c hc).1)
    exact (congrArg KeyState.isValid (if_neg hne)).symm
  case h_2 hnone => exact ⟨h, hnone⟩

theorem thrown_foldl (h : s.thrown ≠ none) (es : List ReactorEvent) :
    (es.foldl reactorStep s).thrown ≠ none := by
  induction es generalizing s with
  | nil => exact h
  | cons e es ih => exact ih (thrown_reactorStep h e)

/-- **Running its tasks ends a doomed loop.** -/
theorem thrown_runTasks {ts : List SelectorTask} (htasks : s.selectorTasks = ts)
    (haccepting : s.accepting = none) (h : s.Doomed) :
    ((List.replicate ts.length ReactorEvent.runTask).foldl reactorStep s).thrown ≠ none := by
  induction ts generalizing s with
  | nil =>
    rcases h with hthrown | ⟨t, ht, -⟩
    · exact hthrown
    · rw [htasks] at ht
      exact absurd ht List.not_mem_nil
  | cons t ts ih =>
    rcases eq_or_ne s.thrown none with hnone | hthrown
    · have hstep : reactorStep s .runTask = { s with selectorTasks := ts }.runTask t := by
        simp [reactorStep, htasks, Reactor.looping, hnone, haccepting]
      rw [List.length_cons, List.replicate_succ, List.foldl_cons, hstep]
      by_cases hfails : t.Fails s.key
      · exact thrown_foldl (thrown_runTask (s := { s with selectorTasks := ts }) hfails) _
      · have hrest : Reactor.Doomed { s with selectorTasks := ts } := by
          rcases h with hthrown | ⟨t', ht', hfails'⟩
          · exact absurd hnone hthrown
          · rw [htasks] at ht'
            rcases List.mem_cons.1 ht' with rfl | ht'
            · exact absurd hfails' hfails
            · exact Or.inr ⟨t', ht', hfails'⟩
        obtain ⟨htasks', haccepting', hdoomed⟩ :=
          hrest.runTask (s := { s with selectorTasks := ts }) hfails
        exact ih htasks' (haccepting'.trans haccepting) hdoomed
    · exact thrown_foldl hthrown _

/-- Whatever the selector thread does next with what is queued, `serve` does not end. -/
def KeepsRunning (es : List ReactorEvent) : Prop :=
  ∀ rest : List ReactorEvent, (∀ e ∈ rest, e.Quiet) →
    (reactorMachine.stateAfter (es ++ rest)).thrown = none

theorem keepsRunning_iff (es : List ReactorEvent) :
    KeepsRunning es ↔ ¬ (reactorMachine.stateAfter es).Doomed := by
  constructor
  · intro hrun hdoomed
    have hkeys := keysInOrder_of_reachable (reactorMachine.reachable_stateAfter es)
    obtain ⟨hdoomed', haccepting⟩ := hdoomed.register hkeys
    refine thrown_runTasks rfl haccepting hdoomed' ?_
    have hstate := hrun (.register :: List.replicate
      (reactorStep (reactorMachine.stateAfter es) .register).selectorTasks.length .runTask) ?_
    · rw [stateAfter, List.foldl_append] at hstate
      exact hstate
    · intro e he
      rcases List.mem_cons.1 he with rfl | he
      · trivial
      · rw [List.eq_of_mem_replicate he]
        trivial
  · intro hsafe rest hquiet
    have hnot : ¬ (reactorMachine.stateAfter (es ++ rest)).Doomed := by
      induction rest using List.reverseRecOn with
      | nil => rwa [List.append_nil]
      | append_singleton rest e ih =>
        have ih := ih fun e' he' ↦ hquiet e' (List.mem_append_left _ he')
        have he := hquiet e (List.mem_append_right _ (List.mem_singleton_self e))
        rw [← List.append_assoc, stateAfter_concat,
          not_doomed_next_iff (keysInOrder_of_reachable (reactorMachine.reachable_stateAfter _)) ih]
        cases e with
        | close c => exact absurd he id
        | send c msg => exact absurd he id
        | _ => trivial
    rw [Reactor.Doomed, not_or, not_not] at hnot
    exact hnot.1

end Doom

/-- **The selection loop keeps running exactly if all steps spare it.** At no moment of the run
has an exception of a task ended `serve`, and nothing that is queued will end it. -/
theorem loop_keeps_running_iff (es : List ReactorEvent) :
    (∀ pre, pre <+: es → KeepsRunning pre) ↔
      ∀ pre e, Occurs es pre e → SparesLoop (reactorMachine.stateAfter pre) e := by
  have hinit : ¬ Reactor.init.Doomed := by
    rintro (hthrown | ⟨t, ht, -⟩)
    · exact hthrown rfl
    · exact absurd ht List.not_mem_nil
  simp only [keepsRunning_iff]
  exact invariant_along_iff (M := reactorMachine) (P := fun s ↦ ¬ s.Doomed) hinit
    (fun s e hreach hs ↦ not_doomed_next_iff (keysInOrder_of_reachable hreach) hs e) es

/-- A client disconnects before its REGISTER is answered. -/
def vanishesBeforeAnswer : List ReactorEvent :=
  [.accept, .register, .close 0, .send 0 (str "1001")]

/-- **One disconnect stops the server.** The answer REGISTER sends on the connection captures the
cancelled key, or no key if the selector has been there first, and the task ends `serve`. -/
theorem disconnect_stops_reactor :
    (process .listed 0 (Server.init .reactor).accept (str "01alice\x00a\x0001-01-1990\x00")).sent =
        [(0, str "1001")] ∧
      (reactorMachine.stateAfter (vanishesBeforeAnswer ++ [.runTask])).thrown =
        some .cancelledKey ∧
      (reactorMachine.stateAfter
        [.accept, .register, .close 0, .select, .send 0 (str "1001"), .runTask]).thrown =
          some .nullPointer ∧
      ¬ KeepsRunning vanishesBeforeAnswer := by
  have hthrown : (reactorMachine.stateAfter (vanishesBeforeAnswer ++ [.runTask])).thrown =
      some .cancelledKey := by decide
  refine ⟨by decide, hthrown, by decide, fun hrun ↦ ?_⟩
  rw [hrun [.runTask] fun e he ↦ List.mem_singleton.1 he ▸ trivial] at hthrown
  exact absurd hthrown (by simp)

end SplNet
