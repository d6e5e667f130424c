import SplNet.Srv.ActorThreadPool

/-!
# The actor pool serialises the tasks of an actor

To an actor the pool is one queue: tasks enter at the end, and the first one, if any, is in the
hands of the executor until it is completed. **An actor is in `playingNow` exactly while a task of
it is in the executor's hands** (`PoolInvariant.playing`), so the next one is handed over only by
`complete`, and whatever is pending has a `complete` coming. The histories then follow from the
queue rule (`fifo_accounted`), once for what is submitted and started, once for what is started and
completed.
-/

namespace SplNet

open LabelledMachine

section Tasks

variable {α ρ : Type*} [DecidableEq α]

/-- The tasks of one actor in a list. -/
def tasksOf (act : α) (l : List (α × ρ)) : List ρ := (l.filter (·.1 = act)).map Prod.snd

variable {act b : α} {r : ρ} {l l' : List (α × ρ)}

@[simp] theorem tasksOf_nil : tasksOf act ([] : List (α × ρ)) = [] := rfl

@[simp] theorem tasksOf_append : tasksOf act (l ++ l') = tasksOf act l ++ tasksOf act l' := by
  simp [tasksOf]

@[simp] theorem tasksOf_cons_self : tasksOf act ((act, r) :: l) = r :: tasksOf act l := by
  simp [tasksOf]

theorem tasksOf_cons_of_ne (h : b ≠ act) : tasksOf act ((b, r) :: l) = tasksOf act l := by
  simp [tasksOf, h]

variable [DecidableEq ρ]

theorem tasksOf_erase_of_ne (h : b ≠ act) : tasksOf act (l.erase (b, r)) = tasksOf act l := by
  induction l with
  | nil => rfl
  | cons x l ih =>
    rcases eq_or_ne x (b, r) with rfl | hx
    · rw [List.erase_cons_head, tasksOf_cons_of_ne h]
    · rw [List.erase_cons_tail (by simpa using hx)]
      simp only [tasksOf, List.filter_cons] at ih ⊢
      split
      · rw [List.map_cons, List.map_cons, ih]
      · exact ih

/-- The only task of an actor, and what is left without it. -/
theorem tasksOf_erase_self (h : (act, r) ∈ l) (hlen : (tasksOf act l).length ≤ 1) :
    tasksOf act l = [r] ∧ tasksOf act (l.erase (act, r)) = [] := by
  have hperm : (tasksOf act l).Perm (r :: tasksOf act (l.erase (act, r))) := by
    rw [← tasksOf_cons_self]
    exact ((List.perm_cons_erase h).filter _).map _
  have hnil : tasksOf act (l.erase (act, r)) = [] := by
    have := hperm.length_eq
    rw [List.length_cons] at this
    exact List.eq_nil_of_length_eq_zero (by omega)
  rw [hnil] at hperm ⊢
  exact ⟨List.perm_singleton.1 hperm, rfl⟩

end Tasks

section Pool

variable {α ρ : Type*} [DecidableEq α] {s : ActorThreadPool α ρ} {a : α}

namespace ActorThreadPool

/-- The tasks of an actor that have been handed to the executor and are not completed. -/
def handed (s : ActorThreadPool α ρ) (a : α) : List ρ :=
  tasksOf a s.waiting ++ tasksOf a s.running ++ tasksOf a s.ended

/-- The tasks of an actor that have been started and are not completed. -/
def atWork (s : ActorThreadPool α ρ) (a : α) : List ρ := tasksOf a s.running ++ tasksOf a s.ended

/-- The queue the pool keeps for an actor. -/
def outstanding (s : ActorThreadPool α ρ) (a : α) : List ρ :=
  s.handed a ++ s.pendingRunnablesOf a

/-- The part of it that has not been started. -/
def notStarted (s : ActorThreadPool α ρ) (a : α) : List ρ :=
  tasksOf a s.waiting ++ s.pendingRunnablesOf a

end ActorThreadPool

/-- **The invariant of one actor.** -/
structure PoolInvariant (s : ActorThreadPool α ρ) (a : α) : Prop where
  serial : (s.handed a).length ≤ 1
  playing : a ∈ s.playingNow ↔ s.handed a ≠ []
  pending : s.pendingRunnablesOf a ≠ [] → s.handed a ≠ []

namespace PoolRecord

/-- The task the record says was submitted for the actor. -/
def submittedOf (a : α) : PoolRecord α ρ → List ρ
  | .submitted b r => if b = a then [r] else []
  | _ => []

def startedOf (a : α) : PoolRecord α ρ → List ρ
  | .started b r => if b = a then [r] else []
  | _ => []

def completedOf (a : α) : PoolRecord α ρ → List ρ
  | .completed b r => if b = a then [r] else []
  | _ => []

end PoolRecord

/-- What a step does to the queue of an actor: it keeps the invariant, tasks enter at the end when
they are submitted, and leave at the front when they are started and when they are completed. -/
structure QueueStep (s : ActorThreadPool α ρ) (a : α)
    (x : ActorThreadPool α ρ × PoolRecord α ρ) : Prop where
  invariant : PoolInvariant x.1 a
  outstanding : s.outstanding a ++ x.2.submittedOf a = x.2.completedOf a ++ x.1.outstanding a
  notStarted : s.notStarted a ++ x.2.submittedOf a = x.2.startedOf a ++ x.1.notStarted a
  atWork : s.atWork a ++ x.2.startedOf a = x.2.completedOf a ++ x.1.atWork a

/-- A step of which the actor notices nothing. -/
theorem QueueStep.of_same (h : PoolInvariant s a) {s' : ActorThreadPool α ρ}
    {record : PoolRecord α ρ} (hsubmitted : record.submittedOf a = [])
    (hstarted : record.startedOf a = []) (hcompleted : record.completedOf a = [])
    (hpending : s'.acts a = s.acts a) (hplaying : a ∈ s'.playingNow ↔ a ∈ s.playingNow)
    (hwaiting : tasksOf a s'.waiting = tasksOf a s.waiting)
    (hrunning : tasksOf a s'.running = tasksOf a s.running)
    (hended : tasksOf a s'.ended = tasksOf a s.ended) : QueueStep s a (s', record) := by
  have hhanded : s'.handed a = s.handed a := by
    rw [ActorThreadPool.handed, hwaiting, hrunning, hended, ActorThreadPool.handed]
  have hp : s'.pendingRunnablesOf a = s.pendingRunnablesOf a := hpending
  refine ⟨⟨?_, ?_, ?_⟩, ?_, ?_, ?_⟩
  · rw [hhanded]
    exact h.serial
  · rw [hhanded, hplaying]
    exact h.playing
  · rw [hhanded, hp]
    exact h.pending
  · simp only [ActorThreadPool.outstanding, hhanded, hp, hsubmitted, hcompleted, List.append_nil,
      List.nil_append]
  · simp only [ActorThreadPool.notStarted, hwaiting, hp, hsubmitted, hstarted, List.append_nil,
      List.nil_append]
  · simp only [ActorThreadPool.atWork, hrunning, hended, hstarted, hcompleted, List.append_nil,
      List.nil_append]

theorem submit_step (h : PoolInvariant s a) (act : α) (r : ρ) :
    QueueStep s a (s.submit act r, .submitted act r) := by
  rw [ActorThreadPool.submit]
  split
  case isTrue hidle =>
    rcases eq_or_ne act a with rfl | hne
    · -- the actor was idle: nothing handed, nothing pending
      have hhanded : s.handed act = [] := by
        by_contra hne
        exact hidle (h.playing.2 hne)
      have hpending : s.acts act = [] := by
        by_contra hne
        exact h.pending hne hhanded
      have hparts := hhanded
      simp only [ActorThreadPool.handed, List.append_eq_nil_iff] at hparts
      obtain ⟨⟨hwaiting, hrunning⟩, hended⟩ := hparts
      constructor
      · constructor <;> simp [ActorThreadPool.execute, ActorThreadPool.handed,
          ActorThreadPool.pendingRunnablesOf, hwaiting, hrunning, hended, hpending]
      all_goals simp [ActorThreadPool.execute, ActorThreadPool.outstanding, ActorThreadPool.handed,
        ActorThreadPool.notStarted, ActorThreadPool.atWork, ActorThreadPool.pendingRunnablesOf,
        PoolRecord.submittedOf, PoolRecord.startedOf, PoolRecord.completedOf, hwaiting, hrunning,
        hended, hpending]
    · refine .of_same h (if_neg hne) rfl rfl rfl ?_ ?_ rfl rfl
      · simp [ActorThreadPool.execute, hne.symm]
      · simp [ActorThreadPool.execute, tasksOf_cons_of_ne hne]
  case isFalse hplaying =>
    rcases eq_or_ne act a with rfl | hne
    · rw [not_not] at hplaying
      have hpending : (s.setPending act (s.pendingRunnablesOf act ++ [r])).pendingRunnablesOf act =
          s.pendingRunnablesOf act ++ [r] := if_pos rfl
      constructor
      · exact ⟨h.serial, h.playing, fun _ ↦ h.playing.1 hplaying⟩
      · show s.outstanding act ++ (if act = act then [r] else []) =
          [] ++ (s.handed act ++ _)
        rw [if_pos rfl, hpending, ActorThreadPool.outstanding, List.append_assoc, List.nil_append]
      · show s.notStarted act ++ (if act = act then [r] else []) =
          [] ++ (tasksOf act s.waiting ++ _)
        rw [if_pos rfl, hpending, ActorThreadPool.notStarted, List.append_assoc, List.nil_append]
      · exact List.append_nil _
    · exact .of_same h (if_neg hne) rfl rfl (if_neg hne.symm) Iff.rfl rfl rfl rfl

theorem poolInvariant_init : PoolInvariant (ActorThreadPool.init : ActorThreadPool α ρ) a where
  serial := Nat.zero_le 1
  playing := by simp [ActorThreadPool.init, ActorThreadPool.handed]
  pending h := absurd rfl h

/-- Where the one task in the executor's hands is. -/
theorem PoolInvariant.length_le (h : PoolInvariant s a) :
    (tasksOf a s.waiting).length + (tasksOf a s.running).length +
      (tasksOf a s.ended).length ≤ 1 := by
  have hserial := h.serial
  rwa [ActorThreadPool.handed, List.length_append, List.length_append] at hserial

variable [DecidableEq ρ]

theorem start_step (h : PoolInvariant s a) {act : α} {r : ρ} (hmem : (act, r) ∈ s.waiting) :
    QueueStep s a ({ s with waiting := s.waiting.erase (act, r)
                            running := s.running ++ [(act, r)] }, .started act r) := by
  rcases eq_or_ne act a with rfl | hne
  · have hlen := h.length_le
    obtain ⟨hwaiting, herase⟩ := tasksOf_erase_self hmem (by omega)
    rw [hwaiting, List.length_singleton] at hlen
    have hrunning := List.eq_nil_of_length_eq_zero (l := tasksOf act s.running) (by omega)
    have hended := List.eq_nil_of_length_eq_zero (l := tasksOf act s.ended) (by omega)
    have hplaying : act ∈ s.playingNow :=
      h.playing.2 (by simp [ActorThreadPool.handed, hwaiting])
    constructor
    · constructor <;> simp [ActorThreadPool.handed, herase, hrunning, hended, hplaying]
    · simp [ActorThreadPool.outstanding, ActorThreadPool.handed, herase, hwaiting, hrunning, hended,
        PoolRecord.submittedOf, PoolRecord.completedOf, ActorThreadPool.pendingRunnablesOf]
    · simp [ActorThreadPool.notStarted, herase, hwaiting, PoolRecord.submittedOf,
        PoolRecord.startedOf, ActorThreadPool.pendingRunnablesOf]
    · simp [ActorThreadPool.atWork, hrunning, hended, PoolRecord.startedOf, PoolRecord.completedOf]
  · refine .of_same h rfl (if_neg hne) rfl rfl Iff.rfl (tasksOf_erase_of_ne hne) ?_ rfl
    simp [tasksOf_cons_of_ne hne]

theorem finish_step (h : PoolInvariant s a) {act : α} {r : ρ} (hmem : (act, r) ∈ s.running) :
    QueueStep s a ({ s with running := s.running.erase (act, r)
                            ended := s.ended ++ [(act, r)] }, .other) := by
  rcases eq_or_ne act a with rfl | hne
  · have hlen := h.length_le
    obtain ⟨hrunning, herase⟩ := tasksOf_erase_self hmem (by omega)
    rw [hrunning, List.length_singleton] at hlen
    have hwaiting := List.eq_nil_of_length_eq_zero (l := tasksOf act s.waiting) (by omega)
    have hended := List.eq_nil_of_length_eq_zero (l := tasksOf act s.ended) (by omega)
    have hplaying : act ∈ s.playingNow :=
      h.playing.2 (by simp [ActorThreadPool.handed, hrunning])
    constructor
    · constructor <;> simp [ActorThreadPool.handed, herase, hwaiting, hended, hplaying]
    · simp [ActorThreadPool.outstanding, ActorThreadPool.handed, herase, hwaiting, hrunning, hended,
        PoolRecord.submittedOf, PoolRecord.completedOf, ActorThreadPool.pendingRunnablesOf]
    · simp [ActorThreadPool.notStarted, PoolRecord.submittedOf, PoolRecord.startedOf,
        ActorThreadPool.pendingRunnablesOf]
    · simp [ActorThreadPool.atWork, herase, hrunning, hended, PoolRecord.startedOf,
        PoolRecord.completedOf]
  · refine .of_same h rfl rfl rfl rfl Iff.rfl rfl (tasksOf_erase_of_ne hne) ?_
    simp [tasksOf_cons_of_ne hne]

theorem complete_step (h : PoolInvariant s a) {act : α} {r : ρ} (hmem : (act, r) ∈ s.ended) :
    QueueStep s a ({ s with ended := s.ended.erase (act, r) }.complete act, .completed act r) := by
  rcases eq_or_ne act a with rfl | hne
  · have hlen := h.length_le
    obtain ⟨hended, herase⟩ := tasksOf_erase_self hmem (by omega)
    rw [hended, List.length_singleton] at hlen
    have hwaiting := List.eq_nil_of_length_eq_zero (l := tasksOf act s.waiting) (by omega)
    have hrunning := List.eq_nil_of_length_eq_zero (l := tasksOf act s.running) (by omega)
    have hplaying : act ∈ s.playingNow :=
      h.playing.2 (by simp [ActorThreadPool.handed, hended])
    rcases hpending : s.acts act with - | ⟨r', rs⟩
    · -- nothing is pending: the actor becomes idle
      simp only [ActorThreadPool.complete, ActorThreadPool.pendingRunnablesOf, hpending]
      constructor
      · constructor <;> simp [ActorThreadPool.handed, herase, hwaiting, hrunning,
          ActorThreadPool.pendingRunnablesOf, hpending]
      all_goals simp [ActorThreadPool.outstanding, ActorThreadPool.handed,
        ActorThreadPool.notStarted, ActorThreadPool.atWork, ActorThreadPool.pendingRunnablesOf,
        herase, hwaiting, hrunning, hended, hpending, PoolRecord.submittedOf,
        PoolRecord.startedOf, PoolRecord.completedOf]
    · -- the first pending task is handed over
      simp only [ActorThreadPool.complete, ActorThreadPool.pendingRunnablesOf, hpending]
      constructor
      · constructor <;> simp [ActorThreadPool.handed, ActorThreadPool.execute,
          ActorThreadPool.setPending, herase, hwaiting, hrunning, hplaying]
      all_goals simp [ActorThreadPool.outstanding, ActorThreadPool.handed,
        ActorThreadPool.notStarted, ActorThreadPool.atWork, ActorThreadPool.execute,
        ActorThreadPool.setPending, ActorThreadPool.pendingRunnablesOf, herase, hwaiting,
        hrunning, hended, hpending,
        PoolRecord.submittedOf, PoolRecord.startedOf, PoolRecord.completedOf]
  · have hrecord : (PoolRecord.completed act r).completedOf a = [] := if_neg hne
    rcases hpending : s.acts act with - | ⟨r', rs⟩
    · simp only [ActorThreadPool.complete, ActorThreadPool.pendingRunnablesOf, hpending]
      refine .of_same h rfl rfl hrecord rfl ?_ rfl rfl (tasksOf_erase_of_ne hne)
      simp [hne.symm]
    · simp only [ActorThreadPool.complete, ActorThreadPool.pendingRunnablesOf, hpending]
      refine .of_same h rfl rfl hrecord (if_neg hne.symm) Iff.rfl ?_ rfl (tasksOf_erase_of_ne hne)
      simp [ActorThreadPool.execute, ActorThreadPool.setPending, tasksOf_cons_of_ne hne]

/-- **The step lemma**: every step is a step of the actor's queue. -/
theorem poolStep_spec {workers : ℕ} (h : PoolInvariant s a) (e : PoolEvent α ρ) :
    QueueStep s a (poolStep workers s e) := by
  have hidle : QueueStep s a (s, .other) := .of_same h rfl rfl rfl rfl Iff.rfl rfl rfl rfl
  cases e with
  | submit act r => exact submit_step h act r
  | start act r =>
    rw [poolStep]
    split
    case isTrue hcond => exact start_step h hcond.1
    case isFalse => exact hidle
  | finish act r normally =>
    rw [poolStep]
    split
    case isTrue hmem => exact finish_step h hmem
    case isFalse => exact hidle
  | complete act r =>
    rw [poolStep]
    split
    case isTrue hmem => exact complete_step h hmem
    case isFalse => exact hidle

theorem poolInvariant_of_reachable {workers : ℕ} (h : (poolMachine α ρ workers).Reachable s)
    (a : α) : PoolInvariant s a := by
  refine h.invariant (P := fun s ↦ PoolInvariant s a) poolInvariant_init fun s e _ hs ↦ ?_
  exact (poolStep_spec hs e).invariant

/-! ### Unfinished tasks -/

/-- The tasks of an actor that have not ended. -/
def ActorThreadPool.unfinished (s : ActorThreadPool α ρ) (a : α) : List ρ :=
  tasksOf a s.running ++ s.notStarted a

section Unfinished

variable {workers : ℕ} (h : PoolInvariant s a) (act : α) (r : ρ)

include h in
theorem unfinished_submit :
    (poolStep workers s (.submit act r)).1.unfinished a =
      s.unfinished a ++ if act = a then [r] else [] := by
  have hrunning : (s.submit act r).running = s.running := by
    rw [ActorThreadPool.submit]
    split <;> rfl
  have hqueue := (submit_step h act r).notStarted
  show tasksOf a (s.submit act r).running ++ (s.submit act r).notStarted a = _
  rw [hrunning, ActorThreadPool.unfinished, List.append_assoc]
  exact congrArg _ hqueue.symm

include h in
theorem unfinished_start :
    (poolStep workers s (.start act r)).1.unfinished a = s.unfinished a := by
  rw [poolStep]
  split
  case isTrue hcond =>
    have hqueue := (start_step h hcond.1).notStarted
    rcases eq_or_ne act a with rfl | hne
    · -- the task was the only one handed over, so none was running
      have hlen := h.length_le
      obtain ⟨hwaiting, -⟩ := tasksOf_erase_self hcond.1 (by omega)
      rw [hwaiting, List.length_singleton] at hlen
      have hrunning := List.eq_nil_of_length_eq_zero (l := tasksOf act s.running) (by omega)
      simp only [PoolRecord.submittedOf, PoolRecord.startedOf, if_true, List.append_nil] at hqueue
      rw [ActorThreadPool.unfinished, ActorThreadPool.unfinished, tasksOf_append, hrunning, hqueue]
      simp
    · simp only [PoolRecord.submittedOf, PoolRecord.startedOf, if_neg hne, List.append_nil,
        List.nil_append] at hqueue
      rw [ActorThreadPool.unfinished, ActorThreadPool.unfinished, tasksOf_append,
        tasksOf_cons_of_ne hne, tasksOf_nil, List.append_nil, hqueue]
  case isFalse => rfl

include h in
theorem unfinished_finish {act : α} {r : ρ} (hmem : (act, r) ∈ s.running) (normally : Bool) :
    s.unfinished a =
      (if act = a then [r] else []) ++
        (poolStep workers s (.finish act r normally)).1.unfinished a := by
  rw [poolStep, if_pos hmem]
  rcases eq_or_ne act a with rfl | hne
  · have hlen := h.length_le
    obtain ⟨hrunning, herase⟩ := tasksOf_erase_self hmem (by omega)
    rw [if_pos rfl, ActorThreadPool.unfinished, ActorThreadPool.unfinished, hrunning, herase]
    rfl
  · rw [if_neg hne, ActorThreadPool.unfinished, ActorThreadPool.unfinished, List.nil_append,
      tasksOf_erase_of_ne hne]
    rfl

include h in
theorem unfinished_complete :
    (poolStep workers s (.complete act r)).1.unfinished a = s.unfinished a := by
  rw [poolStep]
  split
  case isTrue hmem =>
    have hrunning : ({ s with ended := s.ended.erase (act, r) }.complete act).running =
        s.running := by
      rw [ActorThreadPool.complete]
      split <;> rfl
    have hqueue := (complete_step h hmem).notStarted
    simp only [PoolRecord.submittedOf, PoolRecord.startedOf, List.append_nil, List.nil_append]
      at hqueue
    rw [ActorThreadPool.unfinished, ActorThreadPool.unfinished, hrunning, hqueue]
  case isFalse => rfl

end Unfinished

/-! ### All runs -/

/-- The task that is submitted for the actor. -/
def PoolEvent.submittedFor (a : α) : PoolEvent α ρ → List ρ
  | .submit b r => if b = a then [r] else []
  | _ => []

/-- The record has every submission, and nothing else as one. -/
theorem submitted_eq (workers : ℕ) (es : List (PoolEvent α ρ)) (a : α) :
    ((poolMachine α ρ workers).outputs es).flatMap (PoolRecord.submittedOf a) =
      es.flatMap (PoolEvent.submittedFor a) := by
  refine outputs_flatMap_eq (fun s e ↦ ?_) es
  show (poolStep workers s e).2.submittedOf a = _
  cases e with
  | submit => rfl
  | _ =>
    rw [poolStep]
    split <;> rfl

/-- **The pool serialises the tasks of each actor**, seen after the steps `es`. -/
structure Serialised (workers : ℕ) (es : List (PoolEvent α ρ)) (a : α) : Prop where
  /-- At most one task is handed to the executor and not completed. -/
  serial : (((poolMachine α ρ workers).stateAfter es).handed a).length ≤ 1
  /-- Tasks are started in the order in which they were submitted. -/
  in_order : ((poolMachine α ρ workers).outputs es).flatMap (PoolRecord.startedOf a) <+:
    es.flatMap (PoolEvent.submittedFor a)
  /-- Every submitted task is completed, handed to the executor or pending, and is so once. -/
  accounted : es.flatMap (PoolEvent.submittedFor a) =
    ((poolMachine α ρ workers).outputs es).flatMap (PoolRecord.completedOf a) ++
      ((poolMachine α ρ workers).stateAfter es).handed a ++
        ((poolMachine α ρ workers).stateAfter es).pendingRunnablesOf a
  /-- Every started task is completed or at work, and is so once. -/
  started_once : ((poolMachine α ρ workers).outputs es).flatMap (PoolRecord.startedOf a) =
    ((poolMachine α ρ workers).outputs es).flatMap (PoolRecord.completedOf a) ++
      ((poolMachine α ρ workers).stateAfter es).atWork a
  /-- A pending task has a completion coming. -/
  released : ((poolMachine α ρ workers).stateAfter es).pendingRunnablesOf a ≠ [] →
    a ∈ ((poolMachine α ρ workers).stateAfter es).playingNow ∧
      ((poolMachine α ρ workers).stateAfter es).handed a ≠ []

/-- **For any number of actors and workers and any interleaving**, the tasks of each actor are
serialised. -/
theorem actor_pool_serialises (workers : ℕ) (es : List (PoolEvent α ρ)) (a : α) :
    Serialised workers es a := by
  have hinv := poolInvariant_of_reachable ((poolMachine α ρ workers).reachable_stateAfter es) a
  have hspec : ∀ s e, (poolMachine α ρ workers).Reachable s →
      QueueStep s a (poolStep workers s e) :=
    fun s e hs ↦ poolStep_spec (poolInvariant_of_reachable hs a) e
  have houtstanding := fifo_accounted (M := poolMachine α ρ workers) (f := (·.outstanding a))
    (i := PoolRecord.submittedOf a) (o := PoolRecord.completedOf a) rfl
    (fun s e hs ↦ (hspec s e hs).outstanding) es
  have hnotStarted := fifo_accounted (M := poolMachine α ρ workers) (f := (·.notStarted a))
    (i := PoolRecord.submittedOf a) (o := PoolRecord.startedOf a) rfl
    (fun s e hs ↦ (hspec s e hs).notStarted) es
  have hatWork := fifo_accounted (M := poolMachine α ρ workers) (f := (·.atWork a))
    (i := PoolRecord.startedOf a) (o := PoolRecord.completedOf a) rfl
    (fun s e hs ↦ (hspec s e hs).atWork) es
  rw [submitted_eq] at houtstanding hnotStarted
  exact
    { serial := hinv.serial
      in_order := hnotStarted ▸ List.prefix_append _ _
      accounted := by rw [houtstanding, ActorThreadPool.outstanding, List.append_assoc]
      started_once := hatWork
      released := fun hpending ↦ ⟨hinv.playing.2 (hinv.pending hpending), hinv.pending hpending⟩ }

end Pool

end SplNet
