import Mathlib.Algebra.BigOperators.Group.Finset.Basic
import SplNet.Foundations.RunExtension
import SplNet.Foundations.RunHistory
import SplNet.Properties.ActorPool

/-!
# Progress of the actor thread pool

What the tasks submitted to an `ActorThreadPool` can rely on, whatever the workers do.

* Every task is executed: as long as one is not, some worker can go on, and a submission costs the
  workers three steps (`every_task_is_executed`). So the workers cannot block each other, and they
  cannot go on for ever without finishing.
* No actor waits for ever: the queue of the executor is first in, first out, and an actor has one
  place in it at most, so while it waits no other actor is started twice (`no_actor_overtakes`).
-/

namespace SplNet

open LabelledMachine

section PoolProgress

variable {α ρ : Type*} {workers : ℕ} {s : ActorThreadPool α ρ} {a : α}

/-! ### What is left to do -/

/-- A step a worker can do now. -/
def PoolEvent.Works (workers : ℕ) (s : ActorThreadPool α ρ) : PoolEvent α ρ → Prop
  | .submit _ _ => False
  | .start act r => (act, r) ∈ s.waiting ∧ s.running.length + s.ended.length < workers
  | .finish act r _ => (act, r) ∈ s.running
  | .complete act r => (act, r) ∈ s.ended

/-- A task is submitted. -/
def PoolEvent.isSubmit : PoolEvent α ρ → Bool
  | .submit _ _ => true
  | _ => false

theorem PoolEvent.Works.not_isSubmit {e : PoolEvent α ρ} (h : e.Works workers s) :
    e.isSubmit = false := by
  cases e with
  | submit => exact absurd h id
  | _ => rfl

/-- When no worker can do anything, the executor has nothing to do. -/
theorem executor_eq_nil_of_not_works (hworkers : 0 < workers)
    (h : ∀ e : PoolEvent α ρ, ¬ e.Works workers s) :
    s.waiting = [] ∧ s.running = [] ∧ s.ended = [] := by
  have hrunning : s.running = [] := List.eq_nil_iff_forall_not_mem.2 fun t ht ↦
    h (.finish t.1 t.2 true) ht
  have hended : s.ended = [] := List.eq_nil_iff_forall_not_mem.2 fun t ht ↦ h (.complete t.1 t.2) ht
  have hwaiting : s.waiting = [] := List.eq_nil_iff_forall_not_mem.2 fun t ht ↦ by
    refine h (.start t.1 t.2) ⟨ht, ?_⟩
    rw [hrunning, hended]
    exact hworkers
  exact ⟨hwaiting, hrunning, hended⟩

variable [DecidableEq α]

/-- The steps that are left to the workers: three for each task, less those already done for it. -/
def ActorThreadPool.remaining (s : ActorThreadPool α ρ) : ℕ :=
  3 * s.waiting.length + 2 * s.running.length + s.ended.length +
    3 * ∑ a ∈ s.playingNow.toFinset, (s.pendingRunnablesOf a).length

/-- The tasks pending for an actor that is not playing. -/
theorem PoolInvariant.pending_eq_nil (h : PoolInvariant s a) (ha : a ∉ s.playingNow) :
    s.pendingRunnablesOf a = [] := by
  by_contra hne
  exact ha (h.playing.2 (h.pending hne))

/-- A task in the executor's hands is outstanding. -/
theorem mem_handed {r : ρ} (hmem : (a, r) ∈ s.waiting ++ s.running ++ s.ended) :
    r ∈ s.handed a := by
  rw [ActorThreadPool.handed, ← tasksOf_append, ← tasksOf_append]
  exact List.mem_map.2 ⟨(a, r), List.mem_filter.2 ⟨hmem, decide_eq_true rfl⟩, rfl⟩

/-- One queue changes its length. -/
theorem sum_setPending {act : α} (hact : act ∈ s.playingNow) (rs : List ρ) :
    ∑ a ∈ s.playingNow.toFinset, ((s.setPending act rs).pendingRunnablesOf a).length +
        (s.pendingRunnablesOf act).length =
      ∑ a ∈ s.playingNow.toFinset, (s.pendingRunnablesOf a).length + rs.length := by
  have hmem : act ∈ s.playingNow.toFinset := List.mem_toFinset.2 hact
  rw [← Finset.sum_erase_add _ _ hmem, ← Finset.sum_erase_add _ _ hmem]
  have hself : (s.setPending act rs).pendingRunnablesOf act = rs := if_pos rfl
  have hothers : ∑ a ∈ s.playingNow.toFinset.erase act,
      ((s.setPending act rs).pendingRunnablesOf a).length =
      ∑ a ∈ s.playingNow.toFinset.erase act, (s.pendingRunnablesOf a).length := by
    refine Finset.sum_congr rfl fun a ha ↦ ?_
    exact congrArg List.length (if_neg (Finset.ne_of_mem_erase ha))
  rw [hself, hothers]
  omega

/-- A submission grants three steps. -/
theorem remaining_submit (h : ∀ a, PoolInvariant s a) (act : α) (r : ρ) :
    (s.submit act r).remaining = s.remaining + 3 := by
  rw [ActorThreadPool.submit]
  split
  case isTrue hidle =>
    have hsum : ∑ a ∈ (act :: s.playingNow).toFinset, (s.pendingRunnablesOf a).length =
        ∑ a ∈ s.playingNow.toFinset, (s.pendingRunnablesOf a).length := by
      rw [List.toFinset_cons, Finset.sum_insert fun hmem ↦ hidle (List.mem_toFinset.1 hmem),
        (h act).pending_eq_nil hidle]
      exact Nat.zero_add _
    show 3 * (s.waiting ++ [(act, r)]).length + 2 * s.running.length + s.ended.length +
      3 * ∑ a ∈ (act :: s.playingNow).toFinset, (s.pendingRunnablesOf a).length = _
    rw [hsum, List.length_append, List.length_singleton, ActorThreadPool.remaining]
    omega
  case isFalse hplaying =>
    have hsum := sum_setPending (not_not.1 hplaying) (s.pendingRunnablesOf act ++ [r])
    rw [List.length_append, List.length_singleton] at hsum
    show 3 * s.waiting.length + 2 * s.running.length + s.ended.length +
      3 * ∑ a ∈ s.playingNow.toFinset, ((s.setPending act _).pendingRunnablesOf a).length = _
    rw [ActorThreadPool.remaining]
    omega

/-- `complete` hands over the next task of the actor, or the actor stops playing. -/
theorem remaining_complete {act : α} (hact : act ∈ s.playingNow) :
    (s.complete act).remaining = s.remaining := by
  rw [ActorThreadPool.complete]
  split
  case h_1 hnil =>
    have hset : (s.playingNow.filter (· ≠ act)).toFinset = s.playingNow.toFinset.erase act := by
      ext a
      simp [and_comm]
    have hsum : ∑ a ∈ s.playingNow.toFinset.erase act, (s.pendingRunnablesOf a).length =
        ∑ a ∈ s.playingNow.toFinset, (s.pendingRunnablesOf a).length := by
      rw [← Finset.sum_erase_add _ _ (List.mem_toFinset.2 hact), hnil]
      rfl
    show 3 * s.waiting.length + 2 * s.running.length + s.ended.length +
      3 * ∑ a ∈ (s.playingNow.filter (· ≠ act)).toFinset, (s.pendingRunnablesOf a).length = _
    rw [hset, hsum, ActorThreadPool.remaining]
  case h_2 r rs hcons =>
    have hsum := sum_setPending hact rs
    rw [hcons, List.length_cons] at hsum
    show 3 * (s.waiting ++ [(act, r)]).length + 2 * s.running.length + s.ended.length +
      3 * ∑ a ∈ s.playingNow.toFinset, ((s.setPending act rs).pendingRunnablesOf a).length = _
    rw [List.length_append, List.length_singleton, ActorThreadPool.remaining]
    omega

/-! ### What cannot go on -/

/-- A worker has something to do exactly as long as a task is outstanding. -/
theorem exists_works_iff (hworkers : 0 < workers) (h : ∀ a, PoolInvariant s a) :
    (∃ e : PoolEvent α ρ, e.Works workers s) ↔ ∃ a, s.outstanding a ≠ [] := by
  constructor
  · have hof : ∀ act r, (act, r) ∈ s.waiting ++ s.running ++ s.ended →
        ∃ a, s.outstanding a ≠ [] := fun act r hmem ↦
      ⟨act, List.ne_nil_of_mem (List.mem_append_left _ (mem_handed hmem))⟩
    rintro ⟨e, hworks⟩
    cases e with
    | submit => exact absurd hworks id
    | start act r =>
      exact hof act r (List.mem_append_left _ (List.mem_append_left _ hworks.1))
    | finish act r normally =>
      exact hof act r (List.mem_append_left _ (List.mem_append_right _ hworks))
    | complete act r => exact hof act r (List.mem_append_right _ hworks)
  · rintro ⟨a, ha⟩
    by_contra hnone
    obtain ⟨hwaiting, hrunning, hended⟩ :=
      executor_eq_nil_of_not_works hworkers (not_exists.1 hnone)
    have hhanded : s.handed a = [] := by
      rw [ActorThreadPool.handed, hwaiting, hrunning, hended]
      rfl
    have hpending : s.pendingRunnablesOf a = [] := by
      by_contra hne
      exact (h a).pending hne hhanded
    exact ha (by rw [ActorThreadPool.outstanding, hhanded, hpending]; rfl)

variable [DecidableEq ρ]

/-! ### One step -/

instance decidableWorks (s : ActorThreadPool α ρ) (e : PoolEvent α ρ) :
    Decidable (e.Works workers s) :=
  match e with
  | .submit _ _ => inferInstanceAs (Decidable False)
  | .start act r => inferInstanceAs (Decidable ((act, r) ∈ s.waiting ∧
      s.running.length + s.ended.length < workers))
  | .finish act r _ => inferInstanceAs (Decidable ((act, r) ∈ s.running))
  | .complete act r => inferInstanceAs (Decidable ((act, r) ∈ s.ended))

section Step

variable {act : α} {r : ρ}

theorem poolStep_start (h : (PoolEvent.start act r).Works workers s) :
    poolStep workers s (.start act r) =
      ({ s with waiting := s.waiting.erase (act, r), running := s.running ++ [(act, r)] },
        .started act r) := if_pos h

theorem poolStep_finish {normally : Bool} (h : (PoolEvent.finish act r normally).Works workers s) :
    poolStep workers s (.finish act r normally) =
      ({ s with running := s.running.erase (act, r), ended := s.ended ++ [(act, r)] }, .other) :=
  if_pos h

theorem poolStep_complete (h : (PoolEvent.complete act r).Works workers s) :
    poolStep workers s (.complete act r) =
      ({ s with ended := s.ended.erase (act, r) }.complete act, .completed act r) := if_pos h

/-- Other events than submissions and the steps of workers do nothing. -/
theorem poolStep_of_not_works {e : PoolEvent α ρ} (h : ¬ e.Works workers s) :
    (∃ act r, e = .submit act r) ∨ poolStep workers s e = (s, .other) ∧ e.isSubmit = false := by
  cases e with
  | submit act r => exact Or.inl ⟨act, r, rfl⟩
  | start => exact Or.inr ⟨if_neg h, rfl⟩
  | finish => exact Or.inr ⟨if_neg h, rfl⟩
  | complete => exact Or.inr ⟨if_neg h, rfl⟩

end Step

/-- **One step of the credit**: a step of a worker uses up one unit, a submission grants three. -/
theorem remaining_step (workers : ℕ) (h : ∀ a, PoolInvariant s a) (e : PoolEvent α ρ) :
    (if e.Works workers s then 1 else 0) + (poolStep workers s e).1.remaining =
      s.remaining + if e.isSubmit then 3 else 0 := by
  by_cases hworks : e.Works workers s
  · rw [if_pos hworks]
    cases e with
    | submit => exact absurd hworks id
    | start act r =>
      have hlen := List.length_erase_add_one hworks.1
      rw [poolStep_start hworks]
      show 1 + (3 * (s.waiting.erase (act, r)).length + 2 * (s.running ++ [(act, r)]).length +
        s.ended.length + 3 * ∑ a ∈ s.playingNow.toFinset, (s.pendingRunnablesOf a).length) =
          s.remaining + 0
      rw [List.length_append, List.length_singleton, ActorThreadPool.remaining]
      omega
    | finish act r normally =>
      have hlen := List.length_erase_add_one (show (act, r) ∈ s.running from hworks)
      rw [poolStep_finish hworks]
      show 1 + (3 * s.waiting.length + 2 * (s.running.erase (act, r)).length +
        (s.ended ++ [(act, r)]).length +
          3 * ∑ a ∈ s.playingNow.toFinset, (s.pendingRunnablesOf a).length) = s.remaining + 0
      rw [List.length_append, List.length_singleton, ActorThreadPool.remaining]
      omega
    | complete act r =>
      have hlen := List.length_erase_add_one (show (act, r) ∈ s.ended from hworks)
      have hplaying : act ∈ s.playingNow := (h act).playing.2
        (List.ne_nil_of_mem (mem_handed (List.mem_append_right _ hworks)))
      have hcomplete := remaining_complete
        (s := { s with ended := s.ended.erase (act, r) }) hplaying
      rw [poolStep_complete hworks]
      show 1 + (ActorThreadPool.complete { s with ended := _ } act).remaining = s.remaining + 0
      rw [hcomplete]
      show 1 + (3 * s.waiting.length + 2 * s.running.length + (s.ended.erase (act, r)).length +
        3 * ∑ a ∈ s.playingNow.toFinset, (s.pendingRunnablesOf a).length) = s.remaining + 0
      rw [ActorThreadPool.remaining]
      omega
  · rw [if_neg hworks, Nat.zero_add]
    obtain ⟨act, r, rfl⟩ | ⟨hidle, hnone⟩ := poolStep_of_not_works hworks
    · exact remaining_submit h act r
    · rw [hidle, hnone]
      rfl

/-- Nothing is left to do exactly when nothing is outstanding. -/
theorem remaining_eq_zero_iff (h : ∀ a, PoolInvariant s a) :
    s.remaining = 0 ↔ ∀ a, s.outstanding a = [] := by
  constructor
  · intro hzero a
    by_contra hne
    obtain ⟨e, hworks⟩ := (exists_works_iff Nat.zero_lt_one h).2 ⟨a, hne⟩
    have hstep := remaining_step 1 h e
    rw [if_pos hworks, hzero, hworks.not_isSubmit] at hstep
    exact absurd hstep (by simp)
  · intro hnil
    have hnone : ¬ ∃ e : PoolEvent α ρ, e.Works 1 s := fun hworks ↦ by
      obtain ⟨a, ha⟩ := (exists_works_iff Nat.zero_lt_one h).1 hworks
      exact ha (hnil a)
    obtain ⟨hwaiting, hrunning, hended⟩ :=
      executor_eq_nil_of_not_works Nat.zero_lt_one (not_exists.1 hnone)
    have hsum : ∑ a ∈ s.playingNow.toFinset, (s.pendingRunnablesOf a).length = 0 :=
      Finset.sum_eq_zero fun a _ ↦ by rw [(List.append_eq_nil_iff.1 (hnil a)).2]; rfl
    rw [ActorThreadPool.remaining, hwaiting, hrunning, hended, hsum]
    rfl

/-! ### Every task is executed -/

/-- Every task submitted for the actor has been completed, in order. -/
def AllDone (workers : ℕ) (es : List (PoolEvent α ρ)) (a : α) : Prop :=
  ((poolMachine α ρ workers).outputs es).flatMap (PoolRecord.completedOf a) =
    es.flatMap (PoolEvent.submittedFor a)

variable (es : List (PoolEvent α ρ))

theorem invariant_stateAfter (workers : ℕ) (es : List (PoolEvent α ρ)) (a : α) :
    PoolInvariant ((poolMachine α ρ workers).stateAfter es) a :=
  poolInvariant_of_reachable ((poolMachine α ρ workers).reachable_stateAfter es) a

theorem allDone_iff (a : α) :
    AllDone workers es a ↔ ((poolMachine α ρ workers).stateAfter es).outstanding a = [] := by
  have hqueue := fifo_accounted (M := poolMachine α ρ workers) (f := (·.outstanding a))
    (i := PoolRecord.submittedOf a) (o := PoolRecord.completedOf a) rfl
    (fun s e hs ↦ (poolStep_spec (poolInvariant_of_reachable hs a) e).outstanding) es
  rw [AllDone, ← submitted_eq workers, hqueue]
  exact List.self_eq_append_right

/-- The steps workers have done in a run. -/
def workerSteps (workers : ℕ) (es : List (PoolEvent α ρ)) : ℕ :=
  (poolMachine α ρ workers).countFrom (fun s e ↦ e.Works workers s) ActorThreadPool.init es

/-- The tasks submitted in a run. -/
def submissions (es : List (PoolEvent α ρ)) : ℕ := es.countP PoolEvent.isSubmit

theorem workerSteps_accounted (workers : ℕ) (es : List (PoolEvent α ρ)) :
    workerSteps workers es + ((poolMachine α ρ workers).stateAfter es).remaining =
      3 * submissions es := by
  have hcredit := credit_accounted (M := poolMachine α ρ workers)
    (p := fun s e ↦ e.Works workers s) ActorThreadPool.remaining PoolEvent.isSubmit 3
    (fun s e hs ↦ remaining_step workers (poolInvariant_of_reachable hs) e)
    (reachable_stateAfter _ []) es
  exact hcredit.trans (Nat.zero_add _)

/-- **Every task is executed.** With at least one worker, in every run: some worker can go on
exactly as long as a submitted task is not completed; the workers have done at most three steps for
each submitted task; and they have done all of them exactly when every task is completed, for each
actor in the order of the submissions. -/
theorem every_task_is_executed (hworkers : 0 < workers) :
    ((∃ e : PoolEvent α ρ, e.Works workers ((poolMachine α ρ workers).stateAfter es)) ↔
        ∃ a, ¬ AllDone workers es a) ∧
      workerSteps workers es ≤ 3 * submissions es ∧
      (workerSteps workers es = 3 * submissions es ↔ ∀ a, AllDone workers es a) := by
  have haccounted := workerSteps_accounted workers es
  have hworks := exists_works_iff hworkers (invariant_stateAfter workers es)
  have hall : (∃ a, ¬ AllDone workers es a) ↔
      ∃ a, ((poolMachine α ρ workers).stateAfter es).outstanding a ≠ [] :=
    exists_congr fun a ↦ not_congr (allDone_iff es a)
  refine ⟨hworks.trans hall.symm, by omega, ?_⟩
  have hremaining := remaining_eq_zero_iff (invariant_stateAfter workers es)
  have hdone : (∀ a, AllDone workers es a) ↔
      ∀ a, ((poolMachine α ρ workers).stateAfter es).outstanding a = [] :=
    forall_congr' (allDone_iff es)
  rw [hdone, ← hremaining]
  omega

/-- Two actors and two workers: the first tasks of both have been completed, one of them by an
exception, and the second task of the first actor has been started. -/
def twoActors : List (PoolEvent ℕ ℕ) :=
  [.submit 0 5, .submit 1 6, .submit 0 7, .start 1 6, .start 0 5, .finish 0 5 true,
    .finish 1 6 false, .complete 1 6, .complete 0 5, .start 0 7]

/-- Seven of the nine steps have been taken. -/
theorem every_task_is_executed_twoActors :
    (((∃ e : PoolEvent ℕ ℕ, e.Works 2 ((poolMachine ℕ ℕ 2).stateAfter twoActors)) ↔
        ∃ a, ¬ AllDone 2 twoActors a) ∧
      workerSteps 2 twoActors ≤ 3 * submissions twoActors ∧
      (workerSteps 2 twoActors = 3 * submissions twoActors ↔ ∀ a, AllDone 2 twoActors a)) ∧
      workerSteps 2 twoActors = 7 ∧ submissions twoActors = 3 :=
  ⟨every_task_is_executed twoActors (by decide), by decide, by decide⟩

/-! ### No actor waits for ever -/

/-- A worker that starts a task takes the first one of the queue of the executor. -/
def PoolEvent.TakesFirst (workers : ℕ) (s : ActorThreadPool α ρ) : PoolEvent α ρ → Prop
  | .start act r => (PoolEvent.start act r).Works workers s → s.waiting.head? = some (act, r)
  | _ => True

instance decidableTakesFirst (s : ActorThreadPool α ρ) (e : PoolEvent α ρ) :
    Decidable (e.TakesFirst workers s) :=
  match e with
  | .submit _ _ => inferInstanceAs (Decidable True)
  | .start act r => inferInstanceAs (Decidable ((PoolEvent.start act r).Works workers s →
      s.waiting.head? = some (act, r)))
  | .finish _ _ _ => inferInstanceAs (Decidable True)
  | .complete _ _ => inferInstanceAs (Decidable True)

/-- The executor is first in, first out. -/
def FirstInFirstOut (workers : ℕ) (es : List (PoolEvent α ρ)) : Prop :=
  ∀ pre e, Occurs es pre e → e.TakesFirst workers ((poolMachine α ρ workers).stateAfter pre)

/-- The task a step starts. -/
def PoolRecord.startedTask : PoolRecord α ρ → List (α × ρ)
  | .started act r => [(act, r)]
  | _ => []

omit [DecidableEq ρ] in
theorem startedOf_eq (a : α) (os : List (PoolRecord α ρ)) :
    os.flatMap (PoolRecord.startedOf a) = tasksOf a (os.flatMap PoolRecord.startedTask) := by
  induction os with
  | nil => rfl
  | cons o os ih =>
    rw [List.flatMap_cons, List.flatMap_cons, tasksOf_append, ih]
    congr 1
    cases o with
    | started act r =>
      show (if act = a then [r] else []) = tasksOf a [(act, r)]
      split
      case isTrue heq => rw [heq, tasksOf_cons_self, tasksOf_nil]
      case isFalse hne => rw [tasksOf_cons_of_ne hne, tasksOf_nil]
    | _ => rfl

/-- What a step does to the queue of the executor. -/
theorem waiting_step (e : PoolEvent α ρ) (hfifo : e.TakesFirst workers s) :
    s.waiting <+:
      (poolStep workers s e).2.startedTask ++ (poolStep workers s e).1.waiting := by
  by_cases hworks : e.Works workers s
  · cases e with
    | submit => exact absurd hworks id
    | start act r =>
      obtain ⟨rest, hrest⟩ := List.head?_eq_some_iff.1 (hfifo hworks)
      rw [poolStep_start hworks]
      show s.waiting <+: (act, r) :: s.waiting.erase (act, r)
      rw [hrest, List.erase_cons_head]
    | finish act r normally =>
      rw [poolStep_finish hworks]
      exact List.prefix_rfl
    | complete act r =>
      rw [poolStep_complete hworks]
      show s.waiting <+: (ActorThreadPool.complete { s with ended := _ } act).waiting
      rw [ActorThreadPool.complete]
      split
      · exact List.prefix_rfl
      · exact List.prefix_append _ _
  · obtain ⟨act, r, rfl⟩ | ⟨hidle, -⟩ := poolStep_of_not_works hworks
    · show s.waiting <+: (s.submit act r).waiting
      rw [ActorThreadPool.submit]
      split
      · exact List.prefix_append _ _
      · exact List.prefix_rfl
    · rw [hidle]
      exact List.prefix_rfl

omit [DecidableEq ρ] in
/-- What is taken from the front of a queue before the entry of an actor. -/
theorem prefix_takeWhile_of_not_taken {a : α} {r : ρ} {queue taken rest : List (α × ρ)}
    (hqueue : queue <+: taken ++ rest) (hmem : (a, r) ∈ queue) (hnot : tasksOf a taken = []) :
    taken <+: queue.takeWhile (·.1 ≠ a) := by
  have htaken : ∀ t ∈ taken, t.1 ≠ a := fun t ht heq ↦ by
    have hof : t.2 ∈ tasksOf a taken :=
      List.mem_map.2 ⟨t, List.mem_filter.2 ⟨ht, decide_eq_true heq⟩, rfl⟩
    rw [hnot] at hof
    exact List.not_mem_nil hof
  obtain hle | ⟨behind, rfl⟩ :=
    List.prefix_or_prefix_of_prefix hqueue (List.prefix_append taken rest)
  · -- the entry would have been taken
    exact absurd rfl (htaken (a, r) (hle.subset hmem))
  · rw [List.takeWhile_append_of_pos fun t ht ↦ decide_eq_true (htaken t ht)]
    exact List.prefix_append _ _

/-- **No actor overtakes a waiting one twice.** While the task of an actor waits in the queue of the
executor, only the tasks ahead of it are started, in their order, and no two of them belong to the
same actor. -/
theorem no_actor_overtakes {pre mid : List (PoolEvent α ρ)}
    (hfifo : FirstInFirstOut workers (pre ++ mid)) {a : α} {r : ρ}
    (hwaits : (a, r) ∈ ((poolMachine α ρ workers).stateAfter pre).waiting)
    (hnot : ((poolMachine α ρ workers).outputsFrom ((poolMachine α ρ workers).stateAfter pre)
      mid).flatMap (PoolRecord.startedOf a) = []) :
    ((poolMachine α ρ workers).outputsFrom ((poolMachine α ρ workers).stateAfter pre)
        mid).flatMap PoolRecord.startedTask <+:
      ((poolMachine α ρ workers).stateAfter pre).waiting.takeWhile (·.1 ≠ a) ∧
    ∀ b, (((poolMachine α ρ workers).outputsFrom ((poolMachine α ρ workers).stateAfter pre)
      mid).flatMap (PoolRecord.startedOf b)).length ≤ 1 := by
  have hqueue := queue_from (M := poolMachine α ρ workers) (f := (·.waiting))
    (o := PoolRecord.startedTask) (s := (poolMachine α ρ workers).stateAfter pre)
    fun part e hocc ↦ by
      rw [← stateAfter_append]
      refine waiting_step e (hfifo (pre ++ part) e ?_)
      rw [Occurs, List.append_assoc]
      exact (List.prefix_append_right_inj pre).2 hocc
  rw [startedOf_eq] at hnot
  have hahead := prefix_takeWhile_of_not_taken hqueue hwaits hnot
  refine ⟨hahead, fun b ↦ ?_⟩
  rw [startedOf_eq]
  -- an actor has one place in the queue at most
  have hsublist := (hahead.trans (List.takeWhile_prefix _)).sublist
  calc (tasksOf b _).length ≤ (tasksOf b _).length :=
        ((hsublist.filter _).map Prod.snd).length_le
    _ ≤ 1 := by
        have hone := (invariant_stateAfter workers pre b).length_le
        omega

/-- Three actors and one worker, with the task of the first actor started. -/
def threeActors : List (PoolEvent ℕ ℕ) := [.submit 0 5, .submit 1 6, .submit 2 7, .start 0 5]

theorem firstInFirstOut_threeActors : FirstInFirstOut 1 threeActors :=
  forall_occurs (by decide)

theorem no_actor_overtakes_threeActors :
    ((poolMachine ℕ ℕ 1).outputsFrom ((poolMachine ℕ ℕ 1).stateAfter
        [.submit 0 5, .submit 1 6, .submit 2 7]) [.start 0 5]).flatMap PoolRecord.startedTask <+:
      ((poolMachine ℕ ℕ 1).stateAfter
        [.submit 0 5, .submit 1 6, .submit 2 7]).waiting.takeWhile (·.1 ≠ 1) :=
  (no_actor_overtakes (a := 1) (r := 6) firstInFirstOut_threeActors (by decide) (by decide)).1

end PoolProgress

end SplNet
