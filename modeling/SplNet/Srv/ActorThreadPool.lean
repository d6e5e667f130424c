import SplNet.Foundations.LabelledRun

/-!
# The actor thread pool

`ActorThreadPool` over any type of actors and any type of tasks. `submit` and `complete` are single
steps, since both are synchronized on the actor. Of the executor only this is kept: a task handed to
it waits, is started by a free worker at some time, in any order, and ends, normally or by an
exception; in both cases the `finally` clause calls `complete`. The pool is not shut down.
-/

namespace SplNet

/-- The pool, with the tasks its executor has been handed. -/
structure ActorThreadPool (α ρ : Type*) where
  /-- The pending tasks of each actor; an actor without an entry in the map has none. -/
  acts : α → List ρ
  playingNow : List α
  /-- Handed to the executor and not started. -/
  waiting : List (α × ρ)
  /-- Started, with the task still running. -/
  running : List (α × ρ)
  /-- The task has ended and `complete` has not been called. -/
  ended : List (α × ρ)

/-- The steps. -/
inductive PoolEvent (α ρ : Type*)
  | submit (act : α) (r : ρ)
  /-- A worker starts a task. -/
  | start (act : α) (r : ρ)
  /-- A task ends, normally or by an exception. -/
  | finish (act : α) (r : ρ) (normally : Bool)
  /-- The worker calls `complete` and is free again. -/
  | complete (act : α) (r : ρ)

/-- What a step has done, for the record. -/
inductive PoolRecord (α ρ : Type*)
  | submitted (act : α) (r : ρ)
  | started (act : α) (r : ρ)
  | completed (act : α) (r : ρ)
  | other

section Pool

variable {α ρ : Type*} [DecidableEq α] [DecidableEq ρ]

namespace ActorThreadPool

def init : ActorThreadPool α ρ where
  acts := fun _ ↦ []
  playingNow := []
  waiting := []
  running := []
  ended := []

/-- `pendingRunnablesOf`. -/
def pendingRunnablesOf (s : ActorThreadPool α ρ) (act : α) : List ρ := s.acts act

/-- The queue of pending tasks of an actor changes. -/
def setPending (s : ActorThreadPool α ρ) (act : α) (rs : List ρ) : ActorThreadPool α ρ :=
  { s with acts := fun a ↦ if a = act then rs else s.acts a }

/-- `execute`: a task is handed to the executor. -/
def execute (s : ActorThreadPool α ρ) (r : ρ) (act : α) : ActorThreadPool α ρ :=
  { s with waiting := s.waiting ++ [(act, r)] }

def submit (s : ActorThreadPool α ρ) (act : α) (r : ρ) : ActorThreadPool α ρ :=
  if act ∉ s.playingNow then
    { s with playingNow := act :: s.playingNow }.execute r act
  else s.setPending act (s.pendingRunnablesOf act ++ [r])

def complete (s : ActorThreadPool α ρ) (act : α) : ActorThreadPool α ρ :=
  match s.pendingRunnablesOf act with
  | [] => { s with playingNow := s.playingNow.filter (· ≠ act) }
  | r :: rs => (s.setPending act rs).execute r act

end ActorThreadPool

/-- Tasks are compared by the actor and the runnable. -/
local instance lawfulBEqTask : LawfulBEq (α × ρ) := inferInstance

/-- One step, with the given number of workers. -/
def poolStep (workers : ℕ) (s : ActorThreadPool α ρ) :
    PoolEvent α ρ → ActorThreadPool α ρ × PoolRecord α ρ
  | .submit act r => (s.submit act r, .submitted act r)
  | .start act r =>
    if (act, r) ∈ s.waiting ∧ s.running.length + s.ended.length < workers then
      ({ s with waiting := s.waiting.erase (act, r), running := s.running ++ [(act, r)] },
        .started act r)
    else (s, .other)
  | .finish act r _ =>
    if (act, r) ∈ s.running then
      ({ s with running := s.running.erase (act, r), ended := s.ended ++ [(act, r)] }, .other)
    else (s, .other)
  | .complete act r =>
    if (act, r) ∈ s.ended then
      ({ s with ended := s.ended.erase (act, r) }.complete act, .completed act r)
    else (s, .other)

/-- The pool as a machine. -/
def poolMachine (α ρ : Type*) [DecidableEq α] [DecidableEq ρ] (workers : ℕ) :
    LabelledMachine (ActorThreadPool α ρ) (PoolEvent α ρ) (PoolRecord α ρ) where
  init := ActorThreadPool.init
  step := poolStep workers

end Pool

end SplNet
