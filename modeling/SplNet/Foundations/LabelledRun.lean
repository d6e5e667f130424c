import Mathlib.Data.List.Basic
import Mathlib.Data.List.Infix

/-!
# Runs of a deterministic labelled machine

The run substrate for everything proved about whole histories: a machine reads a list of events
one after the other and, at each event, moves to a new state and produces an output. Nothing is
known here about what the events are.

A point of a history is named by the **list of events before it**, so "the event `e` happens in the
run `es` after the events `pre`" is `pre ++ [e] <+: es` (`Occurs`), and "earlier" is the prefix
order. Statements about one step, about two steps in order and about all steps of a run need no
indices.

The induction rules that carry the consumers:

* `invariant`: what holds initially and is preserved by every step holds after every run;
  `persists_along`, `invariant_along`: what the steps of one run preserve holds along it, from the
  point on where it holds;
* `Reachable.component`: a component of a larger machine keeps to its own reachable states;
* `related_along`: a preorder every step respects is respected between any two points of a run;
* `countdown`: what lowers a count from one to zero happens exactly once;
* `fifo_accounted`: a queue that every step extends at the end and shortens at the front accounts
  for what came in and went out; `outputs_flatMap_eq`: what the outputs say about the events;
* `once_iff`, `since_iff`: a property that known steps switch on (and off) holds exactly once
  (since) such a step has happened;
* `invariant_along_iff`: if, from a state satisfying `P`, a step keeps `P` **exactly when** a
  condition on that state and event holds, then `P` holds all along a run exactly when every step
  of the run meets the condition;
* `related_runs`: two machines that read the same events stay related if every step relates them.
-/

/-- A deterministic machine over states `σ`, reading events `ε` and producing outputs `ω`. -/
structure LabelledMachine (σ ε ω : Type*) where
  /-- The initial state. -/
  init : σ
  /-- One step: the next state and the output. -/
  step : σ → ε → σ × ω

namespace LabelledMachine

variable {σ ε ω : Type*} (M : LabelledMachine σ ε ω)

/-- The state after one event. -/
def next (s : σ) (e : ε) : σ := (M.step s e).1

/-- The output of one event. -/
def output (s : σ) (e : ε) : ω := (M.step s e).2

/-- The state after a list of events. -/
def stateAfter (es : List ε) : σ := es.foldl M.next M.init

/-- The outputs of a list of events read from a state. -/
def outputsFrom (s : σ) : List ε → List ω
  | [] => []
  | e :: es => M.output s e :: outputsFrom (M.next s e) es

/-- The outputs of a run, in order. -/
def outputs (es : List ε) : List ω := M.outputsFrom M.init es

/-- The event `e` happens in the run `es`, right after the events `pre`. -/
def Occurs (es pre : List ε) (e : ε) : Prop := pre ++ [e] <+: es

/-- States reached by some run. -/
def Reachable (s : σ) : Prop := ∃ es, M.stateAfter es = s

@[simp] theorem stateAfter_nil : M.stateAfter [] = M.init := rfl

@[simp] theorem stateAfter_concat (es : List ε) (e : ε) :
    M.stateAfter (es ++ [e]) = M.next (M.stateAfter es) e := by
  simp [stateAfter]

theorem outputsFrom_append (s : σ) (es es' : List ε) :
    M.outputsFrom s (es ++ es') = M.outputsFrom s es ++ M.outputsFrom (es.foldl M.next s) es' := by
  induction es generalizing s with
  | nil => rfl
  | cons e es ih => rw [List.cons_append, outputsFrom, ih]; rfl

theorem outputsFrom_concat (s : σ) (es : List ε) (e : ε) :
    M.outputsFrom s (es ++ [e]) = M.outputsFrom s es ++ [M.output (es.foldl M.next s) e] :=
  M.outputsFrom_append s es [e]

@[simp] theorem outputs_nil : M.outputs [] = [] := rfl

@[simp] theorem outputs_concat (es : List ε) (e : ε) :
    M.outputs (es ++ [e]) = M.outputs es ++ [M.output (M.stateAfter es) e] :=
  M.outputsFrom_concat M.init es e

theorem reachable_stateAfter (es : List ε) : M.Reachable (M.stateAfter es) := ⟨es, rfl⟩

theorem Reachable.next {s : σ} (h : M.Reachable s) (e : ε) : M.Reachable (M.next s e) := by
  obtain ⟨es, rfl⟩ := h
  exact ⟨es ++ [e], M.stateAfter_concat es e⟩

/-! ### Order of events -/

theorem Occurs.before {es pre : List ε} {e : ε} (h : Occurs es pre e) : pre <+: es :=
  (List.prefix_append pre [e]).trans h

theorem Occurs.mono {es es' pre : List ε} {e : ε} (h : Occurs es pre e) (hes : es <+: es') :
    Occurs es' pre e :=
  h.trans hes

theorem occurs_concat (pre : List ε) (e : ε) : Occurs (pre ++ [e]) pre e := List.prefix_rfl

theorem not_occurs_nil (pre : List ε) (e : ε) : ¬ Occurs [] pre e := by
  intro h
  have := h.length_le
  simp at this

/-- An event of a run extended by one is an event of the run, or the new last one. -/
theorem occurs_concat_iff {es pre : List ε} {e e' : ε} :
    Occurs (es ++ [e]) pre e' ↔ Occurs es pre e' ∨ pre = es ∧ e' = e := by
  rw [Occurs, Occurs, List.prefix_concat_iff]
  constructor
  · rintro (h | h)
    · obtain ⟨h₁, h₂⟩ := List.append_inj' h rfl
      exact Or.inr ⟨h₁, by simpa using h₂⟩
    · exact Or.inl h
  · rintro (h | ⟨rfl, rfl⟩)
    · exact Or.inr h
    · exact Or.inl rfl

/-- Two events of one run are the same, or one is before the other. -/
theorem Occurs.trichotomy {es pre pre' : List ε} {e e' : ε} (h : Occurs es pre e)
    (h' : Occurs es pre' e') :
    pre = pre' ∨ pre ++ [e] <+: pre' ∨ pre' ++ [e'] <+: pre := by
  rcases List.prefix_or_prefix_of_prefix h h' with hle | hle
  · rcases List.prefix_concat_iff.1 hle with heq | hle
    · exact Or.inl (List.append_inj' heq rfl).1
    · exact Or.inr (Or.inl hle)
  · rcases List.prefix_concat_iff.1 hle with heq | hle
    · exact Or.inl (List.append_inj' heq rfl).1.symm
    · exact Or.inr (Or.inr hle)

/-- At one point of a run there is one event. -/
theorem Occurs.event_eq {es pre : List ε} {e e' : ε} (h : Occurs es pre e)
    (h' : Occurs es pre e') : e = e' := by
  have hle : pre ++ [e] <+: pre ++ [e'] := List.prefix_of_prefix_length_le h h' (by simp)
  exact (List.cons_prefix_cons.1 ((List.prefix_append_right_inj pre).1 hle)).1

/-- What holds of every event of a list, counted from the front, holds of every event that
occurs. -/
theorem forall_occurs {P : List ε → ε → Prop} {es : List ε}
    (h : ∀ n : Fin es.length, P (es.take n) (es.get n)) (pre : List ε) (e : ε)
    (hocc : Occurs es pre e) : P pre e := by
  obtain ⟨rest, rfl⟩ := hocc
  have hn := h ⟨pre.length, by simp⟩
  simpa using hn

theorem outputs_mono {pre es : List ε} (h : pre <+: es) : M.outputs pre <+: M.outputs es := by
  obtain ⟨rest, rfl⟩ := h
  induction rest using List.reverseRecOn with
  | nil => rw [List.append_nil]
  | append_singleton rest e ih =>
    rw [← List.append_assoc, outputs_concat]
    exact ih.trans (List.prefix_append _ _)

/-- What an event of a run produces is among the outputs of the run. -/
theorem Occurs.mem_outputs {es pre : List ε} {e : ε} (h : Occurs es pre e) :
    M.output (M.stateAfter pre) e ∈ M.outputs es := by
  have hlast : M.output (M.stateAfter pre) e ∈ M.outputs (pre ++ [e]) := by
    rw [outputs_concat]
    exact List.mem_append_right _ (List.mem_singleton_self _)
  exact (M.outputs_mono h).subset hlast

/-! ### Induction along a run -/

variable {M}

/-- **The invariant rule.** -/
theorem invariant {P : σ → Prop} (hinit : P M.init)
    (hstep : ∀ s e, M.Reachable s → P s → P (M.next s e)) (es : List ε) :
    P (M.stateAfter es) := by
  induction es using List.reverseRecOn with
  | nil => exact hinit
  | append_singleton es e ih =>
    rw [stateAfter_concat]
    exact hstep _ e (M.reachable_stateAfter es) ih

theorem Reachable.invariant {P : σ → Prop} (hinit : P M.init)
    (hstep : ∀ s e, M.Reachable s → P s → P (M.next s e)) {s : σ} (h : M.Reachable s) :
    P s := by
  obtain ⟨es, rfl⟩ := h
  exact LabelledMachine.invariant hinit hstep es

/-- **The invariant rule from a point on.** What holds at one point of a run and is preserved by the
steps behind it holds at every later point. -/
theorem persists_along {P : σ → Prop} {start es : List ε} (hstart : P (M.stateAfter start))
    (hstep : ∀ pre e, start <+: pre → Occurs es pre e → P (M.stateAfter pre) →
      P (M.next (M.stateAfter pre) e)) {pre : List ε} (hle : start <+: pre) (hpre : pre <+: es) :
    P (M.stateAfter pre) := by
  obtain ⟨rest, rfl⟩ := hle
  induction rest using List.reverseRecOn with
  | nil => rwa [List.append_nil]
  | append_singleton rest e ih =>
    rw [← List.append_assoc] at hpre ⊢
    rw [stateAfter_concat]
    exact hstep _ e (List.prefix_append start rest) hpre
      (ih ((List.prefix_append _ [e]).trans hpre))

/-- **The invariant rule for one run.** What the steps of a run preserve holds all along it. -/
theorem invariant_along {P : σ → Prop} (hinit : P M.init) {es : List ε}
    (hstep : ∀ pre e, Occurs es pre e → P (M.stateAfter pre) → P (M.next (M.stateAfter pre) e))
    {pre : List ε} (hpre : pre <+: es) : P (M.stateAfter pre) :=
  persists_along hinit (fun pre e _ ↦ hstep pre e) List.nil_prefix hpre

/-- **The component rule.** A component of a larger machine that makes a step of its own or none at
each step of the larger one is only ever in states it reaches by itself. -/
theorem Reachable.component {σ' ε' ω' : Type*} {N : LabelledMachine σ' ε' ω'} {f : σ' → σ}
    (hinit : f N.init = M.init)
    (hstep : ∀ w e, N.Reachable w → f (N.next w e) = f w ∨ ∃ e', f (N.next w e) = M.next (f w) e')
    {w : σ'} (h : N.Reachable w) : M.Reachable (f w) := by
  refine Reachable.invariant (P := fun w ↦ M.Reachable (f w)) ⟨[], hinit.symm⟩ ?_ h
  intro w e hw hf
  rcases hstep w e hw with hsame | ⟨e', hnext⟩
  · rw [hsame]
    exact hf
  · rw [hnext]
    exact hf.next M e'

/-- **The preorder rule.** What every step relates, every stretch of a run relates. -/
theorem related_along {R : σ → σ → Prop} (hrefl : ∀ s, R s s)
    (htrans : ∀ {s₁ s₂ s₃}, R s₁ s₂ → R s₂ s₃ → R s₁ s₃)
    (hstep : ∀ s e, M.Reachable s → R s (M.next s e)) {pre es : List ε} (hpre : pre <+: es) :
    R (M.stateAfter pre) (M.stateAfter es) := by
  obtain ⟨rest, rfl⟩ := hpre
  induction rest using List.reverseRecOn with
  | nil => simpa using hrefl _
  | append_singleton rest e ih =>
    rw [← List.append_assoc, stateAfter_concat]
    exact htrans ih (hstep _ e (M.reachable_stateAfter _))

/-- **The exact-condition rule.** When a step out of a `P`-state keeps `P` exactly under
`Cond`, a run stays inside `P` exactly when all its steps meet `Cond`. -/
theorem invariant_along_iff {P : σ → Prop} {Cond : σ → ε → Prop} (hinit : P M.init)
    (hstep : ∀ s e, M.Reachable s → P s → (P (M.next s e) ↔ Cond s e)) (es : List ε) :
    (∀ pre, pre <+: es → P (M.stateAfter pre)) ↔
      ∀ pre e, Occurs es pre e → Cond (M.stateAfter pre) e := by
  constructor
  · intro h pre e hocc
    have hnext := h (pre ++ [e]) hocc
    rw [stateAfter_concat] at hnext
    exact (hstep _ e (M.reachable_stateAfter pre) (h pre hocc.before)).1 hnext
  · intro h pre hpre
    exact invariant_along hinit (fun pre e hocc hinv ↦
      (hstep _ e (M.reachable_stateAfter pre) hinv).2 (h pre e hocc)) hpre

/-- **The queue rule.** A list that every step extends at the end by what the step brings in, and
shortens at the front by what the step takes out, accounts for everything: what came in is what went
out and then what is left, in order. -/
theorem fifo_accounted {α : Type*} {f : σ → List α} {i o : ω → List α} (hinit : f M.init = [])
    (hstep : ∀ s e, M.Reachable s → f s ++ i (M.output s e) = o (M.output s e) ++ f (M.next s e))
    (es : List ε) :
    (M.outputs es).flatMap i = (M.outputs es).flatMap o ++ f (M.stateAfter es) := by
  induction es using List.reverseRecOn with
  | nil => exact hinit.symm
  | append_singleton es e ih =>
    rw [stateAfter_concat, outputs_concat, List.flatMap_append, List.flatMap_singleton,
      List.flatMap_append, List.flatMap_singleton, ih, List.append_assoc, List.append_assoc,
      hstep _ e (M.reachable_stateAfter es)]

/-- **The reading rule.** What the outputs say about the events can be read off the events, if each
step says it. -/
theorem outputs_flatMap_eq {α : Type*} {i : ω → List α} {j : ε → List α}
    (hstep : ∀ s e, i (M.output s e) = j e) (es : List ε) :
    (M.outputs es).flatMap i = es.flatMap j := by
  induction es using List.reverseRecOn with
  | nil => rfl
  | append_singleton es e ih =>
    rw [outputs_concat, List.flatMap_append, List.flatMap_singleton, ih, hstep, List.flatMap_append,
      List.flatMap_singleton]

/-- What fails initially and holds after a run was made true by some step of that run. -/
theorem exists_occurs_of_change {P : σ → Prop} (hinit : ¬ P M.init) {es : List ε}
    (h : P (M.stateAfter es)) :
    ∃ pre e, Occurs es pre e ∧ ¬ P (M.stateAfter pre) ∧ P (M.next (M.stateAfter pre) e) := by
  induction es using List.reverseRecOn with
  | nil => exact absurd h hinit
  | append_singleton es e ih =>
    rw [stateAfter_concat] at h
    by_cases hes : P (M.stateAfter es)
    · obtain ⟨pre, e', hocc, hrest⟩ := ih hes
      exact ⟨pre, e', hocc.mono (List.prefix_append es [e]), hrest⟩
    · exact ⟨es, e, occurs_concat es e, hes, h⟩

/-- **The countdown rule.** When a run takes a count from one to zero, and certain steps lower it by
one while no other step changes it, then exactly one such step happens. -/
theorem countdown {f : σ → ℕ} {down : σ → ε → Prop} (hinit : f M.init = 1) {es : List ε}
    (hend : f (M.stateAfter es) = 0)
    (hstep : ∀ pre e, Occurs es pre e →
      down (M.stateAfter pre) e ∧ f (M.next (M.stateAfter pre) e) + 1 = f (M.stateAfter pre) ∨
        ¬ down (M.stateAfter pre) e ∧ f (M.next (M.stateAfter pre) e) = f (M.stateAfter pre)) :
    ∃ pre e, Occurs es pre e ∧ down (M.stateAfter pre) e ∧
      ∀ pre' e', Occurs es pre' e' → down (M.stateAfter pre') e' → pre' = pre := by
  have hle : ∀ pre, pre <+: es → f (M.stateAfter pre) ≤ 1 := fun pre ↦
    invariant_along (P := fun s ↦ f s ≤ 1) hinit.le fun pre e hocc hf ↦ by
      rcases hstep pre e hocc with ⟨-, h⟩ | ⟨-, h⟩ <;> omega
  -- a count of zero stays zero
  have hzero : ∀ {start pre}, f (M.stateAfter start) = 0 → start <+: pre → pre <+: es →
      f (M.stateAfter pre) = 0 := fun {start pre} hstart ↦
    persists_along (P := fun s ↦ f s = 0) hstart fun pre e _ hocc hf ↦ by
      rcases hstep pre e hocc with ⟨-, h⟩ | ⟨-, h⟩ <;> omega
  obtain ⟨pre, e, hocc, hne, hnext⟩ := exists_occurs_of_change (P := fun s ↦ f s = 0)
    (by rw [hinit]; exact Nat.one_ne_zero) hend
  have hdown : down (M.stateAfter pre) e := by
    rcases hstep pre e hocc with ⟨hdown, -⟩ | ⟨-, hsame⟩
    · exact hdown
    · exact absurd (hsame.symm.trans hnext) hne
  refine ⟨pre, e, hocc, hdown, fun pre' e' hocc' hdown' ↦ ?_⟩
  obtain ⟨-, hlower⟩ : down (M.stateAfter pre') e' ∧ _ :=
    (hstep pre' e' hocc').resolve_right fun h ↦ h.1 hdown'
  rcases hocc.trichotomy hocc' with heq | hlt | hlt
  · exact heq.symm
  · rw [← stateAfter_concat] at hnext
    have := hzero hnext hlt hocc'.before
    omega
  · have hafter : f (M.stateAfter (pre' ++ [e'])) = 0 := by
      have := hle pre' hocc'.before
      rw [stateAfter_concat]
      omega
    exact absurd (hzero hafter hlt hocc.before) hne

/-! ### Once and since -/

variable (M) in
/-- Some event meeting `start` has happened. -/
def Once (start : σ → ε → Prop) (es : List ε) : Prop :=
  ∃ pre e, Occurs es pre e ∧ start (M.stateAfter pre) e

theorem once_concat_iff {start : σ → ε → Prop} {es : List ε} {e : ε} :
    M.Once start (es ++ [e]) ↔ start (M.stateAfter es) e ∨ M.Once start es := by
  constructor
  · rintro ⟨pre, e₀, hocc, hstart⟩
    rcases occurs_concat_iff.1 hocc with hold | ⟨rfl, rfl⟩
    · exact Or.inr ⟨pre, e₀, hold, hstart⟩
    · exact Or.inl hstart
  · rintro (hstart | ⟨pre, e₀, hocc, hstart⟩)
    · exact ⟨es, e, occurs_concat es e, hstart⟩
    · exact ⟨pre, e₀, occurs_concat_iff.2 (Or.inl hocc), hstart⟩

/-- **The once rule.** A property that `start` steps make true and nothing makes false holds exactly
when a `start` step has happened. -/
theorem once_iff {P : σ → Prop} {start : σ → ε → Prop} (hinit : ¬ P M.init)
    (hstep : ∀ s e, M.Reachable s → (P (M.next s e) ↔ start s e ∨ P s)) (es : List ε) :
    P (M.stateAfter es) ↔ M.Once start es := by
  induction es using List.reverseRecOn with
  | nil => exact iff_of_false hinit fun ⟨pre, e, hocc, _⟩ ↦ not_occurs_nil pre e hocc
  | append_singleton es e ih =>
    rw [stateAfter_concat, once_concat_iff, hstep _ e (M.reachable_stateAfter es), ih]

variable (M) in
/-- Some event meeting `start` has happened, and no event meeting `stop` after it. -/
def Since (start stop : σ → ε → Prop) (es : List ε) : Prop :=
  ∃ pre e, Occurs es pre e ∧ start (M.stateAfter pre) e ∧
    ∀ pre' e', pre ++ [e] <+: pre' → Occurs es pre' e' → ¬ stop (M.stateAfter pre') e'

theorem not_since_nil (start stop : σ → ε → Prop) : ¬ M.Since start stop [] :=
  fun ⟨pre, e, hocc, _⟩ ↦ not_occurs_nil pre e hocc

theorem since_concat_iff {start stop : σ → ε → Prop} {es : List ε} {e : ε} :
    M.Since start stop (es ++ [e]) ↔
      start (M.stateAfter es) e ∨ M.Since start stop es ∧ ¬ stop (M.stateAfter es) e := by
  constructor
  · rintro ⟨pre, e₀, hocc, hstart, hquiet⟩
    rcases occurs_concat_iff.1 hocc with hold | ⟨rfl, rfl⟩
    · refine Or.inr ⟨⟨pre, e₀, hold, hstart, fun pre' e' hpre' hocc' ↦ ?_⟩, ?_⟩
      · exact hquiet pre' e' hpre' (occurs_concat_iff.2 (Or.inl hocc'))
      · exact hquiet es e hold (occurs_concat es e)
    · exact Or.inl hstart
  · rintro (hstart | ⟨⟨pre, e₀, hocc, hstart, hquiet⟩, hstop⟩)
    · refine ⟨es, e, occurs_concat es e, hstart, fun pre' e' hpre' hocc' ↦ ?_⟩
      -- nothing happens after the last event
      have hlen := hpre'.length_le.trans_lt (Nat.lt_of_lt_of_le (by simp) hocc'.length_le)
      exact absurd hlen (Nat.lt_irrefl _)
    · refine ⟨pre, e₀, occurs_concat_iff.2 (Or.inl hocc), hstart, fun pre' e' hpre' hocc' ↦ ?_⟩
      rcases occurs_concat_iff.1 hocc' with hold | ⟨rfl, rfl⟩
      · exact hquiet pre' e' hpre' hold
      · exact hstop

/-- **The since rule.** A property that `start` steps make true, `stop` steps make false, and the
others leave alone, holds exactly since a `start` step without a `stop` step after it. -/
theorem since_iff {P : σ → Prop} {start stop : σ → ε → Prop} (hinit : ¬ P M.init)
    (hstep : ∀ s e, M.Reachable s → (P (M.next s e) ↔ start s e ∨ P s ∧ ¬ stop s e))
    (es : List ε) : P (M.stateAfter es) ↔ M.Since start stop es := by
  induction es using List.reverseRecOn with
  | nil => exact iff_of_false hinit (not_since_nil start stop)
  | append_singleton es e ih =>
    rw [stateAfter_concat, since_concat_iff, hstep _ e (M.reachable_stateAfter es), ih]

/-! ### Two machines side by side -/

section SideBySide

variable {σ' ω' : Type*} {N : LabelledMachine σ' ε ω'}

/-- **The relational rule.** Two machines that read the same events stay related when every step of
the run keeps them related. -/
theorem related_runs {R : σ → σ' → Prop} (hinit : R M.init N.init) {es : List ε}
    (hstep : ∀ pre e, Occurs es pre e → R (M.stateAfter pre) (N.stateAfter pre) →
      R (M.next (M.stateAfter pre) e) (N.next (N.stateAfter pre) e)) {pre : List ε}
    (hpre : pre <+: es) : R (M.stateAfter pre) (N.stateAfter pre) := by
  induction pre using List.reverseRecOn with
  | nil => exact hinit
  | append_singleton pre e ih =>
    rw [stateAfter_concat, stateAfter_concat]
    exact hstep pre e hpre (ih ((List.prefix_append pre [e]).trans hpre))

/-- Two runs over the same events produce the same when every event produces the same, provided the
amounts agree. -/
theorem flatMap_outputs_eq_iff {α : Type*} {f : ω → List α} {g : ω' → List α} {es : List ε}
    (hlen : ∀ pre e, Occurs es pre e → (f (M.output (M.stateAfter pre) e)).length =
      (g (N.output (N.stateAfter pre) e)).length) :
    (M.outputs es).flatMap f = (N.outputs es).flatMap g ↔
      ∀ pre e, Occurs es pre e →
        f (M.output (M.stateAfter pre) e) = g (N.output (N.stateAfter pre) e) := by
  induction es using List.reverseRecOn with
  | nil => exact iff_of_true rfl fun pre e hocc ↦ absurd hocc (not_occurs_nil pre e)
  | append_singleton es e ih =>
    have ih := ih fun pre e' hocc ↦ hlen pre e' (hocc.mono (List.prefix_append es [e]))
    rw [outputs_concat, outputs_concat, List.flatMap_append, List.flatMap_append,
      List.flatMap_singleton, List.flatMap_singleton]
    constructor
    · intro h pre e' hocc
      obtain ⟨hold, hnew⟩ := List.append_inj' h (hlen es e (occurs_concat es e))
      rcases occurs_concat_iff.1 hocc with hocc | ⟨rfl, rfl⟩
      · exact ih.1 hold pre e' hocc
      · exact hnew
    · intro h
      rw [ih.2 fun pre e' hocc ↦ h pre e' (hocc.mono (List.prefix_append es [e])),
        h es e (occurs_concat es e)]

end SideBySide

end LabelledMachine
