import SplNet.Foundations.LabelledRun

/-!
# The history of a run

Rules about what a run has produced so far together with the state it has reached. A statement about
both is an invariant of pairs; the rules here carry such a statement along one run, with what is
known of the events of that run at hand.

* `history_along`: what holds of the empty history and the initial state, and is kept by every step
  of the run, holds all along it;
* `exists_occurs_of_mem`: what the outputs contain, a step has produced;
* `lossy_fifo_along`: a list of debts, to which a step adds what it takes in, and from which it
  removes what it pays and what it drops: what is paid is a sublist of what was taken in;
* `queue_from`: the same from any state on, for a queue nothing is dropped from: what is given out
  comes from the front of what the queue holds in that state;
* `credit_accounted`: a credit that events of one kind grant and of which certain steps use up one
  unit each: the steps and the credit that is left are the credit that was granted.
-/

namespace LabelledMachine

variable {σ ε ω : Type*} {M : LabelledMachine σ ε ω}

/-- **The history rule.** -/
theorem history_along {P : List ω → σ → Prop} (hinit : P [] M.init) {es : List ε}
    (hstep : ∀ pre e, Occurs es pre e → P (M.outputs pre) (M.stateAfter pre) →
      P (M.outputs pre ++ [M.output (M.stateAfter pre) e]) (M.next (M.stateAfter pre) e))
    {pre : List ε} (hpre : pre <+: es) : P (M.outputs pre) (M.stateAfter pre) := by
  induction pre using List.reverseRecOn with
  | nil => exact hinit
  | append_singleton pre e ih =>
    rw [stateAfter_concat, outputs_concat]
    exact hstep pre e hpre (ih ((List.prefix_append pre [e]).trans hpre))

/-- **The rule for lossy queues.** A queue that every step of a run extends at the end by what it
takes in, and shortens at the front by what it gives out, possibly losing entries: what is given out
over the run, and then what is left, is what was taken in, without the lost entries. -/
theorem lossy_fifo_along {α : Type*} {f : σ → List α} {i o : ω → List α} (hinit : f M.init = [])
    {es : List ε}
    (hstep : ∀ pre e, Occurs es pre e →
      (o (M.output (M.stateAfter pre) e) ++ f (M.next (M.stateAfter pre) e)).Sublist
        (f (M.stateAfter pre) ++ i (M.output (M.stateAfter pre) e)))
    {pre : List ε} (hpre : pre <+: es) :
    ((M.outputs pre).flatMap o ++ f (M.stateAfter pre)).Sublist ((M.outputs pre).flatMap i) := by
  refine history_along (M := M)
    (P := fun os s ↦ (os.flatMap o ++ f s).Sublist (os.flatMap i)) ?_ ?_ hpre
  · show ([] ++ f M.init).Sublist []
    rw [hinit]
    exact List.Sublist.refl []
  · intro pre e hocc ih
    rw [List.flatMap_append, List.flatMap_append, List.flatMap_singleton, List.flatMap_singleton,
      List.append_assoc]
    have hkeep := (hstep pre e hocc).append_left ((M.outputs pre).flatMap o)
    rw [← List.append_assoc ((M.outputs pre).flatMap o) (f (M.stateAfter pre))] at hkeep
    exact hkeep.trans (ih.append_right _)

/-- **The rule for queues from a state on.** While every event extends a queue at its end or takes
out its front, what has been taken out and then what is left begins with what was there. -/
theorem queue_from {α : Type*} {f : σ → List α} {o : ω → List α} {s : σ} {es : List ε}
    (hstep : ∀ pre e, Occurs es pre e → f (pre.foldl M.next s) <+:
      o (M.output (pre.foldl M.next s) e) ++ f (M.next (pre.foldl M.next s) e)) :
    f s <+: (M.outputsFrom s es).flatMap o ++ f (es.foldl M.next s) := by
  induction es using List.reverseRecOn with
  | nil => exact List.prefix_rfl
  | append_singleton es e ih =>
    have hpre := ih fun pre e' hocc ↦ hstep pre e' (hocc.mono (List.prefix_append es [e]))
    rw [List.foldl_append, outputsFrom_concat, List.flatMap_append, List.flatMap_singleton,
      List.append_assoc]
    exact hpre.trans ((List.prefix_append_right_inj _).2 (hstep es e (occurs_concat es e)))

section Credit

variable (M) (p : σ → ε → Prop) [∀ s e, Decidable (p s e)]

/-- The number of steps of a kind, from a state on. -/
def countFrom : σ → List ε → ℕ
  | _, [] => 0
  | s, e :: es => (if p s e then 1 else 0) + countFrom (M.next s e) es

variable {M p}

/-- **The credit rule.** -/
theorem credit_accounted (f : σ → ℕ) (grants : ε → Bool) (credit : ℕ)
    (hstep : ∀ s e, M.Reachable s →
      (if p s e then 1 else 0) + f (M.next s e) = f s + if grants e then credit else 0)
    {s : σ} (hs : M.Reachable s) (es : List ε) :
    M.countFrom p s es + f (es.foldl M.next s) = f s + credit * es.countP grants := by
  induction es generalizing s with
  | nil => exact Nat.zero_add (f s)
  | cons e es ih =>
    have hrest := ih (Reachable.next M hs e)
    have hfirst := hstep s e hs
    have hcredit : (if grants e then credit else 0) = credit * if grants e then 1 else 0 := by
      split
      · exact (Nat.mul_one credit).symm
      · exact (Nat.mul_zero credit).symm
    rw [countFrom, List.foldl_cons, List.countP_cons, Nat.mul_add]
    omega

end Credit

/-- What the outputs of a run contribute, one of its steps contributes. -/
theorem exists_occurs_of_mem {α : Type*} {f : ω → List α} {es : List ε} {a : α}
    (h : a ∈ (M.outputs es).flatMap f) :
    ∃ pre e, Occurs es pre e ∧ a ∈ f (M.output (M.stateAfter pre) e) := by
  induction es using List.reverseRecOn with
  | nil => exact absurd h List.not_mem_nil
  | append_singleton es e ih =>
    rw [outputs_concat, List.flatMap_append, List.flatMap_singleton] at h
    rcases List.mem_append.1 h with hold | hnew
    · obtain ⟨pre, e', hocc, hmem⟩ := ih hold
      exact ⟨pre, e', hocc.mono (List.prefix_append es [e]), hmem⟩
    · exact ⟨es, e, occurs_concat es e, hnew⟩

end LabelledMachine
