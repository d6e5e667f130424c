import SplNet.Foundations.LabelledRun

/-!
# Exclusive grants

A resource that parties **claim** in one step, that is **acknowledged** to them in a later one, and
that other steps **release**. While every claim is made on a free resource and no release falls
between a claim and its acknowledgement, **two acknowledgements have a release between them**
(`release_between`).

Nothing is known about the machine but how each of its steps treats the resource (`GrantStep`).
-/

namespace LabelledMachine

/-- How a step treats a resource: whether it is held before and after the step, which parties have
an unacknowledged claim before and after it, whether it acknowledges and whether it releases. -/
inductive GrantStep {ι : Type*} (held held' : Prop) (pending pending' : ι → Prop)
    (acknowledges releases : Prop) : Prop
  | keep (hheld : held → held') (hpending : ∀ i, pending' i → pending i)
      (hack : ¬ acknowledges) (hrelease : ¬ releases)
  | claim (i : ι) (hfree : ¬ held) (hheld : held') (hpending : ∀ j, pending' j → j = i ∨ pending j)
      (hack : ¬ acknowledges)
  | acknowledge (i : ι) (hi : pending i) (hheld : held → held')
      (hpending : ∀ j, pending' j → j ≠ i ∧ pending j)
  | release (hpending : ∀ j, ¬ pending' j) (hack : ¬ acknowledges) (hrelease : releases)

variable {σ ε ω ι : Type*} {M : LabelledMachine σ ε ω} {held : σ → Prop} {pending : σ → ι → Prop}
  {ack release : σ → ε → Prop}

variable (M held pending ack release) in
/-- At most one claim is unacknowledged, and none is while the resource is acknowledged; the
resource is held in both cases. -/
structure Exclusive (es : List ε) : Prop where
  unique : ∀ i j, pending (M.stateAfter es) i → pending (M.stateAfter es) j → i = j
  held_of_pending : ∀ i, pending (M.stateAfter es) i → held (M.stateAfter es)
  not_since : ∀ i, pending (M.stateAfter es) i → ¬ M.Since ack release es
  held_of_since : M.Since ack release es → held (M.stateAfter es)

theorem exclusive_nil (hinit : ∀ i, ¬ pending M.init i) :
    Exclusive M held pending ack release [] where
  unique i _ h := absurd h (hinit i)
  held_of_pending i h := absurd h (hinit i)
  not_since i h := absurd h (hinit i)
  held_of_since h := absurd h (not_since_nil ack release)

/-- One step keeps the grant exclusive. -/
theorem Exclusive.concat {es : List ε} {e : ε} (h : Exclusive M held pending ack release es)
    (hstep : GrantStep (held (M.stateAfter es)) (held (M.next (M.stateAfter es) e))
      (pending (M.stateAfter es)) (pending (M.next (M.stateAfter es) e))
      (ack (M.stateAfter es) e) (release (M.stateAfter es) e)) :
    Exclusive M held pending ack release (es ++ [e]) := by
  cases hstep with
  | keep hheld hpending hack hrelease =>
    have hsince : M.Since ack release (es ++ [e]) → M.Since ack release es := fun hs ↦
      ((since_concat_iff.1 hs).resolve_left hack).1
    refine ⟨fun i j hi hj ↦ ?_, fun i hi ↦ ?_, fun i hi hs ↦ ?_, fun hs ↦ ?_⟩
    all_goals simp only [stateAfter_concat] at *
    · exact h.unique i j (hpending i hi) (hpending j hj)
    · exact hheld (h.held_of_pending i (hpending i hi))
    · exact h.not_since i (hpending i hi) (hsince hs)
    · exact hheld (h.held_of_since (hsince hs))
  | claim i hfree hheld hpending hack =>
    -- nobody had a claim on the free resource
    have honly : ∀ j, pending (M.next (M.stateAfter es) e) j → j = i := fun j hj ↦
      (hpending j hj).resolve_right fun hold ↦ hfree (h.held_of_pending j hold)
    have hnot : ¬ M.Since ack release (es ++ [e]) := fun hs ↦
      hfree (h.held_of_since ((since_concat_iff.1 hs).resolve_left hack).1)
    refine ⟨fun j k hj hk ↦ ?_, fun _ _ ↦ ?_, fun _ _ ↦ hnot, fun hs ↦ absurd hs hnot⟩
    all_goals simp only [stateAfter_concat] at *
    · rw [honly j hj, honly k hk]
    · exact hheld
  | acknowledge i hi hheld hpending =>
    have hnone : ∀ j, ¬ pending (M.stateAfter (es ++ [e])) j := by
      intro j hj
      rw [stateAfter_concat] at hj
      exact (hpending j hj).1 (h.unique j i (hpending j hj).2 hi)
    refine ⟨fun j _ hj ↦ absurd hj (hnone j), fun j hj ↦ absurd hj (hnone j),
      fun j hj ↦ absurd hj (hnone j), fun _ ↦ ?_⟩
    rw [stateAfter_concat]
    exact hheld (h.held_of_pending i hi)
  | release hpending hack hrelease =>
    have hnone : ∀ j, ¬ pending (M.stateAfter (es ++ [e])) j := by
      intro j
      rw [stateAfter_concat]
      exact hpending j
    refine ⟨fun j _ hj ↦ absurd hj (hnone j), fun j hj ↦ absurd hj (hnone j),
      fun j hj ↦ absurd hj (hnone j), fun hs ↦ ?_⟩
    exact absurd hrelease ((since_concat_iff.1 hs).resolve_left hack).2

/-- **The grant rule.** When every step of a run treats the resource as a `GrantStep`, the grant is
exclusive all along the run. -/
theorem exclusive_along (hinit : ∀ i, ¬ pending M.init i) {es : List ε}
    (hstep : ∀ pre e, Occurs es pre e →
      GrantStep (held (M.stateAfter pre)) (held (M.next (M.stateAfter pre) e))
        (pending (M.stateAfter pre)) (pending (M.next (M.stateAfter pre) e))
        (ack (M.stateAfter pre) e) (release (M.stateAfter pre) e))
    {pre : List ε} (hpre : pre <+: es) : Exclusive M held pending ack release pre := by
  induction pre using List.reverseRecOn with
  | nil => exact exclusive_nil hinit
  | append_singleton pre e ih =>
    exact (ih ((List.prefix_append pre [e]).trans hpre)).concat (hstep pre e hpre)

variable (M held pending ack release) in
/-- **Between two acknowledgements there is a release.** -/
theorem release_between (hinit : ∀ i, ¬ pending M.init i) {es : List ε}
    (hstep : ∀ pre e, Occurs es pre e →
      GrantStep (held (M.stateAfter pre)) (held (M.next (M.stateAfter pre) e))
        (pending (M.stateAfter pre)) (pending (M.next (M.stateAfter pre) e))
        (ack (M.stateAfter pre) e) (release (M.stateAfter pre) e))
    (hack : ∀ pre e, Occurs es pre e → ack (M.stateAfter pre) e → ∃ i, pending (M.stateAfter pre) i)
    {pre pre' : List ε} {e e' : ε} (hocc' : Occurs es pre' e')
    (hlt : pre ++ [e] <+: pre') (h : ack (M.stateAfter pre) e) (h' : ack (M.stateAfter pre') e') :
    ∃ pre'' e'', pre ++ [e] <+: pre'' ∧ Occurs pre' pre'' e'' ∧
      release (M.stateAfter pre'') e'' := by
  obtain ⟨i, hi⟩ := hack pre' e' hocc' h'
  have hnot := (exclusive_along hinit hstep hocc'.before).not_since i hi
  by_contra hnone
  refine hnot ⟨pre, e, hlt, h, fun pre'' e'' hle hocc'' hrelease ↦ hnone ?_⟩
  exact ⟨pre'', e'', hle, hocc'', hrelease⟩

end LabelledMachine
