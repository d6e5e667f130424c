import SplNet.Foundations.LabelledRun

/-!
# Continuing a run

The rules of `LabelledRun` say what every run does. The rules here **build** runs: from a state on,
by events of a given kind.

* `Leads`: such events lead from one state to another; it is reflexive and transitive;
* `exists_settled`: what can be settled for each component, without unsettling the others, can be
  settled for a list of components;
* `exists_run_of_steps`: a machine whose steps another one carries out in several steps has all its
  runs carried out by the other one, with the same outputs.
-/

namespace LabelledMachine

variable {σ ε ω : Type*} (M : LabelledMachine σ ε ω)

/-- Events of a given kind lead from one state to another. -/
def Leads (A : ε → Prop) (s s' : σ) : Prop :=
  ∃ es : List ε, (∀ e ∈ es, A e) ∧ es.foldl M.next s = s'

variable {M} {A B : ε → Prop} {s s' s'' : σ}

theorem stateAfter_append (es es' : List ε) :
    M.stateAfter (es ++ es') = es'.foldl M.next (M.stateAfter es) := by
  rw [stateAfter, List.foldl_append]
  rfl

theorem Leads.refl (A : ε → Prop) (s : σ) : M.Leads A s s :=
  ⟨[], fun _ h ↦ absurd h List.not_mem_nil, rfl⟩

theorem Leads.trans (h : M.Leads A s s') (h' : M.Leads A s' s'') : M.Leads A s s'' := by
  obtain ⟨es, hes, rfl⟩ := h
  obtain ⟨es', hes', rfl⟩ := h'
  refine ⟨es ++ es', fun e he ↦ ?_, List.foldl_append⟩
  rcases List.mem_append.1 he with hfirst | hsecond
  · exact hes e hfirst
  · exact hes' e hsecond

theorem Leads.of_next {e : ε} (h : A e) : M.Leads A s (M.next s e) :=
  ⟨[e], List.forall_mem_singleton.2 h, rfl⟩

theorem Leads.mono (h : M.Leads A s s') (hAB : ∀ e, A e → B e) : M.Leads B s s' := by
  obtain ⟨es, hes, hs'⟩ := h
  exact ⟨es, fun e he ↦ hAB e (hes e he), hs'⟩

/-- Where events lead from the end of a run, a longer run ends. -/
theorem Leads.exists_stateAfter {es : List ε} (h : M.Leads A (M.stateAfter es) s') :
    ∃ rest, (∀ e ∈ rest, A e) ∧ M.stateAfter (es ++ rest) = s' := by
  obtain ⟨rest, hrest, hs'⟩ := h
  exact ⟨rest, hrest, (stateAfter_append es rest).trans hs'⟩

/-- **One component after the other.** -/
theorem exists_settled {ι : Type*} {P : σ → Prop} {Q : ι → σ → Prop} {l : List ι}
    (hstep : ∀ s, ∀ i ∈ l, P s → ∃ s', M.Leads A s s' ∧ P s' ∧ Q i s' ∧ ∀ j, Q j s → Q j s')
    (hs : P s) :
    ∃ s', M.Leads A s s' ∧ P s' ∧ (∀ i ∈ l, Q i s') ∧ ∀ j, Q j s → Q j s' := by
  induction l generalizing s with
  | nil => exact ⟨s, .refl A s, hs, fun i hi ↦ absurd hi List.not_mem_nil, fun _ ↦ id⟩
  | cons i l ih =>
    obtain ⟨s₁, hleads₁, hs₁, hi, hkeep₁⟩ := hstep s i List.mem_cons_self hs
    obtain ⟨s₂, hleads₂, hs₂, hl, hkeep₂⟩ :=
      ih (fun s j hj ↦ hstep s j (List.mem_cons_of_mem i hj)) hs₁
    refine ⟨s₂, hleads₁.trans hleads₂, hs₂, ?_, fun j hj ↦ hkeep₂ j (hkeep₁ j hj)⟩
    exact List.forall_mem_cons.2 ⟨hkeep₂ i hi, hl⟩

/-- **The implementation rule.** When each step of a machine is carried out by some steps of another
one, from the state that stands for it to the state that stands for its result, and with the same
output, then each of its runs is carried out by a run of the other one. -/
theorem exists_run_of_steps {σ' ε' ω' β : Type*} {N : LabelledMachine σ' ε' ω'} (stands : σ' → σ)
    (f : ω' → List β) (g : ω → List β) (hinit : stands N.init = M.init)
    (hstep : ∀ s e, N.Reachable s → ∃ es, es.foldl M.next (stands s) = stands (N.next s e) ∧
      (M.outputsFrom (stands s) es).flatMap g = f (N.output s e)) (es' : List ε') :
    ∃ es, M.stateAfter es = stands (N.stateAfter es') ∧
      (M.outputs es).flatMap g = (N.outputs es').flatMap f := by
  induction es' using List.reverseRecOn with
  | nil => exact ⟨[], hinit.symm, rfl⟩
  | append_singleton es' e ih =>
    obtain ⟨es, hstate, houtputs⟩ := ih
    obtain ⟨more, hmore, hout⟩ := hstep _ e (N.reachable_stateAfter es')
    refine ⟨es ++ more, ?_, ?_⟩
    · rw [stateAfter_append, stateAfter_concat, hstate, hmore]
    · rw [outputs, outputsFrom_append, List.flatMap_append, outputs_concat, List.flatMap_append,
        List.flatMap_singleton]
      show (M.outputs es).flatMap g ++ (M.outputsFrom (M.stateAfter es) more).flatMap g = _
      rw [houtputs, hstate, hout]

end LabelledMachine
