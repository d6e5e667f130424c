import Mathlib.Data.Nat.Notation

/-!
# Loops that may not end

A loop is given by its **body**: one iteration leaves the loop with a result, or goes on in another
state. Nothing is known here about what the states are, and nothing makes a loop end: it is run for
a number of iterations, and ends when some number is enough.

* `ends_of_inr`, `ends_iff_of_inl`: what one iteration says about the whole loop;
* `runsForever`: a loop does not end if it stays in states whose iterations go on.
-/

namespace Loop

variable {σ ρ : Type*} (body : σ → σ ⊕ ρ)

/-- The result of the loop, if so many iterations are enough. -/
def run : ℕ → σ → Option ρ
  | 0, _ => none
  | n + 1, s =>
    match body s with
    | .inl s' => run n s'
    | .inr r => some r

/-- The loop ends with a result. -/
def Ends (s : σ) (r : ρ) : Prop := ∃ n, run body n s = some r

variable {body} {s s' : σ} {r : ρ}

theorem run_succ_inl (h : body s = .inl s') (n : ℕ) : run body (n + 1) s = run body n s' := by
  rw [run, h]

theorem run_succ_inr (h : body s = .inr r) (n : ℕ) : run body (n + 1) s = some r := by
  rw [run, h]

theorem ends_of_inr (h : body s = .inr r) : Ends body s r := ⟨1, run_succ_inr h 0⟩

/-- An iteration that goes on decides nothing. -/
theorem ends_iff_of_inl (h : body s = .inl s') : Ends body s r ↔ Ends body s' r := by
  constructor
  · rintro ⟨n, hn⟩
    rcases n with - | n
    · exact absurd hn (by simp [run])
    · exact ⟨n, (run_succ_inl h n).symm.trans hn⟩
  · rintro ⟨n, hn⟩
    exact ⟨n + 1, (run_succ_inl h n).trans hn⟩

/-- **The divergence rule.** A loop does not end if it stays in states whose iterations go on. -/
theorem runsForever {P : σ → Prop} (hstep : ∀ s, P s → ∃ s', body s = .inl s' ∧ P s') (hs : P s) :
    ¬ ∃ r, Ends body s r := by
  rintro ⟨r, n, hn⟩
  induction n generalizing s with
  | zero => exact absurd hn (by simp [run])
  | succ n ih =>
    obtain ⟨s', hbody, hs'⟩ := hstep s hs
    exact ih hs' ((run_succ_inl hbody n).symm.trans hn)

end Loop
