import Mathlib.Data.List.Infix

/-!
# Readers of a stream

A **reader** takes what stands at the front of a stream and leaves the rest, in a state that it may
change, or it fails. It is **stable** if more input behind the stream changes nothing but the rest.

* `Stable.bind`: readers that are stable one after the other are stable;
* `Stable.eq_none_of_cut`: a stable reader fails on a stream that is cut within what it takes;
* `Keeps.bind`: readers that leave the state alone one after the other leave it alone.
-/

/-- Readers of streams of `σ` in a state `τ`. -/
abbrev StreamReader (τ σ α : Type*) := τ → List σ → Option (τ × α × List σ)

namespace StreamReader

variable {τ σ α β : Type*}

/-- A result, and nothing is taken. -/
protected def pure (a : α) : StreamReader τ σ α := fun t s ↦ some (t, a, s)

def fail : StreamReader τ σ α := fun _ _ ↦ none

/-- A change of the state. -/
def update (f : τ → τ) : StreamReader τ σ Unit := fun t s ↦ some (f t, (), s)

/-- A reader that does not know the state. -/
def lift (take : List σ → Option (α × List σ)) : StreamReader τ σ α := fun t s ↦
  (take s).map fun (a, s) ↦ (t, a, s)

/-- One reader, and another one on what is left. -/
protected def bind (r : StreamReader τ σ α) (next : α → StreamReader τ σ β) :
    StreamReader τ σ β := fun t s ↦
  (r t s).bind fun (t, a, s) ↦ next a t s

@[simp] theorem pure_apply (a : α) (t : τ) (s : List σ) :
    StreamReader.pure a t s = some (t, a, s) := rfl

@[simp] theorem bind_update (f : τ → τ) (next : Unit → StreamReader τ σ β) (t : τ) (s : List σ) :
    (update f).bind next t s = next () (f t) s := rfl

@[simp] theorem bind_lift (take : List σ → Option (α × List σ)) (next : α → StreamReader τ σ β)
    (t : τ) (s : List σ) :
    (lift take).bind next t s = (take s).bind fun (a, s) ↦ next a t s := by
  rw [StreamReader.bind, lift, Option.bind_map]
  rfl

theorem bind_eq_some {r : StreamReader τ σ α} {next : α → StreamReader τ σ β} {t t' : τ}
    {s rest : List σ} {b : β} :
    r.bind next t s = some (t', b, rest) ↔
      ∃ t₁ a s₁, r t s = some (t₁, a, s₁) ∧ next a t₁ s₁ = some (t', b, rest) := by
  rw [StreamReader.bind, Option.bind_eq_some_iff]
  constructor
  · rintro ⟨⟨t₁, a, s₁⟩, h, h'⟩
    exact ⟨t₁, a, s₁, h, h'⟩
  · rintro ⟨t₁, a, s₁, h, h'⟩
    exact ⟨(t₁, a, s₁), h, h'⟩

theorem lift_eq_some {take : List σ → Option (α × List σ)} {t t' : τ} {s rest : List σ} {a : α} :
    lift take t s = some (t', a, rest) ↔ t' = t ∧ take s = some (a, rest) := by
  rw [lift, Option.map_eq_some_iff]
  constructor
  · rintro ⟨⟨a', s'⟩, h, heq⟩
    obtain ⟨rfl, rfl, rfl⟩ := heq
    exact ⟨rfl, h⟩
  · rintro ⟨rfl, h⟩
    exact ⟨_, h, rfl⟩

/-- More input changes nothing but the rest. -/
def Stable (r : StreamReader τ σ α) : Prop :=
  ∀ ⦃t s t' a rest⦄ (more : List σ), r t s = some (t', a, rest) →
    r t (s ++ more) = some (t', a, rest ++ more)

theorem stable_pure (a : α) : Stable (StreamReader.pure a : StreamReader τ σ α) := by
  rintro t s t' a' rest more h
  obtain ⟨rfl, rfl, rfl⟩ := Option.some.inj h
  rfl

theorem stable_fail : Stable (fail : StreamReader τ σ α) :=
  fun _ _ _ _ _ _ h ↦ absurd h (by simp [fail])

theorem stable_update (f : τ → τ) : Stable (update f : StreamReader τ σ Unit) := by
  rintro t s t' a rest more h
  obtain ⟨rfl, rfl, rfl⟩ := Option.some.inj h
  rfl

theorem stable_lift {take : List σ → Option (α × List σ)}
    (htake : ∀ {s a rest} (more : List σ), take s = some (a, rest) →
      take (s ++ more) = some (a, rest ++ more)) :
    Stable (lift take : StreamReader τ σ α) := by
  intro t s t' a rest more h
  obtain ⟨rfl, hread⟩ := lift_eq_some.1 h
  exact lift_eq_some.2 ⟨rfl, htake more hread⟩

/-- **The sequence rule.** -/
theorem Stable.bind {r : StreamReader τ σ α} {next : α → StreamReader τ σ β} (hr : Stable r)
    (hnext : ∀ a, Stable (next a)) : Stable (r.bind next) := by
  intro t s t' b rest more h
  obtain ⟨t₁, a, s₁, hfirst, hsecond⟩ := bind_eq_some.1 h
  exact bind_eq_some.2 ⟨t₁, a, s₁ ++ more, hr more hfirst, hnext a more hsecond⟩

/-- **The cut rule.** What a stable reader takes cannot be cut. -/
theorem Stable.eq_none_of_cut {r : StreamReader τ σ α} (hr : Stable r) {t t' : τ} {a : α}
    {message cut : List σ} (hmessage : r t message = some (t', a, [])) (hcut : cut <+: message)
    (hne : cut ≠ message) : r t cut = none := by
  obtain ⟨missing, rfl⟩ := hcut
  rcases hread : r t cut with - | ⟨t₁, a₁, rest⟩
  · rfl
  have hrest := (hr missing hread).symm.trans hmessage
  have hnil : rest ++ missing = [] := congrArg (fun x ↦ x.2.2) (Option.some.inj hrest)
  rw [(List.append_eq_nil_iff.1 hnil).2, List.append_nil] at hne
  exact absurd rfl hne

/-! ### Readers that leave the state alone -/

/-- The state is left alone. -/
def Keeps (r : StreamReader τ σ α) : Prop := ∀ ⦃t s t' a rest⦄, r t s = some (t', a, rest) → t' = t

theorem keeps_pure (a : α) : Keeps (StreamReader.pure a : StreamReader τ σ α) :=
  fun _ _ _ _ _ h ↦ congrArg Prod.fst (Option.some.inj h).symm

theorem keeps_lift (take : List σ → Option (α × List σ)) :
    Keeps (lift take : StreamReader τ σ α) :=
  fun _ _ _ _ _ h ↦ (lift_eq_some.1 h).1

theorem Keeps.bind {r : StreamReader τ σ α} {next : α → StreamReader τ σ β} (hr : Keeps r)
    (hnext : ∀ a, Keeps (next a)) : Keeps (r.bind next) := by
  intro t s t' b rest h
  obtain ⟨t₁, a, s₁, hfirst, hsecond⟩ := bind_eq_some.1 h
  exact (hnext a hsecond).trans (hr hfirst)

end StreamReader
