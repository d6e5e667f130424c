import SplNet.Foundations.StreamReader

/-!
# Streams that arrive in pieces

A stream that arrives in pieces is a stream of pieces, so a reader of it is a `StreamReader` too. It
**flattens** to a reader of the plain stream if it gives the same result, and leaves pieces that
make up the same rest, however the stream was cut.

* `Flattens.pure`, `Flattens.fail`, `Flattens.update`, `Flattens.lift`: the parts of a reader;
* `Flattens.bind`, `Flattens.times`: readers one after the other.
-/

namespace StreamReader

variable {τ σ α β : Type*}

/-- A reader, a number of times. -/
def times (r : StreamReader τ σ α) : ℕ → StreamReader τ σ (List α)
  | 0 => .pure []
  | n + 1 => r.bind fun a ↦ (times r n).bind fun l ↦ .pure (a :: l)

theorem times_succ_eq_some {r : StreamReader τ σ α} {t t₁ t' : τ} {s s₁ rest : List σ} {a : α}
    {l : List α} {n : ℕ} (h : r t s = some (t₁, a, s₁))
    (htimes : r.times n t₁ s₁ = some (t', l, rest)) :
    r.times (n + 1) t s = some (t', a :: l, rest) :=
  bind_eq_some.2 ⟨t₁, a, s₁, h, bind_eq_some.2 ⟨t', l, rest, htimes, rfl⟩⟩

theorem times_succ_eq_none {r : StreamReader τ σ α} {t : τ} {s : List σ} {n : ℕ}
    (h : r t s = none) : r.times (n + 1) t s = none := by
  rw [times, StreamReader.bind, h]
  rfl

theorem times_succ_eq_none_of_rest {r : StreamReader τ σ α} {t t₁ : τ} {s s₁ : List σ} {a : α}
    {n : ℕ} (h : r t s = some (t₁, a, s₁)) (htimes : r.times n t₁ s₁ = none) :
    r.times (n + 1) t s = none := by
  rw [times, StreamReader.bind, h]
  exact congrArg (Option.bind · _) htimes

/-- A result, with the pieces that are left put together. -/
def flat (x : τ × α × List (List σ)) : τ × α × List σ := (x.1, x.2.1, x.2.2.flatten)

/-- The same result however the stream is cut. -/
def Flattens (r : StreamReader τ (List σ) α) (r' : StreamReader τ σ α) : Prop :=
  ∀ t pieces, (r t pieces).map flat = r' t pieces.flatten

theorem Flattens.pure (a : α) :
    Flattens (StreamReader.pure a : StreamReader τ (List σ) α) (.pure a) :=
  fun _ _ ↦ rfl

theorem Flattens.fail : Flattens (StreamReader.fail : StreamReader τ (List σ) α) .fail :=
  fun _ _ ↦ rfl

theorem Flattens.update (f : τ → τ) :
    Flattens (StreamReader.update f : StreamReader τ (List σ) Unit) (.update f) :=
  fun _ _ ↦ rfl

theorem Flattens.lift {take : List (List σ) → Option (α × List (List σ))}
    {take' : List σ → Option (α × List σ)}
    (h : ∀ pieces, (take pieces).map (fun x ↦ (x.1, x.2.flatten)) = take' pieces.flatten) :
    Flattens (StreamReader.lift take : StreamReader τ (List σ) α) (.lift take') := by
  intro t pieces
  rw [StreamReader.lift, StreamReader.lift, ← h pieces, Option.map_map, Option.map_map]
  rfl

/-- **The sequence rule.** -/
theorem Flattens.bind {r : StreamReader τ (List σ) α} {r' : StreamReader τ σ α}
    {next : α → StreamReader τ (List σ) β} {next' : α → StreamReader τ σ β} (hr : Flattens r r')
    (hnext : ∀ a, Flattens (next a) (next' a)) : Flattens (r.bind next) (r'.bind next') := by
  intro t pieces
  rw [StreamReader.bind, StreamReader.bind, ← hr t pieces]
  rcases r t pieces with - | ⟨t₁, a, rest⟩
  · rfl
  · exact hnext a t₁ rest

theorem Flattens.times {r : StreamReader τ (List σ) α} {r' : StreamReader τ σ α}
    (hr : Flattens r r') (n : ℕ) : Flattens (r.times n) (r'.times n) := by
  induction n with
  | zero => exact .pure []
  | succ n ih => exact hr.bind fun a ↦ ih.bind fun l ↦ .pure (a :: l)

end StreamReader
