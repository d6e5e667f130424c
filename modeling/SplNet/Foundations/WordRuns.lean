import Mathlib.Data.List.Basic
import Mathlib.Data.List.TakeWhile

/-!
# Words and what stands between them

A predicate on characters cuts a text into words: the maximal runs of characters that satisfy it,
one between any two neighbouring separators, the empty ones included (`runs`).

`run_induction` is the induction over the words of a text: a text is one word, or a word, a
separator and a text. `mem_runs_iff` finds a word by what stands around it, and
`mem_runs_append_cons` and `takeWhile_append_of_ends` tell what a separator and a cut do to the
words.
-/

namespace WordRuns

variable {α : Type*}

/-- The words of a text, from left to right. -/
def runs (p : α → Bool) (s : List α) : List (List α) := s.splitOnP fun c ↦ !p c

/-- No word goes on at the front of the text: it is empty or starts with a separator. -/
def Ends (p : α → Bool) (s : List α) : Prop := ∀ c ∈ s.head?, p c = false

/-- No word goes on at the back of the text: it is empty or ends with a separator. -/
def Starts (p : α → Bool) (s : List α) : Prop := ∀ c ∈ s.getLast?, p c = false

section Words

variable {p : α → Bool} {u v s : List α} {d : α}

/-- A word is a whole text, or is followed by a separator. -/
theorem run_induction {motive : List α → Prop} (run : ∀ u, (∀ c ∈ u, p c) → motive u)
    (sep : ∀ u d s, (∀ c ∈ u, p c) → p d = false → motive s → motive (u ++ d :: s))
    (s : List α) : motive s := by
  -- `u` is the part of the current word already read
  suffices h : ∀ u, (∀ c ∈ u, p c) → motive (u ++ s) from h [] (by simp)
  induction s with
  | nil =>
    intro u hu
    rw [List.append_nil]
    exact run u hu
  | cons c s ih =>
    intro u hu
    rcases hc : p c with - | -
    · exact sep u c s hu hc (ih [] (by simp))
    · rw [List.append_cons]
      refine ih (u ++ [c]) fun d hd ↦ ?_
      rcases List.mem_append.1 hd with hd | hd
      · exact hu d hd
      · rwa [List.mem_singleton.1 hd]

theorem runs_of_forall (hu : ∀ c ∈ u, p c) : runs p u = [u] :=
  List.splitOnP_eq_singleton fun c hc ↦ by rw [hu c hc]; rfl

theorem runs_append_cons (s t : List α) (hd : p d = false) :
    runs p (s ++ d :: t) = runs p s ++ runs p t :=
  List.splitOnP_append_cons s t (by rw [hd]; rfl)

theorem mem_runs_append_cons {s t : List α} (hd : p d = false) :
    u ∈ runs p (s ++ d :: t) ↔ u ∈ runs p s ∨ u ∈ runs p t := by
  rw [runs_append_cons s t hd, List.mem_append]

theorem runs_run_cons (hu : ∀ c ∈ u, p c) (hd : p d = false) (s : List α) :
    runs p (u ++ d :: s) = u :: runs p s := by
  rw [runs_append_cons u s hd, runs_of_forall hu, List.singleton_append]

@[simp] theorem starts_nil : Starts p [] := by simp [Starts]

@[simp] theorem starts_concat : Starts p (s ++ [d]) ↔ p d = false := by simp [Starts]

@[simp] theorem ends_nil : Ends p [] := by simp [Ends]

@[simp] theorem ends_cons : Ends p (d :: s) ↔ p d = false := by simp [Ends]

theorem starts_append_cons {s t : List α} (hd : p d = false) :
    Starts p (s ++ d :: t) ↔ Starts p t := by
  rcases t.eq_nil_or_concat' with rfl | ⟨t, c, rfl⟩
  · simpa using hd
  · rw [← List.cons_append, ← List.append_assoc, starts_concat, starts_concat]

/-- A text that starts a word has a separator before it. -/
theorem starts_iff : Starts p s ↔ s = [] ∨ ∃ t d, s = t ++ [d] ∧ p d = false := by
  rcases s.eq_nil_or_concat' with rfl | ⟨t, d, rfl⟩
  · simp
  · rw [starts_concat]
    constructor
    · intro hd
      exact Or.inr ⟨t, d, rfl, hd⟩
    · rintro (hnil | ⟨t', d', heq, hd⟩)
      · exact absurd hnil (by simp)
      · obtain ⟨-, hdd⟩ := List.append_inj' heq rfl
        rw [List.singleton_inj] at hdd
        rwa [hdd]

theorem ends_iff : Ends p s ↔ s = [] ∨ ∃ d t, s = d :: t ∧ p d = false := by
  rcases s with - | ⟨d, t⟩
  · simp
  · rw [ends_cons]
    constructor
    · intro hd
      exact Or.inr ⟨d, t, rfl, hd⟩
    · rintro (hnil | ⟨d', t', heq, hd⟩)
      · exact absurd hnil (List.cons_ne_nil d t)
      · rwa [(List.cons.inj heq).1]

/-- A text goes on with its first word. -/
theorem takeWhile_append_of_ends (hu : ∀ c ∈ u, p c) (hs : Ends p s) :
    (u ++ s).takeWhile p = u := by
  rw [List.takeWhile_append_of_pos hu]
  rcases ends_iff.1 hs with rfl | ⟨d, t, rfl, hd⟩
  · rw [List.takeWhile_nil, List.append_nil]
  · rw [List.takeWhile_cons_of_neg (by rw [hd]; exact Bool.false_ne_true), List.append_nil]

/-- The text behind the first word. -/
theorem exists_append_takeWhile (p : α → Bool) (s : List α) :
    ∃ t, s = s.takeWhile p ++ t ∧ Ends p t := by
  refine ⟨s.dropWhile p, List.takeWhile_append_dropWhile.symm, fun c hc ↦ ?_⟩
  have hhead := List.head?_dropWhile_not p s
  rw [Option.mem_def] at hc
  rw [hc] at hhead
  simpa using hhead

theorem takeWhile_mem_runs (p : α → Bool) (s : List α) : s.takeWhile p ∈ runs p s := by
  have hmem : ∀ c ∈ s.takeWhile p, p c := fun c hc ↦ List.mem_takeWhile_imp hc
  obtain ⟨t, heq, ht⟩ := exists_append_takeWhile p s
  rcases ends_iff.1 ht with rfl | ⟨d, t, rfl, hd⟩
  · rw [List.append_nil] at heq
    rw [← heq, runs_of_forall (heq ▸ hmem)]
    exact List.mem_singleton_self s
  · generalize s.takeWhile p = u at heq hmem ⊢
    rw [heq, runs_run_cons hmem hd]
    exact List.mem_cons_self

/-- **A word stands between two separators**, or at an end of the text. -/
theorem mem_runs_iff :
    u ∈ runs p s ↔ (∀ c ∈ u, p c) ∧ ∃ a b, s = a ++ (u ++ b) ∧ Starts p a ∧ Ends p b := by
  constructor
  · intro hmem
    induction s using run_induction (p := p) with
    | run v hv =>
      rw [runs_of_forall hv, List.mem_singleton] at hmem
      exact ⟨hmem ▸ hv, [], [], by simpa using hmem.symm, starts_nil, ends_nil⟩
    | sep v d s hv hd ih =>
      rw [runs_run_cons hv hd, List.mem_cons] at hmem
      rcases hmem with rfl | hmem
      · exact ⟨hv, [], d :: s, rfl, starts_nil, ends_cons.2 hd⟩
      · obtain ⟨hu, a, b, rfl, ha, hb⟩ := ih hmem
        refine ⟨hu, v ++ d :: a, b, by simp, (starts_append_cons hd).2 ha, hb⟩
  · rintro ⟨hu, a, b, rfl, ha, hb⟩
    have hfront : u ∈ runs p (u ++ b) := by
      have htake := takeWhile_mem_runs p (u ++ b)
      rwa [takeWhile_append_of_ends hu hb] at htake
    rcases starts_iff.1 ha with rfl | ⟨a, d, rfl, hd⟩
    · exact hfront
    · rw [List.append_assoc, List.singleton_append]
      exact (mem_runs_append_cons hd).2 (Or.inr hfront)

end Words

end WordRuns
