import SplNet.Foundations.WordRuns
import SplNet.Java.Text

/-!
# Replacing words in a text

`replaceAll("\\b" + w + "\\b", r)` works on each side of a separator by itself, as long as no
boundary depends on what stands beyond the separator (`Separates`, `replaceAllWord_append_cons`). A
blank is such a separator in every Java version.

With ASCII word characters a word of the regular expression is a word of the text
(`hasWord_asciiBoundary_iff`). A list of words replaced one after the other is then replaced word by
word (`Replaceable.replaceEach_of_forall`), leaves none of its words behind
(`Replaceable.not_mem_runs`), and a cut through the result brings one back only where a longer word
ends in it (`Replaceable.mem_runs_drop_iff`).
-/

namespace Java

open WordRuns

/-- Whether there is a boundary beside the character does not depend on what stands behind it. -/
structure Separates (boundary : WordBoundary) (d : JChar) : Prop where
  before : ∀ x b a, boundary (x ++ d :: b) a = boundary b a
  after : ∀ b a y, boundary b (a ++ d :: y) = boundary b a

/-- A character that is no word character separates the words. -/
theorem separates_asciiBoundary {d : JChar} (hd : isWordChar d = false) :
    Separates asciiBoundary d where
  before x b a := by
    rcases b.eq_nil_or_concat' with rfl | ⟨b, c, rfl⟩
    · simp [asciiBoundary, hd]
    · rw [← List.cons_append, ← List.append_assoc]
      simp only [asciiBoundary, List.getLast?_concat]
  after b a y := by
    rcases a with - | ⟨c, a⟩
    · simp [asciiBoundary, hd]
    · simp [asciiBoundary]

section Separates

variable {boundary : WordBoundary} {w r : JString} {d : JChar}

theorem matchesWord_before (hsep : Separates boundary d) (x b s : JString) :
    matchesWord boundary w (x ++ d :: b) s = matchesWord boundary w b s := by
  rw [matchesWord, matchesWord, hsep.before, List.append_assoc, List.cons_append, hsep.before]

theorem matchesWord_after (hsep : Separates boundary d) (hw : w ≠ []) (hd : d ∉ w)
    (b a t : JString) :
    matchesWord boundary w b (a ++ d :: t) = matchesWord boundary w b a := by
  -- the word fits before the separator, or does not match at all
  have hfits : w <+: a ++ d :: t ↔ w <+: a := by
    constructor
    · intro h
      rcases List.prefix_or_prefix_of_prefix h (List.prefix_append a (d :: t)) with h | ⟨v, rfl⟩
      · exact h
      · rw [List.prefix_append_right_inj, List.prefix_cons_iff] at h
        rcases h with rfl | ⟨v, rfl, -⟩
        · rw [List.append_nil]
        · exact absurd (by simp) hd
    · rintro ⟨v, rfl⟩
      exact ⟨v ++ d :: t, by simp⟩
  by_cases h : w <+: a
  · have hpos := List.isPrefixOf_iff_prefix.2 h
    have hpos' := List.isPrefixOf_iff_prefix.2 (hfits.2 h)
    obtain ⟨v, rfl⟩ := h
    rw [matchesWord, matchesWord, hpos, hpos', hsep.after, List.append_assoc, List.drop_left,
      List.drop_left, hsep.after]
  · have hpos : w.isPrefixOf a = false := by
      rw [← Bool.not_eq_true, List.isPrefixOf_iff_prefix]
      exact h
    have hpos' : w.isPrefixOf (a ++ d :: t) = false := by
      rw [← Bool.not_eq_true, List.isPrefixOf_iff_prefix, hfits]
      exact h
    simp only [matchesWord, hpos, hpos', Bool.false_and]

/-- The loop does not see what stands before the last separator. -/
theorem replaceLoop_before (hsep : Separates boundary d) (x b : JString) (skip : ℕ)
    (s : JString) :
    replaceLoop boundary w r (x ++ d :: b) skip s = replaceLoop boundary w r b skip s := by
  induction s generalizing b skip with
  | nil => rfl
  | cons c s ih =>
    simp only [replaceLoop, matchesWord_before hsep, List.append_assoc, List.cons_append, ih]

theorem replaceLoop_append_cons (hsep : Separates boundary d) (hw : w ≠ []) (hd : d ∉ w)
    {a : JString} {skip : ℕ} (hskip : skip ≤ a.length) (b t : JString) :
    replaceLoop boundary w r b skip (a ++ d :: t) =
      replaceLoop boundary w r b skip a ++ d :: replaceLoop boundary w r [] 0 t := by
  induction a generalizing b skip with
  | nil =>
    obtain rfl : skip = 0 := Nat.le_zero.1 hskip
    have hmatch : matchesWord boundary w b (d :: t) = false := by
      have hnil := matchesWord_after hsep hw hd b [] t
      rw [List.nil_append] at hnil
      rcases w with - | ⟨c, w⟩
      · exact absurd rfl hw
      · rw [hnil]
        rfl
    show replaceLoop boundary w r b 0 (d :: t) = d :: replaceLoop boundary w r [] 0 t
    rw [replaceLoop, if_neg (Nat.lt_irrefl 0), if_neg (by rw [hmatch]; exact Bool.false_ne_true),
      replaceLoop_before hsep b []]
  | cons c a ih =>
    rw [List.cons_append, replaceLoop, replaceLoop, ← List.cons_append,
      matchesWord_after hsep hw hd]
    by_cases hpos : 0 < skip
    · rw [if_pos hpos, if_pos hpos]
      rw [List.length_cons] at hskip
      exact ih (by omega) _
    · rw [if_neg hpos, if_neg hpos]
      by_cases hmatch : matchesWord boundary w b (c :: a) = true
      · -- the match ends before the separator
        have hle : w.length - 1 ≤ a.length := by
          simp only [matchesWord, Bool.and_eq_true, List.isPrefixOf_iff_prefix] at hmatch
          have hlen := hmatch.1.1.length_le
          rw [List.length_cons] at hlen
          omega
        rw [if_pos hmatch, if_pos hmatch, ih hle, List.append_assoc]
      · rw [if_neg hmatch, if_neg hmatch, ih (Nat.zero_le _), List.cons_append]

/-- **Both sides of a separator are filtered by themselves.** -/
theorem replaceAllWord_append_cons (hsep : Separates boundary d) (hw : w ≠ []) (hd : d ∉ w)
    (a t : JString) :
    replaceAllWord boundary w r (a ++ d :: t) =
      replaceAllWord boundary w r a ++ d :: replaceAllWord boundary w r t :=
  replaceLoop_append_cons hsep hw hd (Nat.zero_le _) [] t

/-- One replacement after the other. -/
def replaceEach (boundary : WordBoundary) (ws : List JString) (r s : JString) : JString :=
  ws.foldl (fun s w ↦ replaceAllWord boundary w r s) s

theorem replaceEach_append_cons (hsep : Separates boundary d) {ws : List JString}
    (hws : ∀ w ∈ ws, w ≠ [] ∧ d ∉ w) (a t : JString) :
    replaceEach boundary ws r (a ++ d :: t) =
      replaceEach boundary ws r a ++ d :: replaceEach boundary ws r t := by
  induction ws generalizing a t with
  | nil => rfl
  | cons w ws ih =>
    obtain ⟨hw, hd⟩ := hws w List.mem_cons_self
    simp only [replaceEach, List.foldl_cons, replaceAllWord_append_cons hsep hw hd]
    exact ih (fun w' hw' ↦ hws w' (List.mem_cons_of_mem w hw')) _ _

theorem replaceEach_nil (ws : List JString) : replaceEach boundary ws r [] = [] := by
  induction ws with
  | nil => rfl
  | cons w ws ih => exact ih

end Separates

/-! ### ASCII word characters -/

section Ascii

variable {w r s u : JString} {ws : List JString} {n : ℕ}

/-- The word of the regular expression is a word of the text. -/
theorem hasWord_asciiBoundary_iff (hne : w ≠ []) (hw : ∀ c ∈ w, isWordChar c) :
    HasWord asciiBoundary w [] s ↔ w ∈ runs isWordChar s := by
  obtain ⟨c, w', rfl⟩ := List.exists_cons_of_ne_nil hne
  obtain ⟨v, d, hlast⟩ := (c :: w').eq_nil_or_concat'.resolve_left hne
  have hc : isWordChar c = true := hw c List.mem_cons_self
  have hd : isWordChar d = true := hw d (by simp [hlast])
  -- in front of the word and behind it there is a boundary where no word character stands
  have hbefore : ∀ a b : JString, asciiBoundary a (c :: w' ++ b) = true ↔ Starts isWordChar a := by
    intro a b
    rcases a.eq_nil_or_concat' with rfl | ⟨a, x, rfl⟩
    · simp [asciiBoundary, hc]
    · simp [asciiBoundary, hc]
  have hafter : ∀ a b : JString, asciiBoundary (a ++ c :: w') b = true ↔ Ends isWordChar b := by
    intro a b
    rw [hlast, ← List.append_assoc]
    rcases b with - | ⟨x, b⟩
    · simp [asciiBoundary, hd]
    · simp [asciiBoundary, hd]
  rw [mem_runs_iff]
  constructor
  · rintro ⟨s₁, s₂, rfl, -, hmatch⟩
    simp only [matchesWord, Bool.and_eq_true, List.isPrefixOf_iff_prefix, List.nil_append] at hmatch
    obtain ⟨⟨⟨b, rfl⟩, hfront⟩, hback⟩ := hmatch
    rw [List.drop_left, hafter] at hback
    exact ⟨hw, s₁, b, rfl, (hbefore s₁ b).1 hfront, hback⟩
  · rintro ⟨-, a, b, rfl, ha, hb⟩
    refine ⟨a, c :: w' ++ b, rfl, List.cons_ne_nil c _, ?_⟩
    simp only [matchesWord, Bool.and_eq_true, List.isPrefixOf_iff_prefix, List.nil_append]
    refine ⟨⟨List.prefix_append _ _, (hbefore a b).2 ha⟩, ?_⟩
    rw [List.drop_left]
    exact (hafter a b).2 hb

/-- Words that can be replaced one after the other: they consist of word characters, none ends in
another, and none appears in the replacement, even when the front of that is cut off. -/
structure Replaceable (ws : List JString) (r : JString) : Prop where
  nonempty : ∀ w ∈ ws, w ≠ []
  wordChars : ∀ w ∈ ws, ∀ c ∈ w, isWordChar c = true
  shortest : ∀ v, ∀ w ∈ ws, v ++ w ∈ ws → v = []
  replacement : ∀ n, ∀ w ∈ ws, w ∉ runs isWordChar (r.drop n)

theorem replaceLoop_of_length_le {boundary : WordBoundary} {before : JString}
    (h : s.length ≤ n) : replaceLoop boundary w r before n s = [] := by
  induction s generalizing before n with
  | nil => rfl
  | cons c s ih =>
    rw [List.length_cons] at h
    rw [replaceLoop, if_pos (by omega)]
    exact ih (by omega)

/-- A word is replaced as a whole or not at all. -/
theorem replaceAllWord_of_forall (hne : w ≠ []) (hw : ∀ c ∈ w, isWordChar c)
    (hu : ∀ c ∈ u, isWordChar c) :
    replaceAllWord asciiBoundary w r u = if u = w then r else u := by
  have hword : HasWord asciiBoundary w [] u ↔ w = u := by
    rw [hasWord_asciiBoundary_iff hne hw, runs_of_forall hu, List.mem_singleton]
  by_cases heq : u = w
  · subst heq
    -- the match is at the front, since the word is not longer than itself
    obtain ⟨s₁, s₂, hs, -, hmatch⟩ := hword.2 rfl
    have hfront : s₁ = [] := by
      simp only [matchesWord, Bool.and_eq_true, List.isPrefixOf_iff_prefix] at hmatch
      have hlen := hmatch.1.1.length_le
      have hlen' := congrArg List.length hs
      rw [List.length_append] at hlen'
      exact List.length_eq_zero_iff.1 (by omega)
    subst hfront
    obtain rfl : u = s₂ := hs
    obtain ⟨c, u, rfl⟩ := List.exists_cons_of_ne_nil hne
    rw [List.append_nil] at hmatch
    rw [if_pos rfl, replaceAllWord, replaceLoop, if_neg (Nat.lt_irrefl 0), if_pos hmatch,
      replaceLoop_of_length_le (by simp), List.append_nil]
  · rw [if_neg heq, replaceAllWord]
    exact replaceLoop_of_not_hasWord fun h ↦ heq (hword.1 h).symm

namespace Replaceable

theorem not_hasWord (h : Replaceable ws r) (hw : w ∈ ws) (hrun : w ∉ runs isWordChar s) :
    ¬ HasWord asciiBoundary w [] s := by
  rwa [hasWord_asciiBoundary_iff (h.nonempty w hw) (h.wordChars w hw)]

theorem tail (h : Replaceable (w :: ws) r) : Replaceable ws r where
  nonempty w' hw' := h.nonempty w' (List.mem_cons_of_mem w hw')
  wordChars w' hw' := h.wordChars w' (List.mem_cons_of_mem w hw')
  shortest v w' hw' hmem :=
    h.shortest v w' (List.mem_cons_of_mem w hw') (List.mem_cons_of_mem w hmem)
  replacement n w' hw' := h.replacement n w' (List.mem_cons_of_mem w hw')

/-- A word of the text is replaced if it is one of the words. -/
theorem replaceEach_of_forall (h : Replaceable ws r) (hu : ∀ c ∈ u, isWordChar c) :
    replaceEach asciiBoundary ws r u = if u ∈ ws then r else u := by
  induction ws with
  | nil => rfl
  | cons w ws ih =>
    show replaceEach asciiBoundary ws r (replaceAllWord asciiBoundary w r u) = _
    rw [replaceAllWord_of_forall (h.nonempty w List.mem_cons_self)
      (h.wordChars w List.mem_cons_self) hu]
    by_cases heq : u = w
    · rw [if_pos heq, if_pos (heq ▸ List.mem_cons_self)]
      exact foldl_replaceAllWord_of_not_hasWord fun w' hw' ↦
        h.tail.not_hasWord hw' (h.tail.replacement 0 w' hw')
    · rw [if_neg heq, ih h.tail]
      simp only [List.mem_cons, heq, false_or]

theorem not_mem (h : Replaceable ws r) {d : JChar} (hd : isWordChar d = false) :
    ∀ w ∈ ws, w ≠ [] ∧ d ∉ w := by
  intro w hw
  refine ⟨h.nonempty w hw, fun hmem ↦ ?_⟩
  rw [h.wordChars w hw d hmem] at hd
  exact absurd hd.symm Bool.false_ne_true

/-- The replacements work on each side of a separator by themselves. -/
theorem replaceEach_sep (h : Replaceable ws r) {d : JChar} (hd : isWordChar d = false)
    (a t : JString) :
    replaceEach asciiBoundary ws r (a ++ d :: t) =
      replaceEach asciiBoundary ws r a ++ d :: replaceEach asciiBoundary ws r t :=
  replaceEach_append_cons (separates_asciiBoundary hd) (h.not_mem hd) a t

/-- **No word is left.** -/
theorem not_mem_runs (h : Replaceable ws r) (hw : w ∈ ws) (s : JString) :
    w ∉ runs isWordChar (replaceEach asciiBoundary ws r s) := by
  induction s using run_induction (p := isWordChar) with
  | run u hu =>
    rw [h.replaceEach_of_forall hu]
    split_ifs with hmem
    · exact h.replacement 0 w hw
    · rw [runs_of_forall hu, List.mem_singleton]
      rintro rfl
      exact hmem hw
  | sep u d s hu hd ih =>
    rw [h.replaceEach_sep hd, mem_runs_append_cons hd, h.replaceEach_of_forall hu]
    rintro (hmem | hmem)
    · split_ifs at hmem with hu'
      · exact h.replacement 0 w hw hmem
      · rw [runs_of_forall hu, List.mem_singleton] at hmem
        exact hu' (hmem ▸ hw)
    · exact ih hmem

end Replaceable

/-- Cutting the first `n` characters of the filtered text off cuts a longer word of the text in
front of one of the words. -/
def CutsWord (ws : List JString) (r s : JString) (n : ℕ) : Prop :=
  ∃ a v w b, s = a ++ (v ++ (w ++ b)) ∧ w ∈ ws ∧ v ≠ [] ∧ (∀ c ∈ v, isWordChar c) ∧
    Starts isWordChar a ∧ Ends isWordChar b ∧
    (replaceEach asciiBoundary ws r a).length + v.length = n

namespace Replaceable

/-- A longer word that ends in one of the words is kept. -/
theorem replaceEach_longer (h : Replaceable ws r) {a v b : JString} (hw : w ∈ ws) (hv : v ≠ [])
    (hword : ∀ c ∈ v, isWordChar c) (ha : Starts isWordChar a) (hb : Ends isWordChar b) :
    replaceEach asciiBoundary ws r (a ++ (v ++ (w ++ b))) =
      replaceEach asciiBoundary ws r a ++ (v ++ (w ++ replaceEach asciiBoundary ws r b)) ∧
    Ends isWordChar (replaceEach asciiBoundary ws r b) := by
  have hnil : ∀ {boundary}, replaceEach boundary ws r [] = [] := replaceEach_nil ws
  have hlonger : replaceEach asciiBoundary ws r (v ++ w) = v ++ w := by
    rw [h.replaceEach_of_forall, if_neg fun hmem ↦ hv (h.shortest v w hw hmem)]
    intro c hc
    rcases List.mem_append.1 hc with hc | hc
    · exact hword c hc
    · exact h.wordChars w hw c hc
  have hback : replaceEach asciiBoundary ws r (v ++ (w ++ b)) =
        v ++ (w ++ replaceEach asciiBoundary ws r b) ∧
      Ends isWordChar (replaceEach asciiBoundary ws r b) := by
    rcases ends_iff.1 hb with rfl | ⟨d, t, rfl, hd⟩
    · rw [hnil, List.append_nil]
      exact ⟨hlonger, ends_nil⟩
    · have hsep := h.replaceEach_sep hd [] t
      rw [hnil, List.nil_append, List.nil_append] at hsep
      rw [← List.append_assoc, h.replaceEach_sep hd, hlonger, hsep, List.append_assoc]
      exact ⟨rfl, ends_cons.2 hd⟩
  refine ⟨?_, hback.2⟩
  rcases starts_iff.1 ha with rfl | ⟨a, d, rfl, hd⟩
  · rw [hnil, List.nil_append, List.nil_append]
    exact hback.1
  · rw [List.append_assoc, List.singleton_append, h.replaceEach_sep hd, hback.1,
      h.replaceEach_sep hd, hnil, List.append_assoc, List.singleton_append]

/-- The cut is in a text of one word. -/
theorem cutsWord_of_forall (h : Replaceable ws r) (hw : w ∈ ws) (hu : ∀ c ∈ u, isWordChar c)
    (hmem : w ∈ runs isWordChar ((replaceEach asciiBoundary ws r u).drop n)) :
    CutsWord ws r u n := by
  rw [h.replaceEach_of_forall hu] at hmem
  split_ifs at hmem with hreplaced
  · exact absurd hmem (h.replacement n w hw)
  · rw [runs_of_forall fun c hc ↦ hu c (List.mem_of_mem_drop hc), List.mem_singleton] at hmem
    have hlt : n < u.length := by
      have hpos := List.length_pos_of_ne_nil (h.nonempty w hw)
      rw [hmem, List.length_drop] at hpos
      omega
    refine ⟨[], u.take n, w, [], ?_, hw, ?_, fun c hc ↦ hu c (List.mem_of_mem_take hc),
      starts_nil, ends_nil, ?_⟩
    · rw [hmem, List.append_nil, List.take_append_drop, List.nil_append]
    · intro hnil
      rw [List.take_eq_nil_iff] at hnil
      rcases hnil with rfl | rfl
      · exact hreplaced (by rwa [← List.drop_zero (l := u), ← hmem])
      · exact absurd hlt (Nat.not_lt_zero n)
    · rw [replaceEach_nil, List.length_nil, Nat.zero_add, List.length_take, Nat.min_eq_left hlt.le]

end Replaceable

namespace CutsWord

theorem append (h : CutsWord ws r s n) {d : JChar} (hd : isWordChar d = false) (t : JString) :
    CutsWord ws r (s ++ d :: t) n := by
  obtain ⟨a, v, w, b, rfl, hw, hv, hword, ha, hb, hn⟩ := h
  refine ⟨a, v, w, b ++ d :: t, by simp, hw, hv, hword, ha, ?_, hn⟩
  rcases ends_iff.1 hb with rfl | ⟨e, b, rfl, he⟩
  · exact ends_cons.2 hd
  · exact ends_cons.2 he

theorem behind (h : Replaceable ws r) {d : JChar} (hd : isWordChar d = false) (u : JString)
    (hs : CutsWord ws r s n) :
    CutsWord ws r (u ++ d :: s) ((replaceEach asciiBoundary ws r u).length + 1 + n) := by
  obtain ⟨a, v, w, b, rfl, hw, hv, hword, ha, hb, rfl⟩ := hs
  refine ⟨u ++ d :: a, v, w, b, by simp, hw, hv, hword, (starts_append_cons hd).2 ha, hb, ?_⟩
  rw [h.replaceEach_sep hd, List.length_append, List.length_cons]
  omega

end CutsWord

/-- **A word appears behind a cut exactly when the cut is in front of it in a longer word.** -/
theorem Replaceable.mem_runs_drop_iff (h : Replaceable ws r) :
    (∃ w ∈ ws, w ∈ runs isWordChar ((replaceEach asciiBoundary ws r s).drop n)) ↔
      CutsWord ws r s n := by
  constructor
  · rintro ⟨w, hw, hmem⟩
    induction s using run_induction (p := isWordChar) generalizing n with
    | run u hu => exact h.cutsWord_of_forall hw hu hmem
    | sep u d s hu hd ih =>
      rw [h.replaceEach_sep hd, List.drop_append] at hmem
      by_cases hle : n ≤ (replaceEach asciiBoundary ws r u).length
      · -- the cut is in the first word, and the word is not behind it
        rw [Nat.sub_eq_zero_of_le hle, List.drop_zero, mem_runs_append_cons hd] at hmem
        rcases hmem with hmem | hmem
        · exact (h.cutsWord_of_forall hw hu hmem).append hd s
        · exact absurd hmem (h.not_mem_runs hw s)
      · obtain ⟨m, rfl⟩ : ∃ m, n = (replaceEach asciiBoundary ws r u).length + 1 + m :=
          ⟨n - (replaceEach asciiBoundary ws r u).length - 1, by omega⟩
        rw [List.drop_eq_nil_of_le (by omega), List.nil_append,
          show _ + 1 + m - _ = m + 1 by omega, List.drop_succ_cons] at hmem
        exact CutsWord.behind h hd u (ih hmem)
  · rintro ⟨a, v, w, b, rfl, hw, hv, hword, ha, hb, rfl⟩
    obtain ⟨heq, hends⟩ := h.replaceEach_longer hw hv hword ha hb
    refine ⟨w, hw, ?_⟩
    rw [heq, ← List.append_assoc, ← List.length_append, List.drop_left]
    exact mem_runs_iff.2 ⟨h.wordChars w hw, [], _, rfl, starts_nil, hends⟩

/-- A cut in front of a word is not at the end of the text. -/
theorem CutsWord.lt_length (h : Replaceable ws r) (hcut : CutsWord ws r s n) :
    n < (replaceEach asciiBoundary ws r s).length := by
  obtain ⟨w, hw, hmem⟩ := h.mem_runs_drop_iff.2 hcut
  by_contra hle
  rw [List.drop_eq_nil_of_le (Nat.le_of_not_lt hle), runs_of_forall (by simp),
    List.mem_singleton] at hmem
  exact h.nonempty w hw hmem

end Ascii

end Java
