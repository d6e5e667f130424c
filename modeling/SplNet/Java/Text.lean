import Mathlib.Data.List.Basic
import Mathlib.Data.List.DropRight
import Mathlib.Data.List.Infix

/-!
# Java text

The part of `java.lang.String` the server uses, on lists of UTF-16 code units. A Java `char` is one
code unit, so `length`, `charAt`, `substring`, `contains` and `split` are the list operations they
look like, also on text outside the basic plane and on unpaired surrogates.

A call that would throw returns an `Except`; the exceptions are named after the Java classes.

`replaceAllWord` is `replaceAll("\\b" + w + "\\b", r)` for a nonempty literal `w`: matches are found
from the left, do not overlap, and both word boundaries are tested against the text **before** any
replacement. Which positions are word boundaries depends on the Java version and is a parameter
(`WordBoundary`).
-/

/-- A Java `char`: a UTF-16 code unit. -/
abbrev JChar := UInt16

/-- A Java `String`. -/
abbrev JString := List JChar

/-- The run-time exceptions the server can raise. -/
inductive JException
  | stringIndexOutOfBounds
  | arrayIndexOutOfBounds
  | numberFormat
  | classCast
deriving DecidableEq, Repr

namespace Java

/-- A computation that ends normally went through its first step. -/
theorem bind_eq_ok {α β : Type*} {x : Except JException α} {f : α → Except JException β} {b : β} :
    x.bind f = .ok b ↔ ∃ a, x = .ok a ∧ f a = .ok b := by
  rcases x with e | a
  · simp [Except.bind]
  · simp [Except.bind]

/-- A character literal. -/
def char (c : Char) : JChar := UInt16.ofNat c.toNat

/-- A string literal. -/
def str (s : String) : JString := s.toList.map char

/-- A statement about all characters of a text is decided along the text, not for all characters
there are. -/
instance decidableForallMem {α : Type*} {p : α → Prop} [DecidablePred p] (s : List α) :
    Decidable (∀ c ∈ s, p c) :=
  List.decidableBAll p s

/-- The character `\0`. -/
def nul : JChar := 0

/-- The character `' '`. -/
def space : JChar := char ' '

/-! ### Searching and cutting -/

/-- `s.contains(t)`: the text `t` occurs somewhere in `s`. -/
def contains (s t : JString) : Bool := decide (t <:+: s)

theorem contains_iff {s t : JString} : contains s t = true ↔ t <:+: s := by
  simp [contains]

theorem contains_self (s : JString) : contains s s = true := contains_iff.2 List.infix_rfl

/-- `s.substring(beginIndex, endIndex)`. -/
def substring (s : JString) (beginIndex endIndex : ℤ) : Except JException JString :=
  if 0 ≤ beginIndex ∧ beginIndex ≤ endIndex ∧ endIndex ≤ s.length then
    .ok ((s.take endIndex.toNat).drop beginIndex.toNat)
  else .error .stringIndexOutOfBounds

/-- `s.substring(beginIndex)`. -/
def substringFrom (s : JString) (beginIndex : ℤ) : Except JException JString :=
  substring s beginIndex s.length

theorem substringFrom_of_le {s : JString} {n : ℕ} (h : n ≤ s.length) :
    substringFrom s n = .ok (s.drop n) := by
  simp [substringFrom, substring, h]

theorem substringFrom_of_lt {s : JString} {n : ℕ} (h : s.length < n) :
    substringFrom s n = .error .stringIndexOutOfBounds := by
  rw [substringFrom, substring, if_neg]
  omega

theorem substringFrom_eq_ok_iff {s t : JString} {n : ℕ} :
    substringFrom s n = .ok t ↔ n ≤ s.length ∧ t = s.drop n := by
  rcases Nat.lt_or_ge s.length n with hlt | hle
  · rw [substringFrom_of_lt hlt]
    simp [Nat.not_le.2 hlt]
  · rw [substringFrom_of_le hle, Except.ok.injEq, and_iff_right hle, eq_comm]

/-- `s.substring(0, s.length() - 1)` drops the last character, and throws on the empty string. -/
theorem substring_dropLast (s : JString) :
    substring s 0 (s.length - 1) =
      if s = [] then .error .stringIndexOutOfBounds else .ok s.dropLast := by
  rcases s with - | ⟨c, cs⟩
  · rfl
  · have hlen : (((c :: cs).length : ℤ) - 1).toNat = cs.length := by simp
    have hrange : (0 : ℤ) ≤ 0 ∧ (0 : ℤ) ≤ ((c :: cs).length : ℤ) - 1 ∧
        ((c :: cs).length : ℤ) - 1 ≤ ((c :: cs).length : ℤ) := by
      rw [List.length_cons]
      omega
    rw [substring, if_pos hrange, if_neg (List.cons_ne_nil c cs), hlen, List.dropLast_eq_take]
    rfl

/-- `s.split(d)` for a one-character separator: without a separator the whole string, otherwise
the pieces with trailing empty pieces removed. -/
def split (s : JString) (d : JChar) : List JString :=
  if d ∈ s then (s.splitOn d).rdropWhile (· = []) else [s]

section Split

variable {d : JChar}

theorem not_mem_of_mem_splitOn {s w : JString} (h : w ∈ s.splitOn d) : d ∉ w := by
  induction s generalizing w with
  | nil =>
    rw [List.splitOn_nil, List.mem_singleton] at h
    rw [h]
    exact List.not_mem_nil
  | cons c s ih =>
    rw [List.splitOn_cons_eq_if_modifyHead] at h
    rcases hpieces : s.splitOn d with - | ⟨v, vs⟩
    · exact absurd hpieces (List.splitOn_ne_nil d s)
    rw [hpieces] at h ih
    split at h
    case isTrue =>
      rcases List.mem_cons.1 h with rfl | h
      · exact List.not_mem_nil
      · exact ih h
    case isFalse hne =>
      rcases List.mem_cons.1 h with rfl | h
      · rw [List.mem_cons, not_or]
        exact ⟨fun heq ↦ hne (beq_iff_eq.2 heq.symm), ih List.mem_cons_self⟩
      · exact ih (List.mem_cons_of_mem v h)

/-- No piece has the separator in it. -/
theorem not_mem_of_mem_split {s w : JString} (h : w ∈ split s d) : d ∉ w := by
  rw [split] at h
  split at h
  case isTrue => exact not_mem_of_mem_splitOn ((List.rdropWhile_prefix _ _).subset h)
  case isFalse hs => rwa [List.mem_singleton.1 h]

theorem subset_of_mem_splitOn {s w : JString} (h : w ∈ s.splitOn d) : w ⊆ s := by
  induction s generalizing w with
  | nil =>
    rw [List.splitOn_nil, List.mem_singleton] at h
    rw [h]
    exact List.Subset.refl _
  | cons c s ih =>
    rw [List.splitOn_cons_eq_if_modifyHead] at h
    rcases hpieces : s.splitOn d with - | ⟨v, vs⟩
    · exact absurd hpieces (List.splitOn_ne_nil d s)
    rw [hpieces] at h ih
    split at h
    case isTrue =>
      rcases List.mem_cons.1 h with rfl | h
      · exact List.nil_subset _
      · exact List.subset_cons_of_subset c (ih h)
    case isFalse =>
      rcases List.mem_cons.1 h with rfl | h
      · exact List.cons_subset_cons c (ih List.mem_cons_self)
      · exact List.subset_cons_of_subset c (ih (List.mem_cons_of_mem v h))

/-- The pieces are parts of the whole. -/
theorem subset_of_mem_split {s w : JString} (h : w ∈ split s d) : w ⊆ s := by
  rw [split] at h
  split at h
  case isTrue => exact subset_of_mem_splitOn ((List.rdropWhile_prefix _ _).subset h)
  case isFalse =>
    rw [List.mem_singleton.1 h]
    exact List.Subset.refl _

variable {u v w : JString}

theorem split_three (hu : d ∉ u) (hv : d ∉ v) (hw : d ∉ w) (hne : w ≠ []) :
    split (u ++ d :: (v ++ d :: w)) d = [u, v, w] := by
  rw [split, if_pos (by simp), List.splitOn_append_cons_self_of_not_mem hu,
    List.splitOn_append_cons_self_of_not_mem hv, List.splitOn_eq_singleton hw]
  exact List.rdropWhile_concat_neg _ [u, v] w (by simpa using hne)

theorem split_four {x : JString} (hu : d ∉ u) (hv : d ∉ v) (hw : d ∉ w) (hx : d ∉ x)
    (hne : x ≠ []) : split (u ++ d :: (v ++ d :: (w ++ d :: x))) d = [u, v, w, x] := by
  rw [split, if_pos (by simp), List.splitOn_append_cons_self_of_not_mem hu,
    List.splitOn_append_cons_self_of_not_mem hv, List.splitOn_append_cons_self_of_not_mem hw,
    List.splitOn_eq_singleton hx]
  exact List.rdropWhile_concat_neg _ [u, v, w] x (by simpa using hne)

/-- The empty piece behind the last separator is dropped. -/
theorem split_three_terminated (hu : d ∉ u) (hv : d ∉ v) (hw : d ∉ w) (hne : w ≠ []) :
    split (u ++ d :: (v ++ d :: (w ++ [d]))) d = [u, v, w] := by
  rw [split, if_pos (by simp), List.splitOn_append_cons_self_of_not_mem hu,
    List.splitOn_append_cons_self_of_not_mem hv, List.splitOn_append_cons_self_of_not_mem hw,
    List.splitOn_nil]
  have hdrop := List.rdropWhile_concat_pos (fun s : JString ↦ decide (s = [])) [u, v, w] [] rfl
  exact hdrop.trans (List.rdropWhile_concat_neg _ [u, v] w (by simpa using hne))

end Split

/-! ### Whole-word replacement -/

/-- An ASCII word character, as in the regular-expression class `\w`. -/
def isWordChar (c : JChar) : Bool :=
  (char 'a' ≤ c && c ≤ char 'z') || (char 'A' ≤ c && c ≤ char 'Z') ||
    (char '0' ≤ c && c ≤ char '9') || c == char '_'

/-- The assertion `\b`, given the text before and the text after a position. -/
abbrev WordBoundary := JString → JString → Bool

/-- The boundaries between ASCII word characters and others, as from Java 19 on. Earlier versions
take the letters and digits of all scripts for word characters. -/
def asciiBoundary : WordBoundary := fun before after ↦
  before.getLast?.any isWordChar != after.head?.any isWordChar

section Replace

variable (boundary : WordBoundary) (w r : JString)

/-- The word `w` stands at the front of `s` with a boundary on both sides. -/
def matchesWord (before s : JString) : Bool :=
  w.isPrefixOf s && boundary before s && boundary (before ++ w) (s.drop w.length)

/-- The replacement loop: `before` is the text before the current position and `skip` the number of
characters of the last match still to be passed over. -/
def replaceLoop (before : JString) (skip : ℕ) : JString → JString
  | [] => []
  | c :: cs =>
    if 0 < skip then replaceLoop (before ++ [c]) (skip - 1) cs
    else if matchesWord boundary w before (c :: cs) then
      r ++ replaceLoop (before ++ [c]) (w.length - 1) cs
    else c :: replaceLoop (before ++ [c]) 0 cs

/-- `s.replaceAll("\\b" + w + "\\b", r)`. -/
def replaceAllWord (s : JString) : JString := replaceLoop boundary w r [] 0 s

end Replace

/-- Every character of the result comes from the text or from the replacement. -/
theorem mem_replaceLoop {boundary : WordBoundary} {w r before s : JString} {skip : ℕ} {c : JChar}
    (h : c ∈ replaceLoop boundary w r before skip s) : c ∈ r ∨ c ∈ s := by
  induction s generalizing before skip with
  | nil => exact absurd h List.not_mem_nil
  | cons d s ih =>
    rw [replaceLoop] at h
    split_ifs at h
    · exact (ih h).imp_right (List.mem_cons_of_mem d)
    · rcases List.mem_append.1 h with hr | h
      · exact Or.inl hr
      · exact (ih h).imp_right (List.mem_cons_of_mem d)
    · rcases List.mem_cons.1 h with rfl | h
      · exact Or.inr List.mem_cons_self
      · exact (ih h).imp_right (List.mem_cons_of_mem d)

section HasWord

variable {boundary : WordBoundary} {w r : JString}

/-- The word stands somewhere in `s`, with a boundary on both sides; `before` is the text before
`s`. -/
def HasWord (boundary : WordBoundary) (w before s : JString) : Prop :=
  ∃ s₁ s₂, s = s₁ ++ s₂ ∧ s₂ ≠ [] ∧ matchesWord boundary w (before ++ s₁) s₂ = true

theorem hasWord_cons_iff {before : JString} {c : JChar} {cs : JString} :
    HasWord boundary w before (c :: cs) ↔
      matchesWord boundary w before (c :: cs) = true ∨ HasWord boundary w (before ++ [c]) cs := by
  constructor
  · rintro ⟨s₁, s₂, heq, hne, hmatch⟩
    rcases s₁ with - | ⟨d, s₁⟩
    · rw [List.nil_append] at heq
      rw [List.append_nil, ← heq] at hmatch
      exact Or.inl hmatch
    · obtain ⟨rfl, rfl⟩ := List.cons.inj heq
      refine Or.inr ⟨s₁, s₂, rfl, hne, ?_⟩
      rwa [List.append_assoc, List.singleton_append]
  · rintro (hmatch | ⟨s₁, s₂, rfl, hne, hmatch⟩)
    · exact ⟨[], c :: cs, rfl, List.cons_ne_nil c cs, by rwa [List.append_nil]⟩
    · refine ⟨c :: s₁, s₂, rfl, hne, ?_⟩
      rwa [List.append_assoc, List.singleton_append] at hmatch

/-- A text without the word stays as it is. -/
theorem replaceLoop_of_not_hasWord {before s : JString} (h : ¬ HasWord boundary w before s) :
    replaceLoop boundary w r before 0 s = s := by
  induction s generalizing before with
  | nil => rfl
  | cons c cs ih =>
    rw [hasWord_cons_iff, not_or] at h
    rw [replaceLoop, if_neg (Nat.lt_irrefl 0), if_neg h.1, ih h.2]

/-- Replacing by something longer never shortens a text. -/
theorem length_le_replaceLoop (hw : w ≠ []) (hr : w.length ≤ r.length) (before : JString)
    (skip : ℕ) (s : JString) :
    (s.drop skip).length ≤ (replaceLoop boundary w r before skip s).length := by
  induction s generalizing before skip with
  | nil => simp
  | cons c cs ih =>
    rw [replaceLoop]
    split_ifs with hskip hmatch
    · obtain ⟨n, rfl⟩ : ∃ n, skip = n + 1 := ⟨skip - 1, by omega⟩
      exact ih _ _
    · have hrest := ih (before ++ [c]) (w.length - 1)
      have hpos := List.length_pos_of_ne_nil hw
      rw [List.length_drop] at hrest ⊢
      rw [List.length_append, List.length_cons]
      omega
    · have hrest := ih (before ++ [c]) 0
      rw [List.length_drop] at hrest ⊢
      rw [List.length_cons, List.length_cons]
      omega

/-- Replacing a word that is there by something longer makes the text longer. -/
theorem length_lt_replaceLoop (hw : w ≠ []) (hr : w.length < r.length) {before s : JString}
    (h : HasWord boundary w before s) :
    s.length < (replaceLoop boundary w r before 0 s).length := by
  induction s generalizing before with
  | nil =>
    obtain ⟨s₁, s₂, heq, hne, -⟩ := h
    exact absurd (List.append_eq_nil_iff.1 heq.symm).2 hne
  | cons c cs ih =>
    rw [replaceLoop, if_neg (Nat.lt_irrefl 0)]
    by_cases hmatch : matchesWord boundary w before (c :: cs) = true
    · have hrest : (cs.drop (w.length - 1)).length ≤
          (replaceLoop boundary w r (before ++ [c]) (w.length - 1) cs).length :=
        length_le_replaceLoop hw hr.le _ _ _
      have hpos := List.length_pos_of_ne_nil hw
      rw [List.length_drop] at hrest
      rw [if_pos hmatch, List.length_append, List.length_cons]
      omega
    · rw [hasWord_cons_iff, or_iff_right hmatch] at h
      rw [if_neg hmatch, List.length_cons, List.length_cons]
      exact Nat.succ_lt_succ (ih h)

section Words

variable {ws : List JString}

/-- A text without any of the words stays as it is. -/
theorem foldl_replaceAllWord_of_not_hasWord {s : JString}
    (h : ∀ w ∈ ws, ¬ HasWord boundary w [] s) :
    ws.foldl (fun s w ↦ replaceAllWord boundary w r s) s = s := by
  induction ws with
  | nil => rfl
  | cons w ws ih =>
    rw [List.foldl_cons, replaceAllWord, replaceLoop_of_not_hasWord (h w List.mem_cons_self)]
    exact ih fun w' hw' ↦ h w' (List.mem_cons_of_mem w hw')

theorem length_le_foldl_replaceAllWord (hws : ∀ w ∈ ws, w ≠ [] ∧ w.length < r.length)
    (s : JString) :
    s.length ≤ (ws.foldl (fun s w ↦ replaceAllWord boundary w r s) s).length := by
  induction ws generalizing s with
  | nil => exact le_rfl
  | cons w ws ih =>
    obtain ⟨hw, hr⟩ := hws w List.mem_cons_self
    exact (length_le_replaceLoop hw hr.le [] 0 s).trans
      (ih (fun w' hw' ↦ hws w' (List.mem_cons_of_mem w hw')) _)

/-- A text with one of the words gets longer. -/
theorem length_lt_foldl_replaceAllWord (hws : ∀ w ∈ ws, w ≠ [] ∧ w.length < r.length)
    {s : JString} (h : ∃ w ∈ ws, HasWord boundary w [] s) :
    s.length < (ws.foldl (fun s w ↦ replaceAllWord boundary w r s) s).length := by
  induction ws with
  | nil =>
    obtain ⟨w, hw, -⟩ := h
    exact absurd hw List.not_mem_nil
  | cons w ws ih =>
    obtain ⟨hw, hr⟩ := hws w List.mem_cons_self
    have htail := fun w' hw' ↦ hws w' (List.mem_cons_of_mem w hw')
    rw [List.foldl_cons]
    by_cases hword : HasWord boundary w [] s
    · have hlt : s.length < (replaceAllWord boundary w r s).length :=
        length_lt_replaceLoop hw hr hword
      exact hlt.trans_le (length_le_foldl_replaceAllWord htail _)
    · rw [replaceAllWord, replaceLoop_of_not_hasWord hword]
      obtain ⟨w', hmem, hword'⟩ := h
      rcases List.mem_cons.1 hmem with rfl | hmem
      · exact absurd hword' hword
      · exact ih htail ⟨w', hmem, hword'⟩

end Words

end HasWord

/-! ### Numbers -/

/-- The code units at which a run of ten decimal digits starts, as `Character.digit` reads them. -/
def decimalZeros : List ℕ :=
  [0x30, 0x660, 0x6F0, 0x7C0, 0x966, 0x9E6, 0xA66, 0xAE6, 0xB66, 0xBE6, 0xC66, 0xCE6, 0xD66,
    0xDE6, 0xE50, 0xED0, 0xF20, 0x1040, 0x1090, 0x17E0, 0x1810, 0x1946, 0x19D0, 0x1A80, 0x1A90,
    0x1B50, 0x1BB0, 0x1C40, 0x1C50, 0xA620, 0xA8D0, 0xA900, 0xA9D0, 0xA9F0, 0xAA50, 0xABF0, 0xFF10]

/-- `Character.digit(c, 10)`. -/
def digit (c : JChar) : Option ℕ :=
  (decimalZeros.find? fun z ↦ z ≤ c.toNat && c.toNat < z + 10).map (c.toNat - ·)

/-- The number a nonempty run of digits denotes. -/
def parseDigits : JString → Option ℕ
  | [] => none
  | c :: cs => (c :: cs).foldlM (fun n d ↦ (digit d).map (10 * n + ·)) 0

/-- An optional sign and digits. -/
def parseDecimal : JString → Option ℤ
  | [] => none
  | c :: cs =>
    if c = char '-' then (parseDigits cs).map fun n ↦ -(n : ℤ)
    else if c = char '+' then (parseDigits cs).map fun n ↦ (n : ℤ)
    else (parseDigits (c :: cs)).map fun n ↦ (n : ℤ)

/-- A decimal number from `-bound` to `bound - 1`. -/
def parseSigned (bound : ℤ) (s : JString) : Except JException ℤ :=
  match parseDecimal s with
  | some n => if -bound ≤ n ∧ n < bound then .ok n else .error .numberFormat
  | none => .error .numberFormat

/-- `Integer.parseInt(s)`. -/
def parseInt (s : JString) : Except JException ℤ := parseSigned 0x80000000 s

/-- `Short.parseShort(s)`. -/
def parseShort (s : JString) : Except JException ℤ := parseSigned 0x8000 s

/-- The decimal text of an integer, as string concatenation writes it. -/
def decimal (n : ℤ) : JString := str (toString n)

/-- `args[i]`. -/
def arrayGet (args : List JString) (i : ℕ) : Except JException JString :=
  match args[i]? with
  | some s => .ok s
  | none => .error .arrayIndexOutOfBounds

end Java
