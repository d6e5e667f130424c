import SplNet.Foundations.WordRuns
import SplNet.Api.BidiMessagingProtocolImpl

/-!
# The mention scanner

The scanner of POST reads a post word by word, the words being separated by blanks. From each word
it takes what stands behind the first `'@'`. The last word ends with the post and not with a blank:
there the last character is lost, and an `'@'` with nothing behind it is overlooked (`mentions_eq`).
-/

namespace SplNet

open Java WordRuns

/-- A character other than a blank. -/
def isNoBlank (c : JChar) : Bool := c ≠ space

theorem isNoBlank_eq_false {c : JChar} : isNoBlank c = false ↔ c = space := by
  simp [isNoBlank]

theorem forall_isNoBlank {u : JString} : (∀ c ∈ u, isNoBlank c) ↔ space ∉ u := by
  simp only [isNoBlank, decide_eq_true_eq]
  exact ⟨fun h hmem ↦ h space hmem rfl, fun h c hc heq ↦ h (heq ▸ hc)⟩

/-- What the scanner takes from a word: what stands behind the first `'@'`. -/
def behindAt (word : JString) : Option JString :=
  if char '@' ∈ word then some (word.dropWhile (· ≠ char '@')).tail else none

/-- The names in a post, word by word. -/
def scannedNames (text : JString) : List JString :=
  (runs isNoBlank text).dropLast.filterMap behindAt ++
    ((((runs isNoBlank text).getLast?.bind behindAt).filter (· ≠ [])).map List.dropLast).toList

/-- The post mentions the name: it stands behind an `'@'`, up to the next blank or the end. -/
def Mentions (text name : JString) : Prop :=
  name ≠ [] ∧ space ∉ name ∧ ∃ a b, text = a ++ char '@' :: (name ++ b) ∧ Ends isNoBlank b

section Scanner

variable {u s userName : JString}

theorem behindAt_cons (c : JChar) (u : JString) :
    behindAt (c :: u) = if c = char '@' then some u else behindAt u := by
  by_cases hc : c = char '@'
  · simp [behindAt, hc]
  · have hne : ¬ char '@' = c := fun h ↦ hc h.symm
    simp [behindAt, hc, hne]

/-- Inside a name the scanner reads up to the blank. -/
theorem mentionScan_some_append (hu : space ∉ u) (s : JString) :
    mentionScan (some userName) (u ++ space :: s) = (userName ++ u) :: mentionScan none s := by
  induction u generalizing userName with
  | nil =>
    show mentionScan (some userName) (space :: s) = _
    rw [mentionScan, if_pos (Or.inl rfl), List.append_nil]
  | cons c u ih =>
    rw [List.mem_cons, not_or] at hu
    rw [List.cons_append, mentionScan, if_neg (by simp [Ne.symm hu.1]), ih hu.2, List.append_assoc,
      List.singleton_append]

/-- The scanner reads a word and the blank behind it. -/
theorem mentionScan_none_append (hu : space ∉ u) (s : JString) :
    mentionScan none (u ++ space :: s) = (behindAt u).toList ++ mentionScan none s := by
  induction u with
  | nil =>
    show mentionScan none (space :: s) = _
    rw [mentionScan, if_neg (by decide)]
    rfl
  | cons c u ih =>
    rw [List.mem_cons, not_or] at hu
    rw [List.cons_append, mentionScan, behindAt_cons]
    by_cases hc : c = char '@'
    · rw [if_pos hc, if_pos hc, mentionScan_some_append hu.2]
      rfl
    · rw [if_neg hc, if_neg hc, ih hu.2]

/-- A name at the end of the post loses its last character. -/
theorem mentionScan_some_last (hu : space ∉ u) :
    mentionScan (some userName) u = if u = [] then [] else [userName ++ u.dropLast] := by
  induction u generalizing userName with
  | nil => rfl
  | cons c u ih =>
    rw [List.mem_cons, not_or] at hu
    rw [mentionScan, if_neg (List.cons_ne_nil c u)]
    rcases u with - | ⟨d, u⟩
    · rw [if_pos (Or.inr rfl)]
      simp [mentionScan]
    · rw [if_neg (by simp [Ne.symm hu.1]), ih hu.2, if_neg (List.cons_ne_nil d u),
        List.dropLast_cons_of_ne_nil (List.cons_ne_nil d u), List.append_assoc,
        List.singleton_append]

theorem mentionScan_none_last (hu : space ∉ u) :
    mentionScan none u = (((behindAt u).filter (· ≠ [])).map List.dropLast).toList := by
  induction u with
  | nil => rfl
  | cons c u ih =>
    rw [List.mem_cons, not_or] at hu
    rw [mentionScan, behindAt_cons]
    by_cases hc : c = char '@'
    · rw [if_pos hc, if_pos hc, mentionScan_some_last hu.2]
      by_cases hnil : u = []
      · simp [hnil]
      · simp [hnil, Option.filter]
    · rw [if_neg hc, if_neg hc, ih hu.2]

/-- **The scanner finds the names word by word.** -/
theorem mentions_eq (text : JString) : mentions text = scannedNames text := by
  rw [mentions]
  induction text using run_induction (p := isNoBlank) with
  | run u hu =>
    rw [mentionScan_none_last (forall_isNoBlank.1 hu), scannedNames, runs_of_forall hu]
    rfl
  | sep u d s hu hd ih =>
    obtain rfl := isNoBlank_eq_false.1 hd
    obtain ⟨w, ws, hws⟩ := List.exists_cons_of_ne_nil
      (List.splitOnP_ne_nil (fun c ↦ !isNoBlank c) s)
    rw [mentionScan_none_append (forall_isNoBlank.1 hu), ih, scannedNames, scannedNames,
      runs_run_cons hu hd]
    rw [runs, hws, List.dropLast_cons_of_ne_nil (List.cons_ne_nil w ws), List.filterMap_cons,
      List.getLast?_cons_cons]
    rcases behindAt u with - | name
    · rfl
    · rfl

end Scanner

end SplNet
