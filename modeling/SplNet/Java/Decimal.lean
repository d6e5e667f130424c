import SplNet.Java.Text

/-!
# Decimal numbers

A number that is written by string concatenation (`decimal`) and read back by `parseInt` or
`parseShort`: **the result is the number** if it is in range (`parseSigned_decimal`). A written
number is not empty and has no blank and no line break in it, so it is one piece of a text that is
split at these.
-/

namespace Java

/-! ### Writing -/

theorem decimal_natCast (n : ℕ) : decimal n = (Nat.toDigits 10 n).map char := by
  have hdigits : (toString (n : ℤ)).toList = Nat.toDigits 10 n := by
    simp [Int.toString_eq_repr, Int.repr_eq_if]
  rw [decimal, str, hdigits]

theorem decimal_negSucc (n : ℕ) :
    decimal (Int.negSucc n) = char '-' :: (Nat.toDigits 10 (n + 1)).map char := by
  have hdigits : (toString (Int.negSucc n)).toList = '-' :: Nat.toDigits 10 (n + 1) := by
    simp [Int.toString_eq_repr, Int.repr_eq_if]
  rw [decimal, str, hdigits, List.map_cons]

theorem toNat_char {c : Char} (h : c.isDigit) : 0x30 ≤ c.toNat ∧ c.toNat < 0x3A ∧
    (char c).toNat = c.toNat := by
  have hrange : 0x30 ≤ c.toNat ∧ c.toNat ≤ 0x39 := by
    simp only [Char.isDigit, Bool.and_eq_true, decide_eq_true_eq] at h
    exact h
  refine ⟨hrange.1, by omega, ?_⟩
  rw [char, UInt16.toNat_ofNat_of_lt' (lt_of_le_of_lt hrange.2 (by decide))]

/-- The characters a number is written with. -/
theorem mem_decimal {n : ℤ} {c : JChar} (h : c ∈ decimal n) :
    c = char '-' ∨ 0x30 ≤ c.toNat ∧ c.toNat < 0x3A := by
  have hdigits : ∀ {m : ℕ}, c ∈ (Nat.toDigits 10 m).map char → 0x30 ≤ c.toNat ∧ c.toNat < 0x3A := by
    intro m hc
    obtain ⟨d, hd, rfl⟩ := List.mem_map.1 hc
    obtain ⟨hle, hlt, heq⟩ := toNat_char (Nat.isDigit_of_mem_toDigits (by decide) le_rfl hd)
    rw [heq]
    exact ⟨hle, hlt⟩
  cases n with
  | ofNat n =>
    rw [Int.ofNat_eq_natCast, decimal_natCast] at h
    exact .inr (hdigits h)
  | negSucc n =>
    rw [decimal_negSucc] at h
    exact (List.mem_cons.1 h).imp_right hdigits

theorem not_mem_decimal {d : JChar} (hminus : d ≠ char '-') (hdigit : d.toNat < 0x30) (n : ℤ) :
    d ∉ decimal n := by
  intro h
  rcases mem_decimal h with heq | ⟨hle, -⟩
  · exact hminus heq
  · omega

theorem decimal_ne_nil (n : ℤ) : decimal n ≠ [] := by
  cases n with
  | ofNat n =>
    rw [Int.ofNat_eq_natCast, decimal_natCast, ne_eq, List.map_eq_nil_iff]
    exact Nat.toDigits_ne_nil
  | negSucc n =>
    rw [decimal_negSucc]
    exact List.cons_ne_nil _ _

/-! ### Reading -/

theorem digit_char {c : Char} (h : c.isDigit) : digit (char c) = some (c.toNat - 0x30) := by
  obtain ⟨hle, hlt, heq⟩ := toNat_char h
  have hzero : decimalZeros.find? (fun z ↦ z ≤ (char c).toNat && (char c).toNat < z + 10) =
      some 0x30 := by
    rw [decimalZeros, List.find?_cons_of_pos]
    simp only [heq, Bool.and_eq_true, decide_eq_true_eq]
    omega
  rw [digit, hzero, heq]
  rfl

theorem foldlM_digits {l : List Char} (h : ∀ c ∈ l, c.isDigit) (init : ℕ) :
    (l.map char).foldlM (fun n d ↦ (digit d).map (10 * n + ·)) init =
      some (Nat.ofDigitChars 10 l init) := by
  induction l generalizing init with
  | nil => rfl
  | cons c l ih =>
    rw [List.map_cons, List.foldlM_cons, digit_char (h c List.mem_cons_self), Nat.ofDigitChars_cons]
    exact ih (fun d hd ↦ h d (List.mem_cons_of_mem c hd)) _

theorem parseDigits_toDigits (n : ℕ) : parseDigits ((Nat.toDigits 10 n).map char) = some n := by
  have hdigits : ∀ c ∈ Nat.toDigits 10 n, c.isDigit := fun c hc ↦
    Nat.isDigit_of_mem_toDigits (by decide) le_rfl hc
  rcases hlist : Nat.toDigits 10 n with - | ⟨c, cs⟩
  · exact absurd hlist Nat.toDigits_ne_nil
  · rw [List.map_cons, parseDigits, ← List.map_cons, ← hlist, foldlM_digits hdigits,
      Nat.ofDigitChars_ten_toDigits]

theorem parseDecimal_decimal (n : ℤ) : parseDecimal (decimal n) = some n := by
  cases n with
  | ofNat n =>
    rw [Int.ofNat_eq_natCast, decimal_natCast]
    rcases hlist : Nat.toDigits 10 n with - | ⟨c, cs⟩
    · exact absurd hlist Nat.toDigits_ne_nil
    · have hdigit : c.isDigit :=
        Nat.isDigit_of_mem_toDigits (b := 10) (n := n) (by decide) le_rfl (by simp [hlist])
      obtain ⟨hle, -, heq⟩ := toNat_char hdigit
      have hminus : char c ≠ char '-' := fun h ↦ by
        rw [h] at heq
        exact absurd (heq ▸ hle) (by decide)
      have hplus : char c ≠ char '+' := fun h ↦ by
        rw [h] at heq
        exact absurd (heq ▸ hle) (by decide)
      rw [List.map_cons, parseDecimal, if_neg hminus, if_neg hplus, ← List.map_cons, ← hlist,
        parseDigits_toDigits]
      rfl
  | negSucc n =>
    rw [decimal_negSucc, parseDecimal, if_pos rfl, parseDigits_toDigits]
    rfl

/-- **A written number is read back.** -/
theorem parseSigned_decimal {bound n : ℤ} (h : -bound ≤ n ∧ n < bound) :
    parseSigned bound (decimal n) = .ok n := by
  simp only [parseSigned, parseDecimal_decimal, if_pos h]

end Java
