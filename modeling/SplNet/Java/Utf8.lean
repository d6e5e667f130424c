import SplNet.Java.Text

/-!
# Decoding UTF-8

`new String(bytes, StandardCharsets.UTF_8)`, which never fails: what is not well formed becomes
`U+FFFD`, once for each maximal start of a character (and once for a whole encoded surrogate).

What the rest needs of it is that **an ASCII byte is always a character of its own**
(`utf8Decode_append_cons`): no lead byte before it can swallow it. So text with ASCII separators can
be cut before or after it is decoded.
-/

namespace Java

/-- The replacement character. -/
def replacement : JChar := 0xFFFD

/-- A byte `10xxxxxx`. -/
def isContinuation (b : UInt8) : Bool := 0x80 ≤ b && b < 0xC0

/-- No three-byte character starts with these two bytes. -/
def isMalformed3 (b₁ b₂ : UInt8) : Bool := !isContinuation b₂ || (b₁ == 0xE0 && b₂ < 0xA0)

/-- No four-byte character starts with these two bytes. -/
def isMalformed4 (b₁ b₂ : UInt8) : Bool :=
  !isContinuation b₂ || 0xF4 < b₁ || (b₁ == 0xF0 && b₂ < 0x90) || (b₁ == 0xF4 && 0x90 ≤ b₂)

/-- The low six bits. -/
def tail6 (b : UInt8) : ℕ := b.toNat % 0x40

/-- The character of a three-byte sequence; encoded surrogates are replaced. -/
def char3 (b₁ b₂ b₃ : UInt8) : JChar :=
  let n := b₁.toNat % 0x10 * 0x1000 + tail6 b₂ * 0x40 + tail6 b₃
  if 0xD800 ≤ n ∧ n < 0xE000 then replacement else UInt16.ofNat n

/-- The two characters of a four-byte sequence. -/
def chars4 (b₁ b₂ b₃ b₄ : UInt8) : JString :=
  let n := b₁.toNat % 8 * 0x40000 + tail6 b₂ * 0x1000 + tail6 b₃ * 0x40 + tail6 b₄ - 0x10000
  [UInt16.ofNat (0xD800 + n / 0x400), UInt16.ofNat (0xDC00 + n % 0x400)]

/-- The characters for the sequence that starts with `b₁`, and how many of the bytes behind it
belong to the sequence. A sequence that is broken off is replaced up to the byte that breaks it. -/
def decodeHead (b₁ : UInt8) (bs : List UInt8) : JString × ℕ :=
  if b₁ < 0x80 then ([b₁.toUInt16], 0)
  else if 0xC2 ≤ b₁ ∧ b₁ < 0xE0 then
    match bs with
    | b₂ :: _ =>
      if isContinuation b₂ then ([UInt16.ofNat (b₁.toNat % 0x20 * 0x40 + tail6 b₂)], 1)
      else ([replacement], 0)
    | [] => ([replacement], 0)
  else if 0xE0 ≤ b₁ ∧ b₁ < 0xF0 then
    match bs with
    | b₂ :: bs =>
      if isMalformed3 b₁ b₂ then ([replacement], 0)
      else
        match bs with
        | b₃ :: _ => if isContinuation b₃ then ([char3 b₁ b₂ b₃], 2) else ([replacement], 1)
        | [] => ([replacement], 1)
    | [] => ([replacement], 0)
  else if 0xF0 ≤ b₁ ∧ b₁ < 0xF8 then
    match bs with
    | b₂ :: bs =>
      if isMalformed4 b₁ b₂ then ([replacement], 0)
      else
        match bs with
        | b₃ :: bs =>
          if isContinuation b₃ then
            match bs with
            | b₄ :: _ => if isContinuation b₄ then (chars4 b₁ b₂ b₃ b₄, 3) else ([replacement], 2)
            | [] => ([replacement], 2)
          else ([replacement], 1)
        | [] => ([replacement], 1)
    | [] => ([replacement], 0)
  else ([replacement], 0)

/-- The decoding loop; `skip` bytes of the last sequence are still to be passed over. -/
def utf8Loop (skip : ℕ) : List UInt8 → JString
  | [] => []
  | b :: bs =>
    if 0 < skip then utf8Loop (skip - 1) bs
    else (decodeHead b bs).1 ++ utf8Loop (decodeHead b bs).2 bs

/-- `new String(bytes, StandardCharsets.UTF_8)`. -/
def utf8Decode (bytes : List UInt8) : JString := utf8Loop 0 bytes

@[simp] theorem utf8Decode_nil : utf8Decode [] = [] := rfl

/-! ### ASCII -/

section Ascii

variable {c : UInt8}

theorem not_isContinuation (hc : c < 0x80) : isContinuation c = false := by
  have hle : ¬ 0x80 ≤ c := UInt8.not_le.2 hc
  simp [isContinuation, hle]

theorem isMalformed3_ascii (b : UInt8) (hc : c < 0x80) : isMalformed3 b c = true := by
  simp [isMalformed3, not_isContinuation hc]

theorem isMalformed4_ascii (b : UInt8) (hc : c < 0x80) : isMalformed4 b c = true := by
  simp [isMalformed4, not_isContinuation hc]

/-- A sequence ends before an ASCII byte as it ends at the end of the bytes. -/
theorem decodeHead_append (hc : c < 0x80) (b : UInt8) (x y : List UInt8) :
    decodeHead b (x ++ c :: y) = decodeHead b x := by
  have hcont := not_isContinuation hc
  have h3 := isMalformed3_ascii b hc
  have h4 := isMalformed4_ascii b hc
  rcases x with - | ⟨b₂, - | ⟨b₃, - | ⟨b₄, x⟩⟩⟩
  all_goals simp [decodeHead, hcont, h3, h4]

/-- A sequence ends where the bytes end. -/
theorem decodeHead_le (b : UInt8) (x : List UInt8) : (decodeHead b x).2 ≤ x.length := by
  rcases x with - | ⟨b₂, - | ⟨b₃, - | ⟨b₄, x⟩⟩⟩
  all_goals
    simp only [decodeHead]
    split_ifs <;> simp

theorem utf8Loop_append_cons (hc : c < 0x80) {skip : ℕ} {a : List UInt8} (hskip : skip ≤ a.length)
    (b : List UInt8) :
    utf8Loop skip (a ++ c :: b) = utf8Loop skip a ++ c.toUInt16 :: utf8Decode b := by
  induction a generalizing skip with
  | nil =>
    obtain rfl : skip = 0 := Nat.le_zero.1 hskip
    simp [utf8Loop, decodeHead, hc, utf8Decode]
  | cons x a ih =>
    rw [List.cons_append, utf8Loop, utf8Loop]
    by_cases hpos : 0 < skip
    · rw [if_pos hpos, if_pos hpos]
      exact ih (by rw [List.length_cons] at hskip; omega)
    · rw [if_neg hpos, if_neg hpos, decodeHead_append hc, ih (decodeHead_le x a), List.append_assoc]

/-- **An ASCII byte is a character of its own**, whatever is before it. -/
theorem utf8Decode_append_cons (hc : c < 0x80) (a b : List UInt8) :
    utf8Decode (a ++ c :: b) = utf8Decode a ++ c.toUInt16 :: utf8Decode b :=
  utf8Loop_append_cons hc (Nat.zero_le _) b

theorem utf8Decode_ascii_append {a : List UInt8} (ha : ∀ c ∈ a, c < 0x80) (b : List UInt8) :
    utf8Decode (a ++ b) = a.map UInt8.toUInt16 ++ utf8Decode b := by
  induction a with
  | nil => rfl
  | cons c a ih =>
    rw [List.cons_append, ← List.nil_append (c :: (a ++ b)),
      utf8Decode_append_cons (ha c List.mem_cons_self),
      ih fun c hc ↦ ha c (List.mem_cons_of_mem _ hc)]
    rfl

/-- ASCII bytes are their characters. -/
theorem utf8Decode_ascii {a : List UInt8} (ha : ∀ c ∈ a, c < 0x80) :
    utf8Decode a = a.map UInt8.toUInt16 := by
  have h := utf8Decode_ascii_append ha []
  simpa using h

end Ascii

/-- There is a text behind every byte that starts a sequence. -/
theorem decodeHead_ne_nil (b : UInt8) (x : List UInt8) : (decodeHead b x).1 ≠ [] := by
  rcases x with - | ⟨b₂, - | ⟨b₃, - | ⟨b₄, x⟩⟩⟩
  all_goals
    simp only [decodeHead]
    split_ifs <;> simp [chars4]

/-- Only no bytes have no text. -/
theorem utf8Decode_ne_nil {a : List UInt8} (ha : a ≠ []) : utf8Decode a ≠ [] := by
  obtain ⟨b, a, rfl⟩ := List.exists_cons_of_ne_nil ha
  rw [utf8Decode, utf8Loop, if_neg (Nat.lt_irrefl 0)]
  exact List.append_ne_nil_of_left_ne_nil (decodeHead_ne_nil b a) _

/-! ### Where the ASCII characters come from -/

section Origin

theorem le_toNat_ofNat {n : ℕ} (hle : 0x80 ≤ n) (hlt : n < 0x10000) :
    0x80 ≤ (UInt16.ofNat n).toNat := by
  rw [UInt16.toNat_ofNat_of_lt' hlt]
  exact hle

theorem tail6_lt (b : UInt8) : tail6 b < 0x40 := Nat.mod_lt _ (by decide)

theorem le_char3 {b₁ b₂ : UInt8} (b₃ : UInt8) (hb : 0xE0 ≤ b₁ ∧ b₁ < 0xF0)
    (h : isMalformed3 b₁ b₂ = false) : 0x80 ≤ (char3 b₁ b₂ b₃).toNat := by
  have h₂ := tail6_lt b₂
  have h₃ := tail6_lt b₃
  simp only [isMalformed3, isContinuation, Bool.or_eq_false_iff, Bool.not_eq_false',
    Bool.and_eq_true, Bool.and_eq_false_iff, decide_eq_true_eq, decide_eq_false_iff_not,
    beq_eq_false_iff_ne, UInt8.le_iff_toNat_le, UInt8.lt_iff_toNat_lt, ne_eq,
    ← UInt8.toNat_inj] at h hb
  rw [char3]
  split
  · decide
  · refine le_toNat_ofNat ?_ ?_
    all_goals
      simp only [tail6] at h₂ h₃ ⊢
      simp at h hb
      omega

theorem le_of_mem_chars4 {b₁ b₂ b₃ b₄ : UInt8} {c : JChar} (hc : c ∈ chars4 b₁ b₂ b₃ b₄) :
    0x80 ≤ c.toNat := by
  have h₁ : b₁.toNat % 8 < 8 := Nat.mod_lt _ (by decide)
  have h₂ := tail6_lt b₂
  have h₃ := tail6_lt b₃
  have h₄ := tail6_lt b₄
  simp only [chars4, List.mem_cons, List.not_mem_nil, or_false] at hc
  rcases hc with rfl | rfl
  · exact le_toNat_ofNat (by omega) (by omega)
  · exact le_toNat_ofNat (by omega) (by omega)

/-- A sequence has no ASCII character, or it is one. -/
theorem eq_of_mem_decodeHead {b : UInt8} {x : List UInt8} {c : JChar}
    (hc : c ∈ (decodeHead b x).1) : 0x80 ≤ c.toNat ∨ c = b.toUInt16 := by
  have hsingle : ∀ {c' : JChar} {n : ℕ}, 0x80 ≤ c'.toNat → c ∈ (([c'], n) : JString × ℕ).1 →
      0x80 ≤ c.toNat ∨ c = b.toUInt16 := fun hle hmem ↦
    .inl (List.mem_singleton.1 hmem ▸ hle)
  have hrepl : ∀ n, c ∈ (([replacement], n) : JString × ℕ).1 →
      0x80 ≤ c.toNat ∨ c = b.toUInt16 := fun n ↦ hsingle (by decide)
  rw [decodeHead.eq_def] at hc
  split at hc
  case isTrue => exact .inr (List.mem_singleton.1 hc)
  split at hc
  case isTrue h =>
    split at hc
    · split at hc
      · rename_i b₂ _ _
        have h₂ := tail6_lt b₂
        refine hsingle (le_toNat_ofNat ?_ ?_) hc
        all_goals
          simp [UInt8.le_iff_toNat_le, UInt8.lt_iff_toNat_lt] at h
          omega
      · exact hrepl _ hc
    · exact hrepl _ hc
  split at hc
  case isTrue h =>
    split at hc
    · split at hc
      · exact hrepl _ hc
      · rename_i hmalformed
        split at hc
        · split at hc
          · exact hsingle (le_char3 _ h (by simpa using hmalformed)) hc
          · exact hrepl _ hc
        · exact hrepl _ hc
    · exact hrepl _ hc
  split at hc
  · repeat' split at hc
    all_goals first | exact hrepl _ hc | exact .inl (le_of_mem_chars4 hc)
  · exact hrepl _ hc

theorem exists_of_mem_utf8Loop {a : List UInt8} {skip : ℕ} {c : JChar} (hascii : c.toNat < 0x80)
    (hc : c ∈ utf8Loop skip a) : ∃ b ∈ a, c = b.toUInt16 := by
  induction a generalizing skip with
  | nil => exact absurd hc List.not_mem_nil
  | cons b a ih =>
    have hrest : ∀ {skip}, c ∈ utf8Loop skip a → ∃ b' ∈ b :: a, c = b'.toUInt16 := by
      intro skip hmem
      obtain ⟨b', hb', heq⟩ := ih hmem
      exact ⟨b', List.mem_cons_of_mem b hb', heq⟩
    rw [utf8Loop] at hc
    split at hc
    case isTrue => exact hrest hc
    case isFalse =>
      rcases List.mem_append.1 hc with hhead | hmem
      · rcases eq_of_mem_decodeHead hhead with hle | heq
        · exact absurd hascii (Nat.not_lt.2 hle)
        · exact ⟨b, List.mem_cons_self, heq⟩
      · exact hrest hmem

/-- **An ASCII character of the text is a byte.** -/
theorem not_mem_utf8Decode {a : List UInt8} {b : UInt8} (hb : b < 0x80) (ha : b ∉ a) :
    b.toUInt16 ∉ utf8Decode a := by
  intro hmem
  have hascii : b.toUInt16.toNat < 0x80 := by
    rw [UInt8.toNat_toUInt16]
    exact UInt8.lt_iff_toNat_lt.1 hb
  obtain ⟨b', hb', heq⟩ := exists_of_mem_utf8Loop hascii hmem
  have hn := congrArg UInt16.toNat heq
  rw [UInt8.toNat_toUInt16, UInt8.toNat_toUInt16] at hn
  exact ha (UInt8.toNat_inj.1 hn ▸ hb')

/-- Bytes without `0` have no `\0` in their text. -/
theorem nul_not_mem_utf8Decode {a : List UInt8} (ha : 0 ∉ a) : nul ∉ utf8Decode a :=
  not_mem_utf8Decode (b := 0) (by decide) ha

end Origin

end Java
