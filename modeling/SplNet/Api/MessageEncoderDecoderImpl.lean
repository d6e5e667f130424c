import SplNet.Java.Text
import SplNet.Java.Utf8

/-!
# Encoding and decoding a message

`MessageEncoderDecoderImpl.encode`. Every message but the two statistics acknowledgements is sent
as its UTF-8 text followed by `';'`. A message starting with `1007` or `1008` is parsed back into
numbers and written into a zeroed array of `1 << 16` bytes, **all** of which is the result; parsing
can fail, which is the only way an encoding throws on the messages the server builds
(`encode_isOk`).

`MessageEncoderDecoderImpl.decodeNextByte` collects bytes up to a `';'` in an array that is doubled
when it is full. The doubled length is an `int`, so a frame of more than `1 << 30` bytes throws
(`Decoder.pushByte_eq`).
-/

namespace SplNet

open Java

/-- `getBytes(StandardCharsets.UTF_8)`: surrogate pairs become four bytes, an unpaired surrogate
becomes `'?'`. -/
def utf8Bytes : JString → List UInt8
  | [] => []
  | c :: cs =>
    let n := c.toNat
    if n < 0x80 then UInt8.ofNat n :: utf8Bytes cs
    else if n < 0x800 then
      UInt8.ofNat (0xC0 + n / 0x40) :: UInt8.ofNat (0x80 + n % 0x40) :: utf8Bytes cs
    else if 0xD800 ≤ n ∧ n < 0xE000 then
      match cs with
      | [] => [0x3F]
      | d :: ds =>
        if n < 0xDC00 ∧ 0xDC00 ≤ d.toNat ∧ d.toNat < 0xE000 then
          let m := 0x10000 + (n - 0xD800) * 0x400 + (d.toNat - 0xDC00)
          UInt8.ofNat (0xF0 + m / 0x40000) :: UInt8.ofNat (0x80 + m / 0x1000 % 0x40) ::
            UInt8.ofNat (0x80 + m / 0x40 % 0x40) :: UInt8.ofNat (0x80 + m % 0x40) :: utf8Bytes ds
        else 0x3F :: utf8Bytes (d :: ds)
    else
      UInt8.ofNat (0xE0 + n / 0x1000) :: UInt8.ofNat (0x80 + n / 0x40 % 0x40) ::
        UInt8.ofNat (0x80 + n % 0x40) :: utf8Bytes cs

/-- An ASCII character is one byte. -/
theorem utf8Bytes_cons_ascii {c : JChar} (hc : c.toNat < 0x80) (s : JString) :
    utf8Bytes (c :: s) = UInt8.ofNat c.toNat :: utf8Bytes s := by
  rw [utf8Bytes.eq_def]
  simp only [hc, if_true]

theorem utf8Bytes_ascii_append {a : JString} (ha : ∀ c ∈ a, c.toNat < 0x80) (b : JString) :
    utf8Bytes (a ++ b) = a.map (fun c ↦ UInt8.ofNat c.toNat) ++ utf8Bytes b := by
  induction a with
  | nil => rfl
  | cons c a ih =>
    rw [List.cons_append, utf8Bytes_cons_ascii (ha c List.mem_cons_self),
      ih fun c hc ↦ ha c (List.mem_cons_of_mem _ hc)]
    rfl

/-- **An ASCII character is encoded by itself**, whatever is before it. -/
theorem utf8Bytes_append_cons {c : JChar} (hc : c.toNat < 0x80) (a b : JString) :
    utf8Bytes (a ++ c :: b) = utf8Bytes a ++ UInt8.ofNat c.toNat :: utf8Bytes b := by
  fun_induction utf8Bytes a with
  | case1 => exact utf8Bytes_cons_ascii hc b
  | case2 c' cs n h ih =>
    rw [List.cons_append, utf8Bytes_cons_ascii h, ih, List.cons_append]
  | case3 c' cs n h₁ h₂ ih =>
    rw [List.cons_append, utf8Bytes.eq_def]
    simp only [n, h₁, h₂, if_false, if_true, ih, List.cons_append]
  | case4 c' n h₁ h₂ h₃ =>
    -- an unpaired surrogate stays unpaired
    have hpair : ¬ (n < 0xDC00 ∧ 0xDC00 ≤ c.toNat ∧ c.toNat < 0xE000) := by omega
    rw [List.cons_append, utf8Bytes.eq_def]
    simp only [n, h₁, h₂, h₃, hpair, if_false, and_self, if_true, List.nil_append,
      List.cons_append, utf8Bytes_cons_ascii hc]
  | case5 c' n h₁ h₂ h₃ d ds h₄ m ih =>
    rw [List.cons_append, List.cons_append, utf8Bytes.eq_def]
    simp only [n, m, h₁, h₂, h₃, h₄, if_false, and_self, if_true, ih, List.cons_append]
  | case6 c' n h₁ h₂ h₃ d ds h₄ ih =>
    rw [List.cons_append] at ih
    rw [List.cons_append, List.cons_append, utf8Bytes.eq_def]
    simp only [n, h₁, h₂, h₃, h₄, if_false, and_self, if_true, ih, List.cons_append]
  | case7 c' cs n h₁ h₂ h₃ ih =>
    rw [List.cons_append, utf8Bytes.eq_def]
    simp only [n, h₁, h₂, h₃, if_false, ih, List.cons_append]

theorem zero_ne_ofNat {n : ℕ} (hpos : 0 < n) (hlt : n < 0x100) : 0 ≠ UInt8.ofNat n := by
  intro h
  have hn := congrArg UInt8.toNat h
  rw [UInt8.toNat_ofNat_of_lt' hlt] at hn
  exact absurd hn.symm hpos.ne'

/-- Text without `\0` has no byte `0`. -/
theorem zero_not_mem_utf8Bytes {s : JString} (hs : nul ∉ s) : 0 ∉ utf8Bytes s := by
  fun_induction utf8Bytes s with
  | case1 => exact List.not_mem_nil
  | case2 c cs n h ih =>
    rw [List.mem_cons, not_or] at hs
    have hpos : 0 < c.toNat := by
      rw [Nat.pos_iff_ne_zero]
      exact fun h0 ↦ hs.1 (UInt16.toNat_inj.1 h0).symm
    rw [List.mem_cons, not_or]
    exact ⟨zero_ne_ofNat hpos (by omega), ih hs.2⟩
  | case3 c cs n h₁ h₂ ih =>
    rw [List.mem_cons, not_or] at hs
    simp only [List.mem_cons, not_or]
    exact ⟨zero_ne_ofNat (by omega) (by omega), zero_ne_ofNat (by omega) (by omega), ih hs.2⟩
  | case4 => decide
  | case5 c n h₁ h₂ h₃ d ds h₄ m ih =>
    simp only [List.mem_cons, not_or] at hs ⊢
    refine ⟨zero_ne_ofNat ?_ ?_, zero_ne_ofNat ?_ ?_, zero_ne_ofNat ?_ ?_, zero_ne_ofNat ?_ ?_,
      ih hs.2.2⟩
    all_goals omega
  | case6 c n h₁ h₂ h₃ d ds h₄ ih =>
    rw [List.mem_cons, not_or] at hs
    rw [List.mem_cons, not_or]
    exact ⟨by decide, ih hs.2⟩
  | case7 c cs n h₁ h₂ h₃ ih =>
    rw [List.mem_cons, not_or] at hs
    have hlt : n < 0x10000 := c.toNat_lt
    simp only [List.mem_cons, not_or]
    refine ⟨zero_ne_ofNat ?_ ?_, zero_ne_ofNat ?_ ?_, zero_ne_ofNat ?_ ?_, ih hs.2⟩
    all_goals omega

/-- `shortToBytes`: the two bytes of a short, high byte first. -/
def shortToBytes (num : ℤ) : List UInt8 :=
  [UInt8.ofNat (num / 0x100 % 0x100).toNat, UInt8.ofNat (num % 0x100).toNat]

/-- The eight bytes of one user's statistics. -/
def statBytes (s : JString) : Except JException (List UInt8) := do
  let content := split s space
  let age ← parseShort (← arrayGet content 0)
  let numOfPosts ← parseShort (← arrayGet content 1)
  let numOfFollowers ← parseShort (← arrayGet content 2)
  let numOfFollowing ← parseShort (← arrayGet content 3)
  return shortToBytes age ++ shortToBytes numOfPosts ++ shortToBytes numOfFollowers ++
    shortToBytes numOfFollowing

/-- The length of the array `encode` writes statistics into. -/
def statArrayLength : ℕ := 1 <<< 16

/-- `MessageEncoderDecoderImpl.encode`. -/
def encode (message : JString) : Except JException (List UInt8) := do
  let optCode ← substring message 0 4
  if optCode = str "1007" ∨ optCode = str "1008" then
    let users := split (message.drop 4) (char '\n')
    let records ← users.mapM statBytes
    let written := optCode.map (fun c ↦ UInt8.ofNat c.toNat) ++ records.flatten ++ [0x3B]
    -- the rest of the array is sent too
    if written.length ≤ statArrayLength then
      return written ++ List.replicate (statArrayLength - written.length) 0
    else throw .arrayIndexOutOfBounds
  else return utf8Bytes (message ++ str ";")

/-- A message of at least four characters that is no statistics acknowledgement is encoded. -/
theorem encode_isOk {message : JString} (hlen : 4 ≤ message.length)
    (h7 : message.take 4 ≠ str "1007") (h8 : message.take 4 ≠ str "1008") :
    encode message = .ok (utf8Bytes (message ++ str ";")) := by
  have hsub : substring message 0 4 = .ok (message.take 4) := by
    rw [substring, if_pos ⟨by omega, by omega, by omega⟩]
    rfl
  have hcond : ¬ (message.take 4 = str "1007" ∨ message.take 4 = str "1008") := by
    rintro (h | h)
    · exact h7 h
    · exact h8 h
  rw [encode, hsub]
  show (if message.take 4 = str "1007" ∨ message.take 4 = str "1008" then _ else _) = _
  rw [if_neg hcond]
  rfl

/-! ### Decoding -/

/-- The fields of `MessageEncoderDecoderImpl`: the first `len` bytes of the array, and its
length. -/
structure Decoder where
  bytes : List UInt8
  capacity : ℕ
deriving DecidableEq

namespace Decoder

/-- `new MessageEncoderDecoderImpl()`. -/
def new : Decoder := ⟨[], 0x400⟩

/-- The largest frame: `1 << 30` bytes. -/
def frameLimit : ℕ := 0x40000000

/-- `pushByte`. A full array is copied into one of twice the length, which throws when that length
is no `int`. -/
def pushByte (d : Decoder) (nextByte : UInt8) : Option Decoder :=
  if d.bytes.length < d.capacity then some { d with bytes := d.bytes ++ [nextByte] }
  else if d.bytes.length * 2 < 0x80000000 then
    some ⟨d.bytes ++ [nextByte], d.bytes.length * 2⟩
  else none

/-- The byte `';'`. -/
def semicolon : UInt8 := 0x3B

/-- `decodeNextByte`: the decoder afterwards and the message that is complete, if any. `none` is the
exception of `pushByte`, which leaves the decoder as it was. -/
def decodeNextByte (d : Decoder) (nextByte : UInt8) : Option (Decoder × Option JString) :=
  if nextByte = semicolon then some ({ d with bytes := [] }, some (utf8Decode d.bytes))
  else (d.pushByte nextByte).map fun d ↦ (d, none)

/-- The array has been doubled some number of times and holds the bytes. -/
structure WellSized (d : Decoder) : Prop where
  fits : d.bytes.length ≤ d.capacity
  doubled : ∃ k ≤ 20, d.capacity = 0x400 <<< k

theorem wellSized_new : WellSized new := ⟨Nat.zero_le _, 0, by decide, rfl⟩

variable {d : Decoder}

/-- The array never has more than `1 << 30` bytes. -/
theorem WellSized.capacity_le (h : d.WellSized) : d.capacity ≤ frameLimit := by
  obtain ⟨k, hk, hcapacity⟩ := h.doubled
  rw [hcapacity, Nat.shiftLeft_eq]
  exact Nat.mul_le_mul_left _ (Nat.pow_le_pow_right (by decide) hk)

theorem pushByte_eq (h : d.WellSized) (b : UInt8) :
    (d.bytes.length < frameLimit → ∃ d', d.pushByte b = some d' ∧ d'.WellSized ∧
        d'.bytes = d.bytes ++ [b]) ∧
      (frameLimit ≤ d.bytes.length → d.pushByte b = none) := by
  obtain ⟨k, hk, hcapacity⟩ := h.doubled
  have hfits := h.fits
  have hlimit := h.capacity_le
  rw [pushByte]
  split
  case isTrue hlt =>
    refine ⟨fun _ ↦ ⟨_, rfl, ⟨?_, k, hk, hcapacity⟩, rfl⟩, fun hle ↦ ?_⟩
    · rw [List.length_append, List.length_singleton]
      exact hlt
    · omega
  case isFalse hfull =>
    have hlen : d.bytes.length = d.capacity := by omega
    split
    case isTrue hint =>
      refine ⟨fun hlt ↦ ⟨_, rfl, ⟨?_, k + 1, ?_, ?_⟩, rfl⟩, fun hle ↦ ?_⟩
      · have hpos : 0 < d.capacity := by
          rw [hcapacity, Nat.shiftLeft_eq]
          exact Nat.mul_pos (by decide) (Nat.pow_pos (by decide))
        show (d.bytes ++ [b]).length ≤ d.bytes.length * 2
        rw [List.length_append, List.length_singleton]
        omega
      · -- the array is not the largest one yet
        have hne : k ≠ 20 := by
          rintro rfl
          rw [hlen, hcapacity] at hlt
          exact absurd hlt (by decide)
        omega
      · show d.bytes.length * 2 = 0x400 <<< (k + 1)
        rw [hlen, hcapacity, Nat.shiftLeft_eq, Nat.shiftLeft_eq, Nat.pow_succ, Nat.mul_assoc]
      · rw [frameLimit] at hle
        omega
    case isFalse hint =>
      refine ⟨fun hlt ↦ ?_, fun _ ↦ rfl⟩
      rw [frameLimit] at hlt
      omega

/-- What a byte does: the `';'` ends the frame, any other byte is collected. -/
theorem decodeNextByte_cases {d d' : Decoder} {b : UInt8} {message : Option JString}
    (h : d.decodeNextByte b = some (d', message)) :
    (b = semicolon ∧ d' = { d with bytes := [] } ∧ message = some (utf8Decode d.bytes)) ∨
      (b ≠ semicolon ∧ d.pushByte b = some d' ∧ message = none) := by
  rw [decodeNextByte] at h
  split at h
  case isTrue hsemicolon =>
    obtain ⟨rfl, rfl⟩ := Prod.mk.inj (Option.some.inj h)
    exact Or.inl ⟨hsemicolon, rfl, rfl⟩
  case isFalse hne =>
    obtain ⟨d₁, hpush, heq⟩ := Option.map_eq_some_iff.1 h
    obtain ⟨rfl, rfl⟩ := Prod.mk.inj heq
    exact Or.inr ⟨hne, hpush, rfl⟩

/-! ### Frames -/

/-- The decoder and the messages after some bytes, read one after the other. -/
def decodeBytes (d : Decoder) : List UInt8 → Option (Decoder × List JString)
  | [] => some (d, [])
  | b :: bs =>
    match d.decodeNextByte b with
    | some (d', message) =>
      (decodeBytes d' bs).map fun (d'', messages) ↦ (d'', message.toList ++ messages)
    | none => none

/-- The first byte of several is decoded before the others. -/
theorem decodeBytes_cons_eq_some {d d' : Decoder} {b : UInt8} {bs : List UInt8} {ms : List JString}
    (h : d.decodeBytes (b :: bs) = some (d', ms)) :
    ∃ d₁ message ms', d.decodeNextByte b = some (d₁, message) ∧
      d₁.decodeBytes bs = some (d', ms') ∧ ms = message.toList ++ ms' := by
  rw [decodeBytes] at h
  rcases hb : d.decodeNextByte b with - | ⟨d₁, message⟩
  · rw [hb] at h
    exact absurd h (by simp)
  · rw [hb] at h
    obtain ⟨⟨d₂, ms'⟩, hrest, heq⟩ := Option.map_eq_some_iff.1 h
    obtain ⟨rfl, rfl⟩ := Prod.mk.inj heq
    exact ⟨d₁, message, ms', rfl, hrest, rfl⟩

theorem decodeBytes_append {d d' d'' : Decoder} {xs ys : List UInt8} {ms ms' : List JString}
    (hxs : d.decodeBytes xs = some (d', ms)) (hys : d'.decodeBytes ys = some (d'', ms')) :
    d.decodeBytes (xs ++ ys) = some (d'', ms ++ ms') := by
  induction xs generalizing d ms with
  | nil =>
    obtain ⟨rfl, rfl⟩ := Prod.mk.inj (Option.some.inj hxs)
    exact hys
  | cons b xs ih =>
    obtain ⟨d₁, message, ms₂, hb, hrest, rfl⟩ := decodeBytes_cons_eq_some hxs
    rw [List.cons_append, decodeBytes]
    simp only [hb, ih hrest, Option.map_some, List.append_assoc]

/-- The bytes of a frame are collected. -/
theorem decodeBytes_of_not_mem (h : d.WellSized) {frame : List UInt8} (hframe : semicolon ∉ frame)
    (hlen : d.bytes.length + frame.length ≤ frameLimit) :
    ∃ d', d.decodeBytes frame = some (d', []) ∧ d'.WellSized ∧ d'.bytes = d.bytes ++ frame := by
  induction frame generalizing d with
  | nil => exact ⟨d, rfl, h, (List.append_nil _).symm⟩
  | cons b frame ih =>
    rw [List.mem_cons, not_or] at hframe
    rw [List.length_cons] at hlen
    obtain ⟨d₁, hpush, hsize, hbytes⟩ := (pushByte_eq h b).1 (by omega)
    obtain ⟨d₂, hrest, hsize₂, hbytes₂⟩ := ih hsize hframe.2 (by
      rw [hbytes, List.length_append, List.length_singleton]
      omega)
    refine ⟨d₂, ?_, hsize₂, by rw [hbytes₂, hbytes, List.append_assoc, List.singleton_append]⟩
    rw [decodeBytes, decodeNextByte, if_neg (Ne.symm hframe.1), hpush]
    simp [hrest]

/-- What is decoded whole is decoded in two parts. -/
theorem exists_decodeBytes_append {d d'' : Decoder} {xs ys : List UInt8} {ms : List JString}
    (h : d.decodeBytes (xs ++ ys) = some (d'', ms)) :
    ∃ d' ms₁ ms₂, d.decodeBytes xs = some (d', ms₁) ∧ d'.decodeBytes ys = some (d'', ms₂) ∧
      ms = ms₁ ++ ms₂ := by
  induction xs generalizing d ms with
  | nil => exact ⟨d, [], ms, rfl, h, rfl⟩
  | cons b xs ih =>
    obtain ⟨d₁, message, ms', hb, hrest, rfl⟩ := decodeBytes_cons_eq_some h
    obtain ⟨d', ms₁, ms₂, hxs, hys, rfl⟩ := ih hrest
    refine ⟨d', message.toList ++ ms₁, ms₂, ?_, hys, (List.append_assoc _ _ _).symm⟩
    simp only [decodeBytes, hb, hxs, Option.map_some]

theorem decodeBytes_singleton {d d' : Decoder} {b : UInt8} {message : Option JString}
    (h : d.decodeNextByte b = some (d', message)) :
    d.decodeBytes [b] = some (d', message.toList) := by
  simp [decodeBytes, h]

theorem decodeBytes_append_of_none {d d' : Decoder} {xs ys : List UInt8} {ms : List JString}
    (hxs : d.decodeBytes xs = some (d', ms)) (hys : d'.decodeBytes ys = none) :
    d.decodeBytes (xs ++ ys) = none := by
  induction xs generalizing d ms with
  | nil =>
    obtain ⟨rfl, rfl⟩ := Prod.mk.inj (Option.some.inj hxs)
    exact hys
  | cons b xs ih =>
    obtain ⟨d₁, message, ms₂, hb, hrest, -⟩ := decodeBytes_cons_eq_some hxs
    rw [List.cons_append, decodeBytes]
    simp only [hb, ih hrest, Option.map_none]

/-- **A frame over the limit throws**, whatever comes behind it. -/
theorem decodeBytes_of_too_long (h : d.WellSized) {frame : List UInt8} (hframe : semicolon ∉ frame)
    (hlen : frameLimit < d.bytes.length + frame.length) (rest : List UInt8) :
    d.decodeBytes (frame ++ rest) = none := by
  have hfits : d.bytes.length ≤ frameLimit := h.fits.trans h.capacity_le
  -- the first byte that does not fit
  have hroom : frameLimit - d.bytes.length < frame.length := by omega
  have htaken : semicolon ∉ frame.take (frameLimit - d.bytes.length) :=
    fun hmem ↦ hframe (List.mem_of_mem_take hmem)
  obtain ⟨d₁, hbytes, hsize, hcollected⟩ := decodeBytes_of_not_mem h htaken (by
    rw [List.length_take]
    omega)
  have hfull : frameLimit ≤ d₁.bytes.length := by
    rw [hcollected, List.length_append, List.length_take]
    omega
  rw [← List.take_append_drop (frameLimit - d.bytes.length) frame, List.append_assoc]
  refine decodeBytes_append_of_none hbytes ?_
  rw [List.drop_eq_getElem_cons hroom, List.cons_append, decodeBytes, decodeNextByte, if_neg,
    (pushByte_eq hsize _).2 hfull]
  · rfl
  · exact fun heq ↦ hframe (heq ▸ List.getElem_mem hroom)

/-- **A frame and its `';'` are one message.** -/
theorem decodeBytes_frame (h : d.WellSized) (hempty : d.bytes = []) {frame : List UInt8}
    (hframe : semicolon ∉ frame) (hlen : frame.length ≤ frameLimit) :
    ∃ d', d.decodeBytes (frame ++ [semicolon]) = some (d', [utf8Decode frame]) ∧ d'.WellSized ∧
      d'.bytes = [] := by
  obtain ⟨d₁, hbytes, hsize, hcollected⟩ := decodeBytes_of_not_mem h hframe (by
    rw [hempty]
    simpa using hlen)
  rw [hempty, List.nil_append] at hcollected
  have hlast : d₁.decodeBytes [semicolon] = some ({ d₁ with bytes := [] }, [utf8Decode frame]) := by
    rw [decodeBytes, decodeNextByte, if_pos rfl, hcollected]
    rfl
  exact ⟨_, decodeBytes_append hbytes hlast, ⟨Nat.zero_le _, hsize.doubled⟩, rfl⟩

/-- **Frames are decoded one by one**, in order. -/
theorem decodeBytes_frames (h : d.WellSized) (hempty : d.bytes = []) {frames : List (List UInt8)}
    (hframes : ∀ frame ∈ frames, semicolon ∉ frame ∧ frame.length ≤ frameLimit) :
    ∃ d', d.decodeBytes (frames.flatMap (· ++ [semicolon])) = some (d', frames.map utf8Decode) ∧
      d'.WellSized ∧ d'.bytes = [] := by
  induction frames generalizing d with
  | nil => exact ⟨d, rfl, h, hempty⟩
  | cons frame frames ih =>
    obtain ⟨hframe, hlen⟩ := hframes frame List.mem_cons_self
    obtain ⟨d₁, hfirst, hsize, hempty₁⟩ := decodeBytes_frame h hempty hframe hlen
    obtain ⟨d₂, hrest, hsize₂, hempty₂⟩ :=
      ih hsize hempty₁ fun f hf ↦ hframes f (List.mem_cons_of_mem frame hf)
    exact ⟨d₂, decodeBytes_append hfirst hrest, hsize₂, hempty₂⟩

/-- The array stays well sized. -/
theorem WellSized.decodeNextByte (h : d.WellSized) {d' : Decoder} {b : UInt8}
    {message : Option JString} (hdecode : d.decodeNextByte b = some (d', message)) :
    d'.WellSized := by
  obtain ⟨-, rfl, -⟩ | ⟨-, hpush, -⟩ := decodeNextByte_cases hdecode
  · exact ⟨Nat.zero_le _, h.doubled⟩
  · rcases Nat.lt_or_ge d.bytes.length frameLimit with hlt | hge
    · obtain ⟨d'', hpush', hsize, -⟩ := (pushByte_eq h b).1 hlt
      obtain rfl := Option.some.inj (hpush.symm.trans hpush')
      exact hsize
    · exact absurd (hpush.symm.trans ((pushByte_eq h b).2 hge)) (by simp)

theorem WellSized.decodeBytes (h : d.WellSized) {d' : Decoder} {bytes : List UInt8}
    {ms : List JString} (hdecode : d.decodeBytes bytes = some (d', ms)) : d'.WellSized := by
  induction bytes generalizing d ms with
  | nil =>
    obtain ⟨rfl, -⟩ := Prod.mk.inj (Option.some.inj hdecode)
    exact h
  | cons b bytes ih =>
    obtain ⟨d₁, message, ms', hb, hrest, -⟩ := decodeBytes_cons_eq_some hdecode
    exact ih (h.decodeNextByte hb) hrest

/-- Every `';'` ends a message, and nothing else does. -/
theorem length_of_decodeBytes {d d' : Decoder} {bytes : List UInt8} {ms : List JString}
    (h : d.decodeBytes bytes = some (d', ms)) : ms.length = bytes.count semicolon := by
  induction bytes generalizing d ms with
  | nil =>
    obtain ⟨-, rfl⟩ := Prod.mk.inj (Option.some.inj h)
    rfl
  | cons b bytes ih =>
    obtain ⟨d₁, message, ms', hb, hrest, rfl⟩ := decodeBytes_cons_eq_some h
    rw [List.length_append, ih hrest, List.count_cons, Nat.add_comm]
    congr 1
    obtain ⟨hsemicolon, -, rfl⟩ | ⟨hne, -, rfl⟩ := decodeNextByte_cases hb
    · rw [if_pos (beq_iff_eq.2 hsemicolon)]
      rfl
    · rw [if_neg (by simpa using hne)]
      rfl

/-- No frame of these bytes is over the limit. -/
def FramesFit (bytes : List UInt8) : Prop :=
  ∀ frame, frame <:+: bytes → semicolon ∉ frame → frame.length ≤ frameLimit

/-- **Bytes without a frame over the limit can be decoded.** -/
theorem decodeBytes_of_framesFit {bytes : List UInt8} (h : FramesFit bytes) :
    ∃ d ms, new.decodeBytes bytes = some (d, ms) := by
  -- the decoder holds what came behind the last `';'`
  have hholds : ∃ d ms, new.decodeBytes bytes = some (d, ms) ∧ d.WellSized ∧
      semicolon ∉ d.bytes ∧ d.bytes <:+ bytes := by
    induction bytes using List.reverseRecOn with
    | nil => exact ⟨new, [], rfl, wellSized_new, List.not_mem_nil, List.suffix_rfl⟩
    | append_singleton bytes b ih =>
      obtain ⟨d, ms, hdecode, hsize, hframe, hsuffix⟩ :=
        ih fun frame hin ↦ h frame (hin.trans (List.prefix_append bytes [b]).isInfix)
      by_cases hb : b = semicolon
      · have hlast :
            d.decodeNextByte b = some ({ d with bytes := [] }, some (utf8Decode d.bytes)) :=
          if_pos hb
        exact ⟨_, _, decodeBytes_append hdecode (decodeBytes_singleton hlast),
          ⟨Nat.zero_le _, hsize.doubled⟩, List.not_mem_nil, List.nil_suffix⟩
      · have hlonger : d.bytes ++ [b] <:+ bytes ++ [b] := by
          obtain ⟨before, rfl⟩ := hsuffix
          exact ⟨before, (List.append_assoc _ _ _).symm⟩
        have hnotMem : semicolon ∉ d.bytes ++ [b] := by
          rw [List.mem_append, List.mem_singleton, not_or]
          exact ⟨hframe, Ne.symm hb⟩
        have hlen := h _ hlonger.isInfix hnotMem
        rw [List.length_append, List.length_singleton] at hlen
        obtain ⟨d', hpush, hsize', hbytes⟩ := (pushByte_eq hsize b).1 hlen
        have hlast : d.decodeNextByte b = some (d', none) := by
          rw [decodeNextByte, if_neg hb, hpush]
          rfl
        exact ⟨_, _, decodeBytes_append hdecode (decodeBytes_singleton hlast), hsize',
          hbytes ▸ hnotMem, hbytes ▸ hlonger⟩
  obtain ⟨d, ms, hdecode, -⟩ := hholds
  exact ⟨d, ms, hdecode⟩

/-- A frame over the limit throws, whatever frames come before it and behind it. -/
theorem decodeBytes_frames_of_too_long (h : d.WellSized) (hempty : d.bytes = [])
    {frames : List (List UInt8)} (hframes : ∀ frame ∈ frames, semicolon ∉ frame)
    {frame : List UInt8} (hmem : frame ∈ frames) (hlen : frameLimit < frame.length) :
    d.decodeBytes (frames.flatMap (· ++ [semicolon])) = none := by
  induction frames generalizing d with
  | nil => exact absurd hmem List.not_mem_nil
  | cons first frames ih =>
    have hfirst := hframes first List.mem_cons_self
    rw [List.flatMap_cons]
    by_cases hshort : first.length ≤ frameLimit
    · -- the first frame fits, so the long one comes later
      have hlater : frame ∈ frames := by
        rcases List.mem_cons.1 hmem with rfl | hlater
        · exact absurd hshort (Nat.not_le_of_lt hlen)
        · exact hlater
      obtain ⟨d₁, hdecode, hsize, hempty₁⟩ := decodeBytes_frame h hempty hfirst hshort
      exact decodeBytes_append_of_none hdecode
        (ih hsize hempty₁ (fun f hf ↦ hframes f (List.mem_cons_of_mem first hf)) hlater)
    · rw [List.append_assoc]
      exact decodeBytes_of_too_long h hfirst (by rw [hempty, List.length_nil]; omega) _

end Decoder

end SplNet
