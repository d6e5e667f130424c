import SplNet.Client.ConnectionHandler

/-!
# Command lines

The command lines a user is meant to type, as data: words, free text and one letter, each carrying
what it may not contain. `Command.line` is the line, `Command.frame` what `Encoder` makes of it
without the final `';'` (`encodedLine_line`), and `Command.Arguments` says which arguments the
server is to find in the text behind the opcode (`Command.arguments_text`).
-/

namespace SplNet.Client

open Java

/-! ### Words, text, letters -/

/-- ASCII without `\0` and `';'`. -/
def IsText (s : List UInt8) : Prop := ∀ c ∈ s, c < 0x80 ∧ c ≠ 0 ∧ c ≠ Decoder.semicolon

instance (s : List UInt8) : Decidable (IsText s) :=
  inferInstanceAs (Decidable (∀ c ∈ s, _))

/-- What may stand in a frame: ASCII without `';'`. -/
def IsFrame (s : List UInt8) : Prop := ∀ c ∈ s, c < 0x80 ∧ c ≠ Decoder.semicolon

instance (s : List UInt8) : Decidable (IsFrame s) :=
  inferInstanceAs (Decidable (∀ c ∈ s, _))

/-- Free text. -/
structure Text where
  bytes : List UInt8
  isText : IsText bytes

/-- A nonempty text without a blank. -/
structure Word extends Text where
  nonempty : bytes ≠ []
  blank_not_mem : blank ∉ bytes

/-- A character that is no blank. -/
structure Letter where
  byte : UInt8
  isText : IsText [byte]
  ne_blank : byte ≠ blank

/-- The characters of ASCII bytes. -/
def toText (s : List UInt8) : JString := s.map UInt8.toUInt16

section Texts

theorem IsText.isFrame {s : List UInt8} (hs : IsText s) : IsFrame s :=
  fun c hc ↦ ⟨(hs c hc).1, (hs c hc).2.2⟩

@[simp] theorem isFrame_append {s t : List UInt8} : IsFrame (s ++ t) ↔ IsFrame s ∧ IsFrame t :=
  List.forall_mem_append

@[simp] theorem isFrame_cons {c : UInt8} {s : List UInt8} :
    IsFrame (c :: s) ↔ (c < 0x80 ∧ c ≠ Decoder.semicolon) ∧ IsFrame s :=
  List.forall_mem_cons

@[simp] theorem isFrame_nil : IsFrame [] := fun _ hc ↦ absurd hc List.not_mem_nil

theorem toText_append (s t : List UInt8) : toText (s ++ t) = toText s ++ toText t :=
  List.map_append

theorem nul_not_mem_toText {s : List UInt8} (hs : IsText s) : nul ∉ toText s := by
  rintro hmem
  obtain ⟨c, hc, hnul⟩ := List.mem_map.1 hmem
  refine (hs c hc).2.1 (UInt8.toNat_inj.1 ?_)
  have hn := congrArg UInt16.toNat hnul
  rwa [UInt8.toNat_toUInt16] at hn

theorem toText_ne_nil {s : List UInt8} (hs : s ≠ []) : toText s ≠ [] :=
  fun h ↦ hs (List.map_eq_nil_iff.1 h)

end Texts

/-! ### Commands -/

/-- A command with its arguments. -/
inductive Command
  | register (username password birthday : Word)
  | login (username password captcha : Word)
  | logout
  | follow (action : Letter) (username : Word)
  | post (text : Text)
  | pm (username : Word) (text : Text)
  | block (username : Word)

namespace Command

/-- The line that is typed. -/
def line : Command → List UInt8
  | register u p b =>
    ascii "REGISTER" ++ blank :: (u.bytes ++ blank :: (p.bytes ++ blank :: b.bytes))
  | login u p c => ascii "LOGIN" ++ blank :: (u.bytes ++ blank :: (p.bytes ++ blank :: c.bytes))
  | logout => ascii "LOGOUT"
  | follow a u => ascii "FOLLOW" ++ blank :: a.byte :: blank :: u.bytes
  | post t => ascii "POST" ++ blank :: t.bytes
  | pm u t => ascii "PM" ++ blank :: (u.bytes ++ blank :: t.bytes)
  | block u => ascii "BLOCK" ++ blank :: u.bytes

/-- The opcode of the command. -/
def optCode : Command → List UInt8
  | register _ _ _ => ascii "01"
  | login _ _ _ => ascii "02"
  | logout => ascii "03"
  | follow _ _ => ascii "04"
  | post _ => ascii "05"
  | pm _ _ => ascii "06"
  | block _ => ascii "12"

/-- The bytes between the opcode and the `';'`. -/
def body : Command → List UInt8
  | register u p b => u.bytes ++ 0 :: (p.bytes ++ 0 :: (b.bytes ++ [0]))
  | login u p c => u.bytes ++ 0 :: (p.bytes ++ 0 :: c.bytes)
  | logout => []
  | follow a u => a.byte :: (u.bytes ++ [0])
  | post t => t.bytes ++ [0]
  | pm u t => u.bytes ++ blank :: (t.bytes ++ [0])
  | block u => u.bytes ++ [0]

/-- The frame of the command. -/
def frame (c : Command) : List UInt8 := c.optCode ++ c.body

/-- The arguments in the text behind the opcode, taken out of it the way `process` does. -/
def Arguments (text : JString) : Command → Prop
  | register u p b => split text nul = [toText u.bytes, toText p.bytes, toText b.bytes]
  | login u p c => split text nul = [toText u.bytes, toText p.bytes, toText c.bytes]
  | logout => text = []
  | follow a u => substring text 0 1 = .ok (toText [a.byte]) ∧
      substringFrom text 1 = .ok (toText u.bytes ++ [nul])
  | post t => substring text 0 (text.length - 1) = .ok (toText t.bytes)
  | pm u t => substring text 0 (text.length - 1) =
      .ok (toText u.bytes ++ [space] ++ toText t.bytes)
  | block u => text = toText u.bytes ++ [nul]

end Command

/-! ### What `Encoder` sends -/

section Encoding

variable {w rest : List UInt8}

/-- A line splits at its first blank. -/
theorem opCode_append (hw : blank ∉ w) : opCode (w ++ blank :: rest) = w := by
  have hall : ∀ c ∈ w, decide (c ≠ blank) = true := fun c hc ↦
    decide_eq_true fun h ↦ hw (h ▸ hc)
  rw [opCode, List.takeWhile_append_of_pos hall, List.takeWhile_cons_of_neg (by simp),
    List.append_nil]

theorem arguments_append (hw : blank ∉ w) : arguments (w ++ blank :: rest) = rest := by
  have hall : ∀ c ∈ w, decide (c ≠ blank) = true := fun c hc ↦
    decide_eq_true fun h ↦ hw (h ▸ hc)
  rw [arguments, List.dropWhile_append_of_pos hall, List.dropWhile_cons_of_neg (by simp),
    List.tail_cons]

theorem blanksToNuls_append (s t : List UInt8) :
    blanksToNuls (s ++ t) = blanksToNuls s ++ blanksToNuls t := List.map_append

/-- Without a blank there is nothing to replace. -/
theorem blanksToNuls_of_not_mem (hw : blank ∉ w) : blanksToNuls w = w := by
  have hmap : ∀ c ∈ w, (if c = blank then 0 else c) = id c := by
    rintro c hc
    have hne : c ≠ blank := fun h ↦ hw (h ▸ hc)
    rw [if_neg hne, id]
  rw [blanksToNuls, List.map_congr_left hmap, List.map_id]

/-- Three arguments. -/
theorem blanksToNuls_three {u p b : List UInt8} (hu : blank ∉ u) (hp : blank ∉ p) (hb : blank ∉ b) :
    blanksToNuls (u ++ blank :: (p ++ blank :: b)) = u ++ 0 :: (p ++ 0 :: b) := by
  have hcons : ∀ s, blanksToNuls (blank :: s) = 0 :: blanksToNuls s := fun s ↦ rfl
  simp only [blanksToNuls_append, hcons, blanksToNuls_of_not_mem hu, blanksToNuls_of_not_mem hp,
    blanksToNuls_of_not_mem hb]

/-- The arguments of REGISTER and LOGIN. -/
theorem blanksToNuls_words (u p b : Word) :
    blanksToNuls (u.bytes ++ blank :: (p.bytes ++ blank :: b.bytes)) =
      u.bytes ++ 0 :: (p.bytes ++ 0 :: b.bytes) :=
  blanksToNuls_three u.blank_not_mem p.blank_not_mem b.blank_not_mem

/-- The arguments of FOLLOW. -/
theorem dropBlanks_follow (a : Letter) (u : Word) :
    dropBlanks (a.byte :: blank :: u.bytes) = a.byte :: u.bytes := by
  have hword : u.bytes.filter (· ≠ blank) = u.bytes :=
    List.filter_eq_self.2 fun c hc ↦ decide_eq_true fun h ↦ u.blank_not_mem (h ▸ hc)
  rw [dropBlanks, List.filter_cons_of_pos (by simpa using a.ne_blank),
    List.filter_cons_of_neg (by simp), hword]

end Encoding

namespace Command

/-- **What `Encoder` returns for the line of a command**: its frame and a `';'`. -/
theorem encodedLine_line (c : Command) : encodedLine c.line = c.frame ++ [Decoder.semicolon] := by
  cases c with
  | register u p b =>
    rw [encodedLine, line, opCode_append (by decide), arguments_append (by decide),
      blanksToNuls_words, if_pos rfl]
    simp [frame, optCode, body, ascii, Decoder.semicolon]
  | login u p c =>
    rw [encodedLine, line, opCode_append (by decide), arguments_append (by decide),
      blanksToNuls_words, if_neg (by decide), if_pos rfl]
    rfl
  | logout => decide
  | follow a u =>
    rw [encodedLine, line, opCode_append (by decide), arguments_append (by decide),
      dropBlanks_follow, if_neg (by decide), if_neg (by decide), if_neg (by decide), if_pos rfl]
    simp [frame, optCode, body, ascii, Decoder.semicolon]
  | post t =>
    rw [encodedLine, line, opCode_append (by decide), arguments_append (by decide)]
    simp [frame, optCode, body, ascii, Decoder.semicolon]
  | pm u t =>
    rw [encodedLine, line, opCode_append (by decide), arguments_append (by decide)]
    simp [frame, optCode, body, ascii, Decoder.semicolon]
  | block u =>
    rw [encodedLine, line, opCode_append (by decide), arguments_append (by decide)]
    simp [frame, optCode, body, ascii, Decoder.semicolon]

/-! ### What `process` finds -/

theorem isFrame_frame (c : Command) : IsFrame c.frame := by
  have hop : IsFrame c.optCode := by
    cases c
    all_goals
      rw [optCode]
      decide
  have hnul : (0 : UInt8) < 0x80 ∧ (0 : UInt8) ≠ Decoder.semicolon := by decide
  have hblank : blank < 0x80 ∧ blank ≠ Decoder.semicolon := by decide
  refine isFrame_append.2 ⟨hop, ?_⟩
  cases c with
  | register u p b => simp [body, hnul, u.isText.isFrame, p.isText.isFrame, b.isText.isFrame]
  | login u p c => simp [body, hnul, u.isText.isFrame, p.isText.isFrame, c.isText.isFrame]
  | logout => exact isFrame_nil
  | follow a u =>
    exact isFrame_append.2 ⟨isFrame_append.2 ⟨a.isText.isFrame, u.isText.isFrame⟩, by decide⟩
  | post t => simp [body, hnul, t.isText.isFrame]
  | pm u t => simp [body, hnul, hblank, u.isText.isFrame, t.isText.isFrame]
  | block u => simp [body, hnul, u.isText.isFrame]

/-- The text of a frame. -/
theorem utf8Decode_frame (c : Command) :
    utf8Decode c.frame = toText c.optCode ++ toText c.body := by
  rw [← toText_append]
  exact utf8Decode_ascii fun b hb ↦ (c.isFrame_frame b hb).1

theorem substring_dropLast_append_nul (s : JString) :
    substring (s ++ [nul]) 0 ((s ++ [nul]).length - 1) = .ok s := by
  rw [substring_dropLast, if_neg (by simp), List.dropLast_concat]

/-- **The arguments of a command are in its frame.** -/
theorem arguments_body (c : Command) : c.Arguments (toText c.body) := by
  cases c with
  | register u p b =>
    have h := split_three_terminated (nul_not_mem_toText u.isText) (nul_not_mem_toText p.isText)
      (nul_not_mem_toText b.isText) (toText_ne_nil b.nonempty)
    rw [Arguments, ← h]
    simp [body, toText, nul]
  | login u p c =>
    have h := split_three (nul_not_mem_toText u.isText) (nul_not_mem_toText p.isText)
      (nul_not_mem_toText c.isText) (toText_ne_nil c.nonempty)
    rw [Arguments, ← h]
    simp [body, toText, nul]
  | logout => rfl
  | follow a u =>
    have htext : toText (body (follow a u)) = a.byte.toUInt16 :: (toText u.bytes ++ [nul]) := by
      simp [body, toText, nul]
    rw [htext]
    constructor
    · rw [substring, if_pos]
      · rfl
      · rw [List.length_cons]
        omega
    · exact substringFrom_of_le (n := 1) (by rw [List.length_cons]; omega)
  | post t =>
    have htext : toText (body (post t)) = toText t.bytes ++ [nul] := by
      simp [body, toText, nul]
    rw [htext]
    exact substring_dropLast_append_nul _
  | pm u t =>
    have htext : toText (body (pm u t)) = toText u.bytes ++ [space] ++ toText t.bytes ++ [nul] := by
      simp [body, toText, nul, blank, space, char]
    rw [htext]
    exact substring_dropLast_append_nul _
  | block u => simp [Arguments, body, toText, nul]

end Command

end SplNet.Client
