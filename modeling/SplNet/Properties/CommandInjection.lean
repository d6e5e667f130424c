import SplNet.Client.CommandLines

/-!
# Commands in the text of a command

A typed line is a known first word and any text behind a blank. `Encoder` copies the text into the
frame, and the frame ends at the first `';'`, so a `';'` in the text ends it early and the server
takes the rest for another frame (`injected_command`). **Without a `';'` in the text, and below the
limit of the decoder, the bytes of a line are one frame with the opcode of the line**
(`received_alone_iff`).
-/

namespace SplNet

open Java Client

/-- The first words `Encoder` knows. -/
inductive Keyword
  | register
  | login
  | logout
  | follow
  | post
  | pm
  | logstat
  | stat
  | block
deriving DecidableEq

namespace Keyword

/-- The word that is typed. -/
def word : Keyword → List UInt8
  | register => ascii "REGISTER"
  | login => ascii "LOGIN"
  | logout => ascii "LOGOUT"
  | follow => ascii "FOLLOW"
  | post => ascii "POST"
  | pm => ascii "PM"
  | logstat => ascii "LOGSTAT"
  | stat => ascii "STAT"
  | block => ascii "BLOCK"

def optCode : Keyword → List UInt8
  | register => ascii "01"
  | login => ascii "02"
  | logout => ascii "03"
  | follow => ascii "04"
  | post => ascii "05"
  | pm => ascii "06"
  | logstat => ascii "07"
  | stat => ascii "08"
  | block => ascii "12"

/-- What stands between the opcode and the final `';'`. -/
def body (text : List UInt8) : Keyword → List UInt8
  | register => blanksToNuls text ++ [0]
  | login => blanksToNuls text
  | logout => []
  | follow => dropBlanks text ++ [0]
  | post => text ++ [0]
  | pm => text ++ [0]
  | logstat => []
  | stat => text ++ [0]
  | block => text ++ [0]

/-- The text behind the word is copied. -/
def CopiesText (k : Keyword) : Prop := k ≠ logout ∧ k ≠ logstat

instance (k : Keyword) : Decidable k.CopiesText := inferInstanceAs (Decidable (_ ∧ _))

theorem encodedLine_eq {k : Keyword} {line : List UInt8} (h : opCode line = k.word) :
    encodedLine line = k.optCode ++ k.body (arguments line) ++ [Decoder.semicolon] := by
  have hassoc : ∀ op text : List UInt8,
      op ++ text ++ [0] ++ ascii ";" = op ++ (text ++ [0]) ++ [Decoder.semicolon] := by
    intro op text
    rw [List.append_assoc op text [0]]
    rfl
  rw [encodedLine, h]
  cases k with
  | register => exact hassoc (ascii "01") (blanksToNuls (arguments line))
  | login => rfl
  | logout => rfl
  | follow => exact hassoc (ascii "04") (dropBlanks (arguments line))
  | post => exact hassoc (ascii "05") (arguments line)
  | pm => exact hassoc (ascii "06") (arguments line)
  | logstat => rfl
  | stat => exact hassoc (ascii "08") (arguments line)
  | block => exact hassoc (ascii "12") (arguments line)

theorem semicolon_mem_body {k : Keyword} {text : List UInt8} :
    Decoder.semicolon ∈ k.body text ↔ k.CopiesText ∧ Decoder.semicolon ∈ text := by
  have hnuls : Decoder.semicolon ∈ blanksToNuls text ↔ Decoder.semicolon ∈ text := by
    rw [blanksToNuls, List.mem_map]
    constructor
    · rintro ⟨c, hc, heq⟩
      split at heq
      · exact absurd heq (by decide)
      · exact heq ▸ hc
    · exact fun h ↦ ⟨_, h, if_neg (by decide)⟩
  have hblanks : Decoder.semicolon ∈ dropBlanks text ↔ Decoder.semicolon ∈ text := by
    rw [dropBlanks, List.mem_filter]
    exact and_iff_left (by decide)
  have hzero : Decoder.semicolon ∉ ([0] : List UInt8) := by decide
  cases k
  case logout => simp [body, CopiesText]
  case logstat => simp [body, CopiesText]
  case login => exact hnuls.trans (and_iff_right (by decide)).symm
  case register =>
    rw [body, List.mem_append, or_iff_left hzero, hnuls]
    exact (and_iff_right (by decide)).symm
  case follow =>
    rw [body, List.mem_append, or_iff_left hzero, hblanks]
    exact (and_iff_right (by decide)).symm
  all_goals
    rw [body, List.mem_append, or_iff_left hzero]
    exact (and_iff_right (by decide)).symm

theorem blank_not_mem_word (k : Keyword) : blank ∉ k.word := by
  cases k <;> decide

theorem semicolon_not_mem_optCode (k : Keyword) : Decoder.semicolon ∉ k.optCode := by
  cases k <;> decide

theorem utf8Decode_optCode_append (k : Keyword) (bytes : List UInt8) :
    utf8Decode (k.optCode ++ bytes) = toText k.optCode ++ utf8Decode bytes :=
  utf8Decode_ascii_append (by cases k <;> decide) bytes

end Keyword

/-- The decoder takes the bytes for exactly one frame, with the opcode of the command, and holds
nothing afterwards. -/
def ReceivedAlone (d : Decoder) (k : Keyword) (bytes : List UInt8) : Prop :=
  ∃ d' message, d.decodeBytes bytes = some (d', [message]) ∧ toText k.optCode <+: message ∧
    d'.bytes = []

/-- **The bytes of a line are one frame with its opcode** exactly when no `';'` is copied into it
and it is not over the limit, after whatever complete frames the decoder has read before. -/
theorem received_alone_iff {history : List UInt8} {d : Decoder} {messages : List JString}
    (hd : Decoder.new.decodeBytes history = some (d, messages)) (hempty : d.bytes = [])
    {k : Keyword} {line : List UInt8} (hline : opCode line = k.word) :
    ReceivedAlone d k (encodedLine line) ↔
      (k.CopiesText → Decoder.semicolon ∉ arguments line) ∧
        (encodedLine line).length ≤ Decoder.frameLimit + 1 := by
  have hsize : d.WellSized := Decoder.wellSized_new.decodeBytes hd
  have hmem : Decoder.semicolon ∉ k.optCode ++ k.body (arguments line) ↔
      (k.CopiesText → Decoder.semicolon ∉ arguments line) := by
    rw [List.mem_append, or_iff_right k.semicolon_not_mem_optCode, Keyword.semicolon_mem_body,
      not_and]
  rw [Keyword.encodedLine_eq hline, ← hmem]
  constructor
  · rintro ⟨d', message, hdecode, -, -⟩
    have hframe : Decoder.semicolon ∉ k.optCode ++ k.body (arguments line) := by
      have hcount := Decoder.length_of_decodeBytes hdecode
      rw [List.count_append] at hcount
      exact List.count_eq_zero.1 (Nat.add_right_cancel hcount).symm
    refine ⟨hframe, ?_⟩
    by_contra hlen
    rw [List.length_append, List.length_singleton] at hlen
    have hthrows := Decoder.decodeBytes_of_too_long hsize hframe
      (by rw [hempty, List.length_nil]; omega) [Decoder.semicolon]
    exact absurd (hdecode.symm.trans hthrows) (by simp)
  · rintro ⟨hframe, hlen⟩
    rw [List.length_append, List.length_singleton] at hlen
    obtain ⟨d', hdecode, -, hempty'⟩ := Decoder.decodeBytes_frame hsize hempty hframe (by omega)
    refine ⟨d', _, hdecode, ?_, hempty'⟩
    rw [k.utf8Decode_optCode_append]
    exact List.prefix_append _ _

/-- A post without a `;` in it arrives alone. -/
theorem received_alone_iff_post :
    ReceivedAlone Decoder.new .post (encodedLine (ascii "POST hi")) := by
  have hnothing : Decoder.new.decodeBytes [] = some (Decoder.new, []) := rfl
  exact (received_alone_iff hnothing rfl (k := .post) (by decide)).2 (by decide)

/-- **A post that logs its author out**: the text of the line is free of NUL, and the server reads
two frames. -/
theorem injected_command :
    0 ∉ ascii "POST hi;03" ∧ opCode (ascii "POST hi;03") = Keyword.word .post ∧
      Decoder.new.decodeBytes (encodedLine (ascii "POST hi;03")) =
        some (Decoder.new, [str "05hi", str "03\x00"]) ∧
      ¬ ReceivedAlone Decoder.new .post (encodedLine (ascii "POST hi;03")) := by
  have hdecode : Decoder.new.decodeBytes (encodedLine (ascii "POST hi;03")) =
      some (Decoder.new, [str "05hi", str "03\x00"]) := by decide
  refine ⟨by decide, by decide, hdecode, ?_⟩
  rintro ⟨d', message, hone, -⟩
  have hlen := congrArg (Option.map fun x ↦ x.2.length) (hdecode.symm.trans hone)
  exact absurd hlen (by simp)

end SplNet
