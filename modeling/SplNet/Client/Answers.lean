import SplNet.Api.Spec.Sending
import SplNet.Client.ConnectionHandler

/-!
# Answers

What the server tells a client, outside the statistics: acknowledgements, errors and notifications.
An `Answer` is the content of such a message, `Answer.message` the text the server builds for it,
`Answer.display` the text the client shows. The texts in an answer have no `\0`, which the format
uses as its separator, so that every answer that can be built can be read.

**The client reads an answer from exactly the bytes the server encodes it to** (`decoder_bytes`),
and so it reads any list of answers in step (`decodeMessages_answers`).
-/

namespace SplNet.Client

open Java

/-! ### The content of a message -/

/-- A text without `\0`. -/
abbrev NulFree := { s : JString // nul ∉ s }

/-- Two ASCII characters. -/
structure Opcode where
  text : JString
  length : text.length = 2
  isAscii : ∀ c ∈ text, c.toNat < 0x80

/-- The bytes of an opcode. -/
def Opcode.bytes (op : Opcode) : List UInt8 := op.text.map fun c ↦ UInt8.ofNat c.toNat

theorem Opcode.text_eq (op : Opcode) : op.text = op.bytes.map UInt8.toUInt16 := by
  have hback : ∀ c ∈ op.text, (UInt8.toUInt16 ∘ fun c ↦ UInt8.ofNat c.toNat) c = id c := by
    intro c hc
    have hlt : c.toNat < UInt8.size := (op.isAscii c hc).trans (by decide)
    show (UInt8.ofNat c.toNat).toUInt16 = c
    rw [← UInt16.toNat_inj, UInt8.toNat_toUInt16, UInt8.toNat_ofNat_of_lt' hlt]
  rw [Opcode.bytes, List.map_map, List.map_congr_left hback, List.map_id]

/-- The two kinds of notifications. -/
inductive NotificationKind
  | post
  | pm
deriving DecidableEq

namespace NotificationKind

/-- The first characters of the notification. -/
def header : NotificationKind → JString
  | post => str "091"
  | pm => str "090"

/-- What the client shows for the kind. -/
def display : NotificationKind → List UInt8
  | post => ascii "Public "
  | pm => ascii "PM "

end NotificationKind

/-- What the server tells a client. -/
inductive Answer
  /-- The acknowledgement of any request but FOLLOW and the statistics. -/
  | ack (optCode : Opcode) (plain : optCode.text ∉ [str "04", str "07", str "08"])
  /-- The acknowledgement of FOLLOW, which echoes the target. -/
  | followAck (unfollow : Bool) (target : NulFree)
  | error (optCode : Opcode)
  | notification (kind : NotificationKind) (author content : NulFree)

namespace Answer

/-- The text the server builds. -/
def message : Answer → JString
  | ack optCode _ => str "10" ++ optCode.text
  | followAck unfollow target =>
    (if unfollow then str "100401" else str "100400") ++ (target.1 ++ [nul]) ++ [nul]
  | error optCode => str "11" ++ optCode.text
  | notification kind author content => SplNet.notification kind.header author.1 content.1

/-- The text the client shows. -/
def display : Answer → List UInt8
  | ack optCode _ => ascii "ACK " ++ (optCode.bytes ++ ascii " ")
  | followAck unfollow target =>
    ascii "ACK " ++ (ascii "04 " ++ (if unfollow then ascii "01" else ascii "00") ++ ascii " " ++
      utf8Bytes target.1)
  | error optCode => ascii "ERROR " ++ optCode.bytes
  | notification kind author content =>
    ascii "NOTIFICATION " ++ (kind.display ++ (utf8Bytes author.1 ++ ascii " ") ++
      utf8Bytes content.1)

/-- The bytes the server sends. -/
def bytes (a : Answer) : List UInt8 := utf8Bytes (a.message ++ str ";")

/-- Every answer can be encoded. -/
theorem encode_message (a : Answer) : encode a.message = .ok a.bytes := by
  have hencode : Sendable a.message → encode a.message = .ok a.bytes :=
    fun h ↦ encode_isOk h.1 h.2.1 h.2.2
  refine hencode ?_
  cases a with
  | ack op plain =>
    have htake : (str "10" ++ op.text).take 4 = str "10" ++ op.text :=
      List.take_of_length_le (by rw [List.length_append, op.length]; decide)
    simp only [List.mem_cons, List.not_mem_nil, or_false, not_or] at plain
    refine ⟨by rw [message, List.length_append, op.length]; decide, ?_, ?_⟩
    · rw [message, htake]
      exact fun h ↦ plain.2.1 (List.append_cancel_left (h.trans (rfl : _ = str "10" ++ str "07")))
    · rw [message, htake]
      exact fun h ↦ plain.2.2 (List.append_cancel_left (h.trans (rfl : _ = str "10" ++ str "08")))
  | followAck unfollow target =>
    rw [message, List.append_assoc]
    cases unfollow with
    | false => exact sendable_followAck ⟨str "0", rfl⟩
    | true => exact sendable_followAck ⟨str "1", rfl⟩
  | error op =>
    refine sendable_of_take_two (by rw [message, List.length_append, op.length]; decide) ?_
    rw [message, List.take_left' (by decide)]
    decide
  | notification kind author content =>
    cases kind with
    | post => exact sendable_notification _ rfl rfl
    | pm => exact sendable_notification _ rfl rfl

/-- The bytes of an acknowledgement. -/
theorem bytes_ack (op : Opcode) (plain : op.text ∉ [str "04", str "07", str "08"]) :
    (ack op plain).bytes = ascii "10" ++ (op.bytes ++ [Decoder.semicolon]) := by
  rw [bytes, message, List.append_assoc, utf8Bytes_ascii_append (by decide),
    utf8Bytes_ascii_append op.isAscii]
  rfl

theorem bytes_error (op : Opcode) :
    (error op).bytes = ascii "11" ++ (op.bytes ++ [Decoder.semicolon]) := by
  rw [bytes, message, List.append_assoc, utf8Bytes_ascii_append (by decide),
    utf8Bytes_ascii_append op.isAscii]
  rfl

theorem bytes_followAck (unfollow : Bool) (target : NulFree) :
    (followAck unfollow target).bytes =
      ascii "10" ++ (ascii "04" ++ ((if unfollow then ascii "01" else ascii "00") ++
        (utf8Bytes target.1 ++ 0 :: 0 :: [Decoder.semicolon]))) := by
  have hhead : ∀ c ∈ (if unfollow then str "100401" else str "100400"), c.toNat < 0x80 := by
    cases unfollow <;> decide
  rw [bytes, message, List.append_assoc, List.append_assoc, List.append_assoc,
    utf8Bytes_ascii_append hhead, List.singleton_append, utf8Bytes_append_cons (by decide)]
  cases unfollow <;> rfl

theorem bytes_notification (kind : NotificationKind) (author content : NulFree) :
    (notification kind author content).bytes =
      ascii "09" ++ ((match kind with | .post => 0x31 | .pm => 0x30) ::
        (utf8Bytes author.1 ++ 0 :: (utf8Bytes content.1 ++ 0 :: [Decoder.semicolon]))) := by
  have hhead : ∀ c ∈ kind.header, c.toNat < 0x80 := by cases kind <;> decide
  rw [bytes, message, SplNet.notification]
  simp only [List.append_assoc, List.cons_append, List.nil_append]
  rw [utf8Bytes_ascii_append hhead, utf8Bytes_append_cons (by decide),
    utf8Bytes_append_cons (by decide)]
  cases kind <;> rfl

end Answer

/-! ### Reading -/

section Reading

variable {flags : Flags} {rest : List UInt8}

theorem getBytes_append {a : List UInt8} {n : ℕ} (h : a.length = n) (rest : List UInt8) :
    getBytes n (a ++ rest) = some (a, rest) := by
  rw [getBytes, if_pos (by rw [List.length_append]; omega), List.take_left' h, List.drop_left' h]

theorem getBytes_one (c : UInt8) (rest : List UInt8) : getBytes 1 (c :: rest) = some ([c], rest) :=
  getBytes_append (a := [c]) rfl rest

/-- The frame ends at the first delimiter. -/
theorem getFrameAscii_append {delimiter : UInt8} {a : List UInt8} (h : delimiter ∉ a)
    (rest : List UInt8) :
    getFrameAscii delimiter (a ++ delimiter :: rest) = some (a ++ [delimiter], rest) := by
  induction a with
  | nil => rw [List.nil_append, getFrameAscii, if_pos rfl, List.nil_append]
  | cons c a ih =>
    rw [List.mem_cons, not_or] at h
    rw [List.cons_append, getFrameAscii, if_neg h.1, ih h.2]
    rfl

/-- A notification. -/
theorem decoder_notification (kind : NotificationKind) {author content : List UInt8}
    (hauthor : 0 ∉ author) (hcontent : 0 ∉ content) :
    decoder flags (ascii "09" ++ ((match kind with | .post => 0x31 | .pm => 0x30) ::
        (author ++ 0 :: (content ++ 0 :: Decoder.semicolon :: rest)))) =
      some (flags, ascii "NOTIFICATION " ++ (kind.display ++ (author ++ ascii " ") ++ content),
        rest) := by
  have hop := fun stream ↦ getBytes_append (a := ascii "09") (n := 2) rfl stream
  simp only [decoder, hop, notificationDecoder, getBytes_one, getFrameAscii_append hauthor,
    getFrameAscii_append hcontent, List.dropLast_concat, Option.bind_eq_bind, Option.bind_some,
    if_true]
  cases kind <;> rfl

/-- An acknowledgement of two characters. -/
theorem decoder_ack {op : List UInt8} (hlen : op.length = 2)
    (plain : op ∉ [ascii "04", ascii "07", ascii "08"]) :
    decoder flags (ascii "10" ++ (op ++ Decoder.semicolon :: rest)) =
      some (if op = ascii "03" then { flags with terminate := true } else flags,
        ascii "ACK " ++ (op ++ ascii " "), rest) := by
  have hop := fun stream ↦ getBytes_append (a := ascii "10") (n := 2) rfl stream
  have hne : (ascii "10" = ascii "09") = False := by decide
  simp only [List.mem_cons, List.not_mem_nil, or_false, not_or] at plain
  simp only [decoder, hop, hne, ackDecoder, getBytes_append hlen, plain, getBytes_one,
    Option.bind_eq_bind, Option.bind_some, if_true, if_false, or_self, Option.pure_def]

/-- The acknowledgement of a FOLLOW. -/
theorem decoder_followAck {action target : List UInt8} (hlen : action.length = 2)
    (htarget : 0 ∉ target) :
    decoder flags (ascii "10" ++ (ascii "04" ++ (action ++ (target ++ 0 :: 0 ::
        Decoder.semicolon :: rest)))) =
      some (flags, ascii "ACK " ++ (ascii "04 " ++ action ++ ascii " " ++ target), rest) := by
  have hop := fun stream ↦ getBytes_append (a := ascii "10") (n := 2) rfl stream
  have hop4 := fun stream ↦ getBytes_append (a := ascii "04") (n := 2) rfl stream
  have hne : (ascii "10" = ascii "09") = False := by decide
  have hne3 : (ascii "04" = ascii "03") = False := by decide
  simp only [decoder, hop, hop4, hne, hne3, ackDecoder, getBytes_append hlen,
    getFrameAscii_append htarget, getBytes_one, List.dropLast_concat, Option.bind_eq_bind,
    Option.bind_some, if_true, if_false, Option.pure_def]
  rfl

theorem decoder_error {op : List UInt8} (hlen : op.length = 2) :
    decoder flags (ascii "11" ++ (op ++ Decoder.semicolon :: rest)) =
      some (if op = ascii "03" then { flags with logoutFailed := true } else flags,
        ascii "ERROR " ++ op, rest) := by
  have hop := fun stream ↦ getBytes_append (a := ascii "11") (n := 2) rfl stream
  have hne9 : (ascii "11" = ascii "09") = False := by decide
  have hne10 : (ascii "11" = ascii "10") = False := by decide
  simp only [decoder, hop, hne9, hne10, errorDecoder, getBytes_append hlen, getBytes_one,
    Option.bind_eq_bind, Option.bind_some, if_true, if_false, Option.pure_def]

/-- Statistics. -/
theorem decoder_statAck {op age numOfPosts numOfFollowers numOfFollowing : List UInt8}
    (hop : op = ascii "07" ∨ op = ascii "08") (hage : age.length = 2)
    (hposts : numOfPosts.length = 2) (hfollowers : numOfFollowers.length = 2)
    (hfollowing : numOfFollowing.length = 2) (closing : UInt8) :
    decoder flags (ascii "10" ++ (op ++ (age ++ (numOfPosts ++ (numOfFollowers ++
        (numOfFollowing ++ closing :: rest)))))) =
      some (flags, ascii "ACK " ++ (op ++ ascii " " ++ toDecimal (bytesToShort age) ++ ascii " " ++
        toDecimal (bytesToShort numOfPosts) ++ ascii " " ++
        toDecimal (bytesToShort numOfFollowers) ++ ascii " " ++
        toDecimal (bytesToShort numOfFollowing)), rest) := by
  have hop10 := fun stream ↦ getBytes_append (a := ascii "10") (n := 2) rfl stream
  have hne : (ascii "10" = ascii "09") = False := by decide
  have hlen : op.length = 2 := by rcases hop with rfl | rfl <;> rfl
  have hne3 : (op = ascii "03") = False := by rcases hop with rfl | rfl <;> decide
  have hne4 : (op = ascii "04") = False := by rcases hop with rfl | rfl <;> decide
  simp only [decoder, hop10, hne, ackDecoder, getBytes_append hlen, hne3, hne4, hop,
    getBytes_append hage, getBytes_append hposts, getBytes_append hfollowers,
    getBytes_append hfollowing, getBytes_one, Option.bind_eq_bind, Option.bind_some, if_true,
    if_false, Option.pure_def]

end Reading

namespace Answer

theorem opcode_bytes_length (op : Opcode) : op.bytes.length = 2 := by
  rw [Opcode.bytes, List.length_map, op.length]

/-- **The client reads an answer from exactly its bytes**, and shows it. -/
theorem decoder_bytes (flags : Flags) (a : Answer) (rest : List UInt8) :
    ∃ flags', decoder flags (a.bytes ++ rest) = some (flags', a.display, rest) := by
  cases a with
  | ack op plain =>
    rw [bytes_ack]
    simp only [List.append_assoc, List.singleton_append]
    refine ⟨_, decoder_ack (opcode_bytes_length op) fun hmem ↦ plain ?_⟩
    rw [op.text_eq]
    exact List.mem_map_of_mem (f := List.map UInt8.toUInt16) hmem
  | followAck unfollow target =>
    rw [bytes_followAck]
    simp only [List.append_assoc, List.cons_append, List.nil_append]
    refine ⟨flags, ?_⟩
    exact decoder_followAck (by cases unfollow <;> rfl) (zero_not_mem_utf8Bytes target.2)
  | error op =>
    rw [bytes_error]
    simp only [List.append_assoc, List.singleton_append]
    exact ⟨_, decoder_error (opcode_bytes_length op)⟩
  | notification kind author content =>
    rw [bytes_notification]
    simp only [List.append_assoc, List.cons_append, List.nil_append]
    exact ⟨flags, decoder_notification kind (zero_not_mem_utf8Bytes author.2)
      (zero_not_mem_utf8Bytes content.2)⟩

/-- **A list of answers is read in step**: each call reads the bytes of one answer, and the last one
ends where the bytes end. -/
theorem decodeMessages_answers (flags : Flags) (as : List Answer) :
    ∃ results, decodeMessages flags as.length (as.map bytes).flatten = some results ∧
      results.map Prod.fst = as.map display ∧
        results.map Prod.snd = (as.map bytes).tails.tail.map List.flatten := by
  induction as generalizing flags with
  | nil => exact ⟨[], rfl, rfl, rfl⟩
  | cons a as ih =>
    obtain ⟨flags', hdecode⟩ := decoder_bytes flags a (as.map bytes).flatten
    obtain ⟨results, hrest, htexts, hstreams⟩ := ih flags'
    refine ⟨(a.display, (as.map bytes).flatten) :: results, ?_, ?_, ?_⟩
    · rw [List.map_cons, List.flatten_cons, List.length_cons, decodeMessages, hdecode]
      simp only [Option.bind_eq_bind, Option.bind_some, hrest]
      rfl
    · rw [List.map_cons, List.map_cons, htexts]
    · have htails : ∀ l : List (List UInt8), l.tails = l :: l.tails.tail := by
        rintro (- | ⟨x, l⟩)
        · rfl
        · rfl
      rw [List.map_cons, List.map_cons, hstreams, List.tails_cons, List.tail_cons,
        ← List.map_cons (f := List.flatten), ← htails]

end Answer

end SplNet.Client
