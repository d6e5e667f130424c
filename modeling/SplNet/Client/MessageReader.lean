import SplNet.Foundations.StreamReader
import SplNet.Client.Answers

/-!
# The decoder as a reader

`decoder` written as one reader behind the other (`decoder_eq_reader`), and so what holds for every
reader: **a message that is cut is not read** (`decoder_eq_none_of_cut`).

A `ServerMessage` is a message of the protocol as bytes, the statistics included.
-/

namespace SplNet.Client

open StreamReader

/-- A reader of the client: it may change the flags. -/
abbrev Reader (α : Type) := StreamReader Flags UInt8 α

/-! ### The reads -/

theorem getBytes_append_right {n : ℕ} {s a rest : List UInt8} (more : List UInt8)
    (h : getBytes n s = some (a, rest)) : getBytes n (s ++ more) = some (a, rest ++ more) := by
  by_cases hle : n ≤ s.length
  · rw [getBytes, if_pos hle] at h
    obtain ⟨rfl, rfl⟩ := Option.some.inj h
    rw [getBytes, if_pos (by rw [List.length_append]; omega), List.take_append_of_le_length hle,
      List.drop_append_of_le_length hle]
  · rw [getBytes, if_neg hle] at h
    exact absurd h (by simp)

theorem length_of_getBytes {n : ℕ} {s a rest : List UInt8} (h : getBytes n s = some (a, rest)) :
    rest.length ≤ s.length := by
  by_cases hle : n ≤ s.length
  · rw [getBytes, if_pos hle] at h
    obtain ⟨rfl, rfl⟩ := Option.some.inj h
    rw [List.length_drop]
    exact Nat.sub_le _ _
  · rw [getBytes, if_neg hle] at h
    exact absurd h (by simp)

theorem getFrameAscii_append_right {delimiter : UInt8} {s a rest : List UInt8} (more : List UInt8)
    (h : getFrameAscii delimiter s = some (a, rest)) :
    getFrameAscii delimiter (s ++ more) = some (a, rest ++ more) := by
  induction s generalizing a with
  | nil => exact absurd h (by simp [getFrameAscii])
  | cons ch s ih =>
    rw [List.cons_append, getFrameAscii] at *
    by_cases hd : delimiter = ch
    · rw [if_pos hd] at h ⊢
      obtain ⟨rfl, rfl⟩ := Option.some.inj h
      rfl
    · rw [if_neg hd] at h ⊢
      obtain ⟨⟨frame, rest'⟩, hframe, heq⟩ := Option.map_eq_some_iff.1 h
      obtain ⟨rfl, rfl⟩ := heq
      rw [ih hframe]
      rfl

/-- A number of bytes. -/
def bytesReader (bytesToRead : ℕ) : Reader (List UInt8) := lift (getBytes bytesToRead)

/-- The bytes up to a `\0`. -/
def frameReader : Reader (List UInt8) := lift (getFrameAscii 0)

def notificationReader : Reader (List UInt8) :=
  (bytesReader 1).bind fun stat ↦ frameReader.bind fun postingUser ↦ frameReader.bind fun content ↦
    .pure ((if stat = ascii "1" then ascii "Public " else ascii "PM ") ++
      (postingUser.dropLast ++ ascii " ") ++ content.dropLast)

def ackReader : Reader (List UInt8) :=
  (bytesReader 2).bind fun op ↦
    (update fun flags ↦ if op = ascii "03" then { flags with terminate := true } else flags).bind
      fun _ ↦
    if op = ascii "04" then
      (bytesReader 2).bind fun action ↦ frameReader.bind fun userName ↦ (bytesReader 1).bind fun _ ↦
        .pure (op ++ ascii " " ++ action ++ ascii " " ++ userName.dropLast)
    else if op = ascii "07" ∨ op = ascii "08" then
      (bytesReader 2).bind fun age ↦ (bytesReader 2).bind fun numOfPosts ↦
      (bytesReader 2).bind fun numOfFollowers ↦ (bytesReader 2).bind fun numOfFollowing ↦
        .pure (op ++ ascii " " ++ toDecimal (bytesToShort age) ++ ascii " " ++
          toDecimal (bytesToShort numOfPosts) ++ ascii " " ++
          toDecimal (bytesToShort numOfFollowers) ++ ascii " " ++
          toDecimal (bytesToShort numOfFollowing))
    else .pure (op ++ ascii " ")

def errorReader : Reader (List UInt8) :=
  (bytesReader 2).bind fun arg ↦
    (update fun flags ↦
      if arg = ascii "03" then { flags with logoutFailed := true } else flags).bind fun _ ↦
        .pure arg

/-- A content, and the byte behind it. -/
def closedReader (kind : List UInt8) (content : Reader (List UInt8)) : Reader (List UInt8) :=
  content.bind fun answer ↦ (bytesReader 1).bind fun _ ↦ .pure (kind ++ answer)

def messageReader : Reader (List UInt8) :=
  (bytesReader 2).bind fun opCode ↦
    if opCode = ascii "09" then closedReader (ascii "NOTIFICATION ") notificationReader
    else if opCode = ascii "10" then closedReader (ascii "ACK ") ackReader
    else if opCode = ascii "11" then closedReader (ascii "ERROR ") errorReader
    else fail

theorem notificationReader_eq : notificationReader = lift notificationDecoder := by
  funext flags stream
  simp only [notificationReader, notificationDecoder, bytesReader, frameReader, bind_lift,
    pure_apply, lift, Option.map_bind, Function.comp_def, Option.bind_eq_bind, Option.pure_def,
    Option.map_some]

theorem ackReader_eq : ackReader = ackDecoder := by
  funext flags stream
  simp only [ackReader, ackDecoder, bytesReader, frameReader, bind_lift, bind_update, pure_apply,
    ite_apply, Option.bind_eq_bind, Option.pure_def]

theorem errorReader_eq : errorReader = errorDecoder := by
  funext flags stream
  simp only [errorReader, errorDecoder, bytesReader, bind_lift, bind_update, pure_apply,
    Option.bind_eq_bind, Option.pure_def]

theorem decoder_eq_reader : decoder = messageReader := by
  funext flags stream
  simp only [messageReader, closedReader, notificationReader_eq, ackReader_eq, errorReader_eq,
    decoder, bytesReader, StreamReader.bind, lift, Option.bind_map, Function.comp_def, pure_apply,
    ite_apply, fail, Option.bind_eq_bind, Option.pure_def]

theorem stable_bytesReader (n : ℕ) : Stable (bytesReader n) := stable_lift getBytes_append_right

theorem stable_frameReader : Stable frameReader := stable_lift getFrameAscii_append_right

theorem stable_notificationReader : Stable notificationReader :=
  (stable_bytesReader 1).bind fun _ ↦ stable_frameReader.bind fun _ ↦
    stable_frameReader.bind fun _ ↦ stable_pure _

theorem stable_ackReader : Stable ackReader := by
  refine (stable_bytesReader 2).bind fun op ↦ (stable_update _).bind fun _ ↦ ?_
  split_ifs
  · exact (stable_bytesReader 2).bind fun _ ↦ stable_frameReader.bind fun _ ↦
      (stable_bytesReader 1).bind fun _ ↦ stable_pure _
  · exact (stable_bytesReader 2).bind fun _ ↦ (stable_bytesReader 2).bind fun _ ↦
      (stable_bytesReader 2).bind fun _ ↦ (stable_bytesReader 2).bind fun _ ↦ stable_pure _
  · exact stable_pure _

theorem stable_errorReader : Stable errorReader :=
  (stable_bytesReader 2).bind fun _ ↦ (stable_update _).bind fun _ ↦ stable_pure _

theorem stable_closedReader {kind : List UInt8} {content : Reader (List UInt8)}
    (hcontent : Stable content) : Stable (closedReader kind content) :=
  hcontent.bind fun _ ↦ (stable_bytesReader 1).bind fun _ ↦ stable_pure _

/-- **A message is read without a look at what stands behind it.** -/
theorem stable_decoder : Stable decoder := by
  rw [decoder_eq_reader]
  refine (stable_bytesReader 2).bind fun opCode ↦ ?_
  split_ifs
  · exact stable_closedReader stable_notificationReader
  · exact stable_closedReader stable_ackReader
  · exact stable_closedReader stable_errorReader
  · exact stable_fail

/-! ### The end of the socket thread -/

theorem keeps_bytesReader (n : ℕ) : Keeps (bytesReader n) := keeps_lift _

theorem keeps_frameReader : Keeps frameReader := keeps_lift _

theorem keeps_notificationReader : Keeps notificationReader := by
  rw [notificationReader_eq]
  exact keeps_lift _

theorem terminate_ackReader {flags flags' : Flags} {s rest text : List UInt8}
    (h : ackReader flags s = some (flags', text, rest)) (hended : flags'.terminate = true) :
    flags.terminate = true ∨ text = ascii "03 " := by
  obtain ⟨flags₁, op, s₁, hop, hread⟩ := bind_eq_some.1 h
  obtain rfl := keeps_bytesReader 2 hop
  rw [bind_update] at hread
  by_cases hlogout : op = ascii "03"
  · -- the acknowledgement of LOGOUT has nothing behind its opcode
    subst hlogout
    rw [if_neg (by decide), if_neg (by decide), pure_apply] at hread
    exact .inr (congrArg (fun x ↦ x.2.1) (Option.some.inj hread)).symm
  · have hkeeps : flags' = flags₁ := by
      rw [if_neg hlogout] at hread
      split_ifs at hread
      · exact (keeps_bytesReader 2).bind (fun _ ↦ keeps_frameReader.bind fun _ ↦
          (keeps_bytesReader 1).bind fun _ ↦ keeps_pure _) hread
      · exact (keeps_bytesReader 2).bind (fun _ ↦ (keeps_bytesReader 2).bind fun _ ↦
          (keeps_bytesReader 2).bind fun _ ↦ (keeps_bytesReader 2).bind fun _ ↦ keeps_pure _) hread
      · exact keeps_pure _ hread
    exact .inl (hkeeps ▸ hended)

theorem terminate_errorReader {flags flags' : Flags} {s rest text : List UInt8}
    (h : errorReader flags s = some (flags', text, rest)) :
    flags'.terminate = flags.terminate := by
  obtain ⟨flags₁, op, s₁, hop, hread⟩ := bind_eq_some.1 h
  obtain rfl := keeps_bytesReader 2 hop
  rw [bind_update] at hread
  rw [keeps_pure op hread]
  split <;> rfl

/-- A content, and the byte behind it, which changes no flag. -/
theorem closedReader_eq_some {kind : List UInt8} {content : Reader (List UInt8)}
    {flags flags' : Flags} {s rest text : List UInt8}
    (h : closedReader kind content flags s = some (flags', text, rest)) :
    ∃ answer s₁, content flags s = some (flags', answer, s₁) ∧ text = kind ++ answer := by
  obtain ⟨flags₁, answer, s₁, hcontent, hread⟩ := bind_eq_some.1 h
  obtain ⟨flags₂, _, s₂, hbyte, hclosed⟩ := bind_eq_some.1 hread
  obtain rfl := keeps_bytesReader 1 hbyte
  obtain ⟨rfl, rfl, -⟩ := Option.some.inj hclosed
  exact ⟨answer, s₁, hcontent, rfl⟩

/-- **Only the text `ACK 03` ends the loop of the socket thread.** -/
theorem terminate_decoder {flags flags' : Flags} {s rest text : List UInt8}
    (h : decoder flags s = some (flags', text, rest)) (hended : flags'.terminate = true) :
    flags.terminate = true ∨ text = ascii "ACK 03 " := by
  rw [decoder_eq_reader] at h
  obtain ⟨flags₁, opCode, s₁, hop, hread⟩ := bind_eq_some.1 h
  obtain rfl := keeps_bytesReader 2 hop
  split_ifs at hread
  · obtain ⟨answer, s₂, hcontent, -⟩ := closedReader_eq_some hread
    exact .inl (keeps_notificationReader hcontent ▸ hended)
  · obtain ⟨answer, s₂, hcontent, rfl⟩ := closedReader_eq_some hread
    refine (terminate_ackReader hcontent hended).imp_right fun htext ↦ ?_
    rw [htext]
    rfl
  · obtain ⟨answer, s₂, hcontent, -⟩ := closedReader_eq_some hread
    exact .inl ((terminate_errorReader hcontent).symm.trans hended)
  · exact absurd hread (by simp [fail])

/-! ### The messages of the protocol -/

/-- A message to the client. -/
inductive ServerMessage
  | ack (optCode : List UInt8) (length : optCode.length = 2)
    (plain : optCode ∉ [ascii "04", ascii "07", ascii "08"])
  | followAck (action target : List UInt8) (length : action.length = 2) (nulFree : 0 ∉ target)
  | statAck (optCode : List UInt8) (stat : optCode = ascii "07" ∨ optCode = ascii "08")
    (age numOfPosts numOfFollowers numOfFollowing : UInt8 × UInt8)
  | error (optCode : List UInt8) (length : optCode.length = 2)
  | notification (kind : NotificationKind) (postingUser content : List UInt8)
    (nulFree : 0 ∉ postingUser ∧ 0 ∉ content)

namespace ServerMessage

/-- The two bytes of a number of the statistics. -/
def short (n : UInt8 × UInt8) : List UInt8 := [n.1, n.2]

def bytes : ServerMessage → List UInt8
  | ack optCode _ _ => ascii "10" ++ (optCode ++ [Decoder.semicolon])
  | followAck action target _ _ =>
    ascii "10" ++ (ascii "04" ++ (action ++ (target ++ 0 :: 0 :: [Decoder.semicolon])))
  | statAck optCode _ age numOfPosts numOfFollowers numOfFollowing =>
    ascii "10" ++ (optCode ++ (short age ++ (short numOfPosts ++ (short numOfFollowers ++
      (short numOfFollowing ++ [Decoder.semicolon])))))
  | error optCode _ => ascii "11" ++ (optCode ++ [Decoder.semicolon])
  | notification kind postingUser content _ =>
    ascii "09" ++ ((match kind with | .post => 0x31 | .pm => 0x30) ::
      (postingUser ++ 0 :: (content ++ 0 :: [Decoder.semicolon])))

theorem length_logout : (ascii "03").length = 2 := rfl

/-- The acknowledgement of LOGOUT. -/
def logoutAck : ServerMessage := ack (ascii "03") length_logout (by decide)

/-- The text the client shows. -/
def display : ServerMessage → List UInt8
  | ack optCode _ _ => ascii "ACK " ++ (optCode ++ ascii " ")
  | followAck action target _ _ => ascii "ACK " ++ (ascii "04 " ++ action ++ ascii " " ++ target)
  | statAck optCode _ age numOfPosts numOfFollowers numOfFollowing =>
    ascii "ACK " ++ (optCode ++ ascii " " ++ toDecimal (bytesToShort (short age)) ++ ascii " " ++
      toDecimal (bytesToShort (short numOfPosts)) ++ ascii " " ++
      toDecimal (bytesToShort (short numOfFollowers)) ++ ascii " " ++
      toDecimal (bytesToShort (short numOfFollowing)))
  | error optCode _ => ascii "ERROR " ++ optCode
  | notification kind postingUser content _ =>
    ascii "NOTIFICATION " ++ (kind.display ++ (postingUser ++ ascii " ") ++ content)

/-- What the client does to its flags. -/
def effect (m : ServerMessage) (flags : Flags) : Flags :=
  match m with
  | ack optCode _ _ => if optCode = ascii "03" then { flags with terminate := true } else flags
  | error optCode _ => if optCode = ascii "03" then { flags with logoutFailed := true } else flags
  | _ => flags

/-- The client reads a message from exactly its bytes. -/
theorem decoder_bytes (flags : Flags) (m : ServerMessage) (rest : List UInt8) :
    decoder flags (m.bytes ++ rest) = some (m.effect flags, m.display, rest) := by
  cases m with
  | ack optCode length plain =>
    simp only [bytes, List.append_assoc, List.singleton_append]
    exact decoder_ack length plain
  | followAck action target length nulFree =>
    simp only [bytes, List.append_assoc, List.cons_append, List.nil_append]
    exact decoder_followAck length nulFree
  | statAck optCode stat age numOfPosts numOfFollowers numOfFollowing =>
    simp only [bytes, List.append_assoc, List.singleton_append]
    exact decoder_statAck stat rfl rfl rfl rfl Decoder.semicolon
  | error optCode length =>
    simp only [bytes, List.append_assoc, List.singleton_append]
    exact decoder_error length
  | notification kind postingUser content nulFree =>
    simp only [bytes, List.append_assoc, List.cons_append, List.nil_append]
    exact decoder_notification kind nulFree.1 nulFree.2

/-- **A message that is cut is not read.** -/
theorem decoder_eq_none_of_cut (flags : Flags) (m : ServerMessage) {cut : List UInt8}
    (hcut : cut <+: m.bytes) (hne : cut ≠ m.bytes) : decoder flags cut = none := by
  have hall := decoder_bytes flags m []
  rw [List.append_nil] at hall
  exact stable_decoder.eq_none_of_cut hall hcut hne

/-- Only the acknowledgement of LOGOUT ends the loop of the socket thread. -/
theorem terminate_effect (m : ServerMessage) (flags : Flags) :
    (m.effect flags).terminate = true ↔ flags.terminate = true ∨ m = logoutAck := by
  cases m with
  | ack optCode length plain =>
    by_cases h : optCode = ascii "03"
    · subst h
      simp [effect, logoutAck]
    · simp [effect, logoutAck, h]
  | error optCode length =>
    rw [effect]
    split_ifs <;> simp [logoutAck]
  | followAck _ _ _ _ => simp [effect, logoutAck]
  | statAck _ _ _ _ _ _ => simp [effect, logoutAck]
  | notification _ _ _ _ => simp [effect, logoutAck]

/-- No text is empty, and none is `ACK 03`: the text of that acknowledgement ends with a blank. -/
theorem six_lt_length_display (m : ServerMessage) : 6 < m.display.length := by
  cases m with
  | ack optCode length plain =>
    rw [display, List.length_append, List.length_append, length]
    decide
  | followAck action target length nulFree =>
    simp only [display, List.length_append, length]
    have h : (ascii "ACK ").length = 4 ∧ (ascii "04 ").length = 3 := by decide
    omega
  | statAck optCode stat age numOfPosts numOfFollowers numOfFollowing =>
    have h : (ascii "ACK ").length = 4 ∧ (ascii " ").length = 1 := by decide
    have hlen : optCode.length = 2 := by rcases stat with rfl | rfl <;> rfl
    simp only [display, List.length_append]
    omega
  | error optCode length =>
    rw [display, List.length_append, length]
    decide
  | notification kind postingUser content nulFree =>
    have h : (ascii "NOTIFICATION ").length = 13 := by decide
    simp only [display, List.length_append]
    omega

end ServerMessage

end SplNet.Client
