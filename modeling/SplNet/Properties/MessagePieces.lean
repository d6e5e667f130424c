import SplNet.Client.SocketPieces

/-!
# Messages in pieces

What the server sends is a list of messages; what has arrived is any beginning of their bytes, and
it has arrived in any pieces. **The decoder reads the messages that have arrived completely, one
after the other, and no other one** (`messages_in_pieces`): where the network has cut the stream
makes no difference.
-/

namespace SplNet.Client

open StreamReader

namespace Pieces

/-! ### The decoder flattens if its reads do -/

section Flattening

variable {bytes : ℕ → StreamReader Flags (List UInt8) (List UInt8)}
  {frame : StreamReader Flags (List UInt8) (List UInt8)} {bytes' : ℕ → Reader (List UInt8)}
  {frame' : Reader (List UInt8)}

theorem flattens_notificationDecoderOver (hbytes : ∀ n, Flattens (bytes n) (bytes' n))
    (hframe : Flattens frame frame') :
    Flattens (notificationDecoderOver bytes frame) (notificationDecoderOver bytes' frame') :=
  (hbytes 1).bind fun _ ↦ hframe.bind fun _ ↦ hframe.bind fun _ ↦ .pure _

theorem flattens_ackDecoderOver (hbytes : ∀ n, Flattens (bytes n) (bytes' n))
    (hframe : Flattens frame frame') :
    Flattens (ackDecoderOver bytes frame) (ackDecoderOver bytes' frame') := by
  refine (hbytes 2).bind fun op ↦ (Flattens.update _).bind fun _ ↦ ?_
  split_ifs
  · exact (hbytes 2).bind fun _ ↦ hframe.bind fun _ ↦ (hbytes 1).bind fun _ ↦ .pure _
  · exact (hbytes 2).bind fun _ ↦ (hbytes 2).bind fun _ ↦ (hbytes 2).bind fun _ ↦
      (hbytes 2).bind fun _ ↦ .pure _
  · exact .pure _

theorem flattens_errorDecoderOver (hbytes : ∀ n, Flattens (bytes n) (bytes' n)) :
    Flattens (errorDecoderOver bytes) (errorDecoderOver bytes') :=
  (hbytes 2).bind fun _ ↦ (Flattens.update _).bind fun _ ↦ .pure _

theorem flattens_closedOver (hbytes : ∀ n, Flattens (bytes n) (bytes' n)) (kind : List UInt8)
    {content : StreamReader Flags (List UInt8) (List UInt8)} {content' : Reader (List UInt8)}
    (hcontent : Flattens content content') :
    Flattens (closedOver bytes kind content) (closedOver bytes' kind content') :=
  hcontent.bind fun _ ↦ (hbytes 1).bind fun _ ↦ .pure _

theorem flattens_decoderOver (hbytes : ∀ n, Flattens (bytes n) (bytes' n))
    (hframe : Flattens frame frame') :
    Flattens (decoderOver bytes frame) (decoderOver bytes' frame') := by
  refine (hbytes 2).bind fun opCode ↦ ?_
  split_ifs
  · exact flattens_closedOver hbytes _ (flattens_notificationDecoderOver hbytes hframe)
  · exact flattens_closedOver hbytes _ (flattens_ackDecoderOver hbytes hframe)
  · exact flattens_closedOver hbytes _ (flattens_errorDecoderOver hbytes)
  · exact .fail

end Flattening

/-- **The pieces make no difference to a message.** -/
theorem flattens_decoder : Flattens decoder Client.decoder := by
  rw [← decoderOver_reads]
  exact flattens_decoderOver (fun n ↦ .lift (getBytes_flatten n)) (.lift (getFrameAscii_flatten 0))

end Pieces

/-! ### The messages that have arrived -/

/-- What the messages do to the flags, one after the other. -/
def effects (messages : List ServerMessage) (flags : Flags) : Flags :=
  messages.foldl (fun flags m ↦ m.effect flags) flags

theorem times_decoder_bytes (messages : List ServerMessage) (flags : Flags) (rest : List UInt8) :
    times decoder messages.length flags (messages.flatMap ServerMessage.bytes ++ rest) =
      some (effects messages flags, messages.map ServerMessage.display, rest) := by
  induction messages generalizing flags with
  | nil => rfl
  | cons m messages ih =>
    rw [List.flatMap_cons, List.append_assoc]
    exact times_succ_eq_some (m.decoder_bytes flags _) (ih (m.effect flags))

theorem times_decoder_cut (messages : List ServerMessage) (flags : Flags) {m : ServerMessage}
    {cut : List UInt8} (hcut : cut <+: m.bytes) (hne : cut ≠ m.bytes) :
    times decoder (messages.length + 1) flags (messages.flatMap ServerMessage.bytes ++ cut) =
      none := by
  induction messages generalizing flags with
  | nil => exact times_succ_eq_none (m.decoder_eq_none_of_cut flags hcut hne)
  | cons m' messages ih =>
    rw [List.flatMap_cons, List.append_assoc]
    exact times_succ_eq_none_of_rest (m'.decoder_bytes flags _) (ih (m'.effect flags))

/-- **What is read is what has arrived completely.** Some messages have arrived, and of the next one
a beginning, cut into any pieces: the decoder reads the texts of these messages in order, sets the
flags as they say and leaves the beginning of the next one, and it does not read another message. -/
theorem messages_in_pieces (flags : Flags) {messages : List ServerMessage} {m : ServerMessage}
    {cut : List UInt8} {pieces : List (List UInt8)} (hcut : cut <+: m.bytes) (hne : cut ≠ m.bytes)
    (h : pieces.flatten = messages.flatMap ServerMessage.bytes ++ cut) :
    (times Pieces.decoder messages.length flags pieces).map flat =
        some (effects messages flags, messages.map ServerMessage.display, cut) ∧
      times Pieces.decoder (messages.length + 1) flags pieces = none := by
  constructor
  · rw [Pieces.flattens_decoder.times messages.length flags pieces, h]
    exact times_decoder_bytes messages flags cut
  · have hread := Pieces.flattens_decoder.times (messages.length + 1) flags pieces
    rw [h, times_decoder_cut messages flags hcut hne] at hread
    exact Option.map_eq_none_iff.1 hread

/-- The acknowledgement of LOGIN. -/
def loginAck : ServerMessage := .ack (ascii "02") (by decide) (by decide)

/-- The acknowledgement of LOGIN and the first byte of another message, in pieces. -/
def loginInPieces : List (List UInt8) := [[0x31], [0x30], [0x30, 0x32], [], [0x3B, 0x31]]

theorem messages_in_pieces_login :
    (times Pieces.decoder 1 ⟨false, false, false⟩ loginInPieces).map flat =
        some (⟨false, false, false⟩, [ascii "ACK 02 "], [0x31]) ∧
      times Pieces.decoder 2 ⟨false, false, false⟩ loginInPieces = none :=
  @messages_in_pieces ⟨false, false, false⟩ [loginAck] ServerMessage.logoutAck [0x31] loginInPieces
    (by decide) (by decide) (by decide)

end SplNet.Client
