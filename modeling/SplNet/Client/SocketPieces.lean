import SplNet.Foundations.SegmentedStream
import SplNet.Client.MessageReader

/-!
# A stream that arrives in pieces

`getBytes` asks the socket again and again: each `read_some` takes some of what has arrived, and the
loop goes on until the bytes are complete. The stream is the list of what has arrived between two
calls. **`getBytes` reads the same bytes however the stream is cut** (`getBytes_flatten`), and so
does the loop of `getFrameAscii` (`getFrameAscii_flatten`).

A reader that would read behind the last piece has no result. What the client does there is the
subject of `Socket`.
-/

namespace SplNet.Client.Pieces

open StreamReader

/-- The loop of `getBytes`: each `read_some` takes a piece, or as much of it as is missing. -/
def getBytes : ℕ → List (List UInt8) → Option (List UInt8 × List (List UInt8))
  | 0, pieces => some ([], pieces)
  | _ + 1, [] => none
  | n + 1, piece :: pieces =>
    if piece.length ≤ n + 1 then
      (getBytes (n + 1 - piece.length) pieces).map fun (bytes, rest) ↦ (piece ++ bytes, rest)
    else some (piece.take (n + 1), piece.drop (n + 1) :: pieces)

/-- The loop of `getFrameAscii`, one byte an iteration. -/
def frameLoop (delimiter : UInt8) : ℕ → List (List UInt8) →
    Option (List UInt8 × List (List UInt8))
  | 0, _ => none
  | iterations + 1, pieces => do
    let (ch, pieces) ← getBytes 1 pieces
    if [delimiter] = ch then return (ch, pieces)
    let (frame, pieces) ← frameLoop delimiter iterations pieces
    return (ch ++ frame, pieces)

/-- `getFrameAscii`. There are no more iterations than bytes. -/
def getFrameAscii (delimiter : UInt8) (pieces : List (List UInt8)) :
    Option (List UInt8 × List (List UInt8)) :=
  frameLoop delimiter pieces.flatten.length pieces

/-! ### The decoder, above any two reads -/

section Decoder

variable {σ : Type} (bytes : ℕ → StreamReader Flags σ (List UInt8))
  (frame : StreamReader Flags σ (List UInt8))

def notificationDecoderOver : StreamReader Flags σ (List UInt8) :=
  (bytes 1).bind fun stat ↦ frame.bind fun postingUser ↦ frame.bind fun content ↦
    .pure ((if stat = ascii "1" then ascii "Public " else ascii "PM ") ++
      (postingUser.dropLast ++ ascii " ") ++ content.dropLast)

def ackDecoderOver : StreamReader Flags σ (List UInt8) :=
  (bytes 2).bind fun op ↦
    (update fun flags ↦ if op = ascii "03" then { flags with terminate := true } else flags).bind
      fun _ ↦
    if op = ascii "04" then
      (bytes 2).bind fun action ↦ frame.bind fun userName ↦ (bytes 1).bind fun _ ↦
        .pure (op ++ ascii " " ++ action ++ ascii " " ++ userName.dropLast)
    else if op = ascii "07" ∨ op = ascii "08" then
      (bytes 2).bind fun age ↦ (bytes 2).bind fun numOfPosts ↦
      (bytes 2).bind fun numOfFollowers ↦ (bytes 2).bind fun numOfFollowing ↦
        .pure (op ++ ascii " " ++ toDecimal (bytesToShort age) ++ ascii " " ++
          toDecimal (bytesToShort numOfPosts) ++ ascii " " ++
          toDecimal (bytesToShort numOfFollowers) ++ ascii " " ++
          toDecimal (bytesToShort numOfFollowing))
    else .pure (op ++ ascii " ")

def errorDecoderOver : StreamReader Flags σ (List UInt8) :=
  (bytes 2).bind fun arg ↦
    (update fun flags ↦
      if arg = ascii "03" then { flags with logoutFailed := true } else flags).bind fun _ ↦
        .pure arg

/-- A content, and the byte behind it. -/
def closedOver (kind : List UInt8) (content : StreamReader Flags σ (List UInt8)) :
    StreamReader Flags σ (List UInt8) :=
  content.bind fun answer ↦ (bytes 1).bind fun _ ↦ .pure (kind ++ answer)

def decoderOver : StreamReader Flags σ (List UInt8) :=
  (bytes 2).bind fun opCode ↦
    if opCode = ascii "09" then
      closedOver bytes (ascii "NOTIFICATION ") (notificationDecoderOver bytes frame)
    else if opCode = ascii "10" then closedOver bytes (ascii "ACK ") (ackDecoderOver bytes frame)
    else if opCode = ascii "11" then closedOver bytes (ascii "ERROR ") (errorDecoderOver bytes)
    else fail

end Decoder

theorem decoderOver_reads : decoderOver bytesReader frameReader = Client.decoder :=
  decoder_eq_reader.symm

/-- `decoder` on a stream that arrives in pieces. -/
def decoder : StreamReader Flags (List UInt8) (List UInt8) :=
  decoderOver (fun bytesToRead ↦ lift (getBytes bytesToRead)) (lift (getFrameAscii 0))

/-! ### The reads -/

theorem getBytes_flatten (n : ℕ) (pieces : List (List UInt8)) :
    (getBytes n pieces).map (fun x ↦ (x.1, x.2.flatten)) = Client.getBytes n pieces.flatten := by
  induction pieces generalizing n with
  | nil =>
    cases n with
    | zero => rfl
    | succ n => rfl
  | cons piece pieces ih =>
    cases n with
    | zero => rfl
    | succ n =>
      rw [getBytes, List.flatten_cons]
      split
      case isTrue hle =>
        -- the piece is not enough: the bytes that are missing come from the other pieces
        rw [Option.map_map]
        have hrest := ih (n + 1 - piece.length)
        rcases hread : getBytes (n + 1 - piece.length) pieces with - | ⟨bytes, rest⟩
        · rw [hread] at hrest
          have hshort : ¬ n + 1 - piece.length ≤ pieces.flatten.length := fun hle' ↦ by
            rw [Client.getBytes, if_pos hle'] at hrest
            exact Option.some_ne_none _ hrest.symm
          rw [Client.getBytes, if_neg (by rw [List.length_append]; omega)]
          rfl
        · rw [hread] at hrest
          have hlong : n + 1 - piece.length ≤ pieces.flatten.length := by
            refine Classical.not_not.1 fun hshort ↦ ?_
            rw [Client.getBytes, if_neg hshort] at hrest
            exact Option.some_ne_none _ hrest
          rw [Client.getBytes, if_pos hlong] at hrest
          obtain ⟨rfl, hflat⟩ := Prod.mk.inj (Option.some.inj hrest)
          rw [Client.getBytes, if_pos (by rw [List.length_append]; omega), List.take_append,
            List.drop_append, List.take_of_length_le hle, List.drop_of_length_le hle]
          exact congrArg some (Prod.ext rfl hflat)
      case isFalse hlt =>
        have hlt : n + 1 ≤ piece.length := by omega
        rw [Client.getBytes, if_pos (by rw [List.length_append]; omega),
          List.take_append_of_le_length hlt, List.drop_append_of_le_length hlt]
        rfl

/-- The loop reads the frame if it may run once for every byte. -/
theorem frameLoop_flatten (delimiter : UInt8) {iterations : ℕ} {pieces : List (List UInt8)}
    (h : pieces.flatten.length ≤ iterations) :
    (frameLoop delimiter iterations pieces).map (fun x ↦ (x.1, x.2.flatten)) =
      Client.getFrameAscii delimiter pieces.flatten := by
  induction iterations generalizing pieces with
  | zero =>
    rw [List.length_eq_zero_iff.1 (Nat.le_zero.1 h)]
    rfl
  | succ iterations ih =>
    have hread := getBytes_flatten 1 pieces
    rw [frameLoop]
    rcases hpieces : pieces.flatten with - | ⟨ch, stream⟩
    · rw [hpieces] at hread
      rw [Option.map_eq_none_iff.1 hread]
      rfl
    · rw [hpieces] at hread
      obtain ⟨⟨bytes, rest⟩, hget, heq⟩ := Option.map_eq_some_iff.1 hread
      obtain ⟨rfl, hrest⟩ := Prod.mk.inj heq
      have hdrop : rest.flatten = stream := hrest
      have hlen : rest.flatten.length ≤ iterations := by
        rw [hpieces] at h
        rw [hdrop]
        exact Nat.le_of_succ_le_succ h
      rw [hget, Client.getFrameAscii, ← hdrop, ← ih hlen]
      rcases eq_or_ne delimiter ch with rfl | hne
      · rw [if_pos rfl]
        exact congrArg (Option.map _) (if_pos rfl)
      · rw [if_neg hne]
        refine (congrArg (Option.map _) (if_neg fun heq ↦ hne (List.cons.inj heq).1)).trans ?_
        rcases frameLoop delimiter iterations rest with - | ⟨frame, left⟩
        · rfl
        · rfl

theorem getFrameAscii_flatten (delimiter : UInt8) (pieces : List (List UInt8)) :
    (getFrameAscii delimiter pieces).map (fun x ↦ (x.1, x.2.flatten)) =
      Client.getFrameAscii delimiter pieces.flatten :=
  frameLoop_flatten delimiter le_rfl

end SplNet.Client.Pieces
