import Mathlib.Data.List.Forall2
import SplNet.Api.BidiMessagingProtocolImpl
import SplNet.Client.CommandLines

/-!
# From the client to the server

The two ends of the format from the client to the server: what `Encoder` sends for a list of command
lines, and what `decodeNextByte` and the argument extraction of `process` make of it. They agree on
every list of commands, except that a frame of more than `1 << 30` bytes makes the decoder throw
(`client_to_server_iff`). What the handlers do with a text that holds the arguments of a command is
said for each of them (`processRegister_of_arguments` and the lemmas behind it).
-/

namespace SplNet

open Java Client

/-- The message carries the command: its opcode, and its arguments behind it. -/
def Carries (c : Command) (message : JString) : Prop :=
  ∃ text, substring message 0 2 = .ok (toText c.optCode) ∧ substringFrom message 2 = .ok text ∧
    c.Arguments text

theorem carries_frame (c : Command) : Carries c (utf8Decode c.frame) := by
  have hlen : (toText c.optCode).length = 2 := by cases c <;> rfl
  refine ⟨toText c.body, ?_, ?_, c.arguments_body⟩
  · rw [c.utf8Decode_frame, substring, if_pos]
    · exact congrArg Except.ok (List.take_left' hlen)
    · rw [List.length_append]
      omega
  · rw [c.utf8Decode_frame]
    have h := substringFrom_of_le (s := toText c.optCode ++ toText c.body) (n := 2)
      (by rw [List.length_append]; omega)
    rw [List.drop_left' hlen] at h
    exact h

/-! ### What the handlers do with the arguments -/

section Handlers

variable {env : Surroundings} {connectionId : ℤ} {s : Server} {text : JString}

/-- REGISTER looks for the username, and adds a user with the three words. -/
theorem processRegister_of_arguments {u p b : Word}
    (h : (Command.register u p b).Arguments text) :
    processRegister env connectionId s text =
      if (env.users s).any fun r ↦ contains (s.user r).username (toText u.bytes) then
        s.send connectionId (str "1101")
      else (s.putUser (toText u.bytes)
        (User.new (toText u.bytes) (toText p.bytes) (toText b.bytes))).send connectionId
          (str "1001") := by
  have hsplit : split text nul = [toText u.bytes, toText p.bytes, toText b.bytes] := h
  rw [processRegister, hsplit]

/-- LOGIN looks for the username, and compares the password and the captcha. -/
theorem processLogin_of_arguments {u p c : Word} (h : (Command.login u p c).Arguments text) :
    processLogin env connectionId s text =
      (env.findContaining s (toText u.bytes)).elim (s.send connectionId (str "1102")) fun user ↦
        if (s.user user).password = toText p.bytes ∧ toText c.bytes = str "1" ∧
            (s.user user).isActivated = false then
          ((startSession connectionId s (toText u.bytes) user).send connectionId
            (str "1002")).andThen fun s ↦ replay connectionId [] 0 s (s.user user).awaitingPosts
        else s.send connectionId (str "1102") := by
  have hsplit : split text nul = [toText u.bytes, toText p.bytes, toText c.bytes] := h
  simp only [processLogin, hsplit]
  rcases env.findContaining s (toText u.bytes) with - | user
  · rfl
  · rfl

/-- The text of FOLLOW is the letter and the username. -/
theorem eq_of_follow_arguments {a : Letter} {u : Word}
    (h : (Command.follow a u).Arguments text) :
    text = a.byte.toUInt16 :: (toText u.bytes ++ [nul]) := by
  obtain ⟨hletter, hname⟩ := h
  rcases text with - | ⟨action, rest⟩
  · simp [substring] at hletter
  · obtain ⟨-, hrest⟩ := (substringFrom_eq_ok_iff (n := 1)).1 hname
    rw [substring, if_pos (by rw [List.length_cons]; omega)] at hletter
    have haction : [action] = toText [a.byte] := Except.ok.inj hletter
    rw [← List.singleton_append, haction, ← List.singleton_append, hrest]
    rfl

/-- FOLLOW looks for the username, and compares the letter. -/
theorem processFollow_of_arguments {a : Letter} {u : Word}
    (h : (Command.follow a u).Arguments text) :
    processFollow env connectionId s text =
      (env.findContained s (toText u.bytes ++ [nul])).elim (s.send connectionId (str "1104"))
        fun other ↦ (env.findActive s connectionId).elim (.done s) fun my ↦
          if (s.user my).isActivated then
            if a.byte.toUInt16 = char '0' ∧ other ∉ (s.user my).followers ∧
                my ∉ (s.user other).blockingUsers then
              (s.modifyUser my fun u ↦ (u.addFollower other).incrementFollowing).send
                connectionId (str "100400" ++ (toText u.bytes ++ [nul]) ++ [nul])
            else if a.byte.toUInt16 = char '1' ∧ other ∈ (s.user my).followers then
              (s.modifyUser my fun u ↦ (u.removeFollower other).decreaseFollowing).send
                connectionId (str "100401" ++ (toText u.bytes ++ [nul]) ++ [nul])
            else s.send connectionId (str "1104")
          else .done s := by
  rw [eq_of_follow_arguments h]
  simp only [processFollow]
  rcases env.findContained s (toText u.bytes ++ [nul]) with - | other
  · rfl
  · rcases env.findActive s connectionId with - | my
    · rfl
    · rfl

/-- POST delivers the text. -/
theorem processPost_of_arguments {t : Text} (h : (Command.post t).Arguments text) :
    processPost env connectionId s text =
      (env.findActive s connectionId).elim (s.send connectionId (str "1105")) fun my ↦
        let deliver := deliverPost (s.user my).username (toText t.bytes)
        (Outcome.forEach deliver s
          ((env.users s).filter fun r ↦ my ∈ (s.user r).followers)).andThen fun s' ↦
            (Outcome.forEach deliver s'
              (dropFollowers s my (mentionedUsers env s (toText t.bytes)))).andThen fun s'' ↦
                s''.send connectionId (str "1005") := by
  have hcut : substring text 0 (text.length - 1) = .ok (toText t.bytes) := h
  simp only [processPost, hcut]
  rcases env.findActive s connectionId with - | my
  · rfl
  · rfl

/-- PM looks for the recipient in the username, the blank and the text, and filters all three. -/
theorem processPm_of_arguments {u : Word} {t : Text} (h : (Command.pm u t).Arguments text) :
    let message := toText u.bytes ++ [space] ++ toText t.bytes
    processPm env connectionId s text =
      (sessionVariable env connectionId s).elim (s.send connectionId (str "1106")) fun my ↦
        (recipientVariable env s message).elim (s.send connectionId (str "1106")) fun other ↦
          if other ∉ (s.user my).followers ∨ my ∈ (s.user other).blockingUsers then
            s.send connectionId (str "1106")
          else
            let filtered := filterWords env s message
            if (s.user other).username.length + 1 ≤ filtered.length then
              (s.send (s.user other).connId
                (notification (str "090") (s.user my).username
                  (filtered.drop ((s.user other).username.length + 1)))).andThen fun s ↦
                    s.send connectionId (str "1006")
            else .throws s .stringIndexOutOfBounds := by
  intro message
  have hcut : substring text 0 (text.length - 1) = .ok message := h
  simp only [processPm, hcut]
  rcases sessionVariable env connectionId s with - | my
  · rfl
  · rcases recipientVariable env s message with - | other
    · rfl
    · have hcast : ((s.user other).username.length : ℤ) + 1 =
          ((s.user other).username.length + 1 : ℕ) := rfl
      refine if_congr Iff.rfl rfl ?_
      rw [hcast]
      rcases Nat.lt_or_ge (filterWords env s message).length ((s.user other).username.length + 1)
        with hlt | hle
      · rw [substringFrom_of_lt hlt]
        exact (if_neg (Nat.not_le.2 hlt)).symm
      · rw [substringFrom_of_le hle]
        exact (if_pos hle).symm

/-- BLOCK looks for the username. -/
theorem processBlock_of_arguments {u : Word} (h : (Command.block u).Arguments text) :
    processBlock env connectionId s text =
      (env.findActive s connectionId).elim (s.send connectionId (str "1112")) fun my ↦
        (env.findContained s (toText u.bytes ++ [nul])).elim (s.send connectionId (str "1112"))
          fun other ↦
            if other ∉ (s.user my).blockingUsers then
              (blockUser s my other).send connectionId (str "1012")
            else s.send connectionId (str "1112") := by
  have htext : text = toText u.bytes ++ [nul] := h
  rw [htext]
  simp only [processBlock, Command.substring_dropLast_append_nul]
  rcases env.findActive s connectionId with - | my
  · rfl
  · rcases env.findContained s (toText u.bytes ++ [nul]) with - | other
    · rfl
    · rfl

end Handlers

/-- The bytes of the command lines, sent one after the other. -/
def sentBytes (commands : List Command) : List UInt8 :=
  commands.flatMap fun c ↦ encodedLine c.line

theorem sentBytes_eq (commands : List Command) :
    sentBytes commands =
      (commands.map Command.frame).flatMap fun frame ↦ frame ++ [Decoder.semicolon] := by
  rw [sentBytes, List.flatMap_map]
  exact List.flatMap_congr fun c _ ↦ c.encodedLine_line

theorem semicolon_not_mem_frames {commands : List Command} :
    ∀ frame ∈ commands.map Command.frame, Decoder.semicolon ∉ frame := by
  rintro frame hframe hmem
  obtain ⟨c, -, rfl⟩ := List.mem_map.1 hframe
  exact (c.isFrame_frame _ hmem).2 rfl

/-- Frames up to the limit arrive as one message each. -/
theorem decodeBytes_sentBytes {commands : List Command}
    (h : ∀ c ∈ commands, c.frame.length ≤ Decoder.frameLimit) :
    ∃ d, Decoder.new.decodeBytes (sentBytes commands) =
        some (d, commands.map fun c ↦ utf8Decode c.frame) := by
  have hframes : ∀ frame ∈ commands.map Command.frame,
      Decoder.semicolon ∉ frame ∧ frame.length ≤ Decoder.frameLimit := by
    rintro frame hframe
    refine ⟨semicolon_not_mem_frames frame hframe, ?_⟩
    obtain ⟨c, hc, rfl⟩ := List.mem_map.1 hframe
    exact h c hc
  obtain ⟨d, hdecode, -, -⟩ := Decoder.decodeBytes_frames Decoder.wellSized_new rfl hframes
  rw [← sentBytes_eq, List.map_map] at hdecode
  exact ⟨d, hdecode⟩

/-- A frame over the limit throws. -/
theorem decodeBytes_sentBytes_of_too_long {commands : List Command} {c : Command}
    (hc : c ∈ commands) (hlen : Decoder.frameLimit < c.frame.length) :
    Decoder.new.decodeBytes (sentBytes commands) = none := by
  rw [sentBytes_eq]
  exact Decoder.decodeBytes_frames_of_too_long Decoder.wellSized_new rfl semicolon_not_mem_frames
    (List.mem_map_of_mem hc) hlen

/-- **The two ends agree** on a list of command lines exactly when no frame is over the limit: there
is one message for each line, in order, and it carries the command of the line. -/
theorem client_to_server_iff (commands : List Command) :
    (∃ d messages, Decoder.new.decodeBytes (sentBytes commands) = some (d, messages) ∧
        List.Forall₂ Carries commands messages) ↔
      ∀ c ∈ commands, c.frame.length ≤ Decoder.frameLimit := by
  constructor
  · rintro ⟨d, messages, hdecode, -⟩ c hc
    by_contra hlen
    rw [decodeBytes_sentBytes_of_too_long hc (Nat.lt_of_not_le hlen)] at hdecode
    exact absurd hdecode (by simp)
  · intro h
    obtain ⟨d, hdecode⟩ := decodeBytes_sentBytes h
    refine ⟨d, _, hdecode, ?_⟩
    rw [List.forall₂_map_right_iff]
    exact List.forall₂_same.2 fun c _ ↦ carries_frame c

/-- A text of letters. -/
def letters (n : ℕ) : Text :=
  ⟨List.replicate n 0x61, fun c hc ↦ by rw [List.eq_of_mem_replicate hc]; decide⟩

theorem frame_post_letters_length (n : ℕ) : (Command.post (letters n)).frame.length = n + 3 := by
  have hop : (Command.post (letters n)).optCode.length = 2 := rfl
  rw [Command.frame, List.length_append, hop, Command.body, List.length_append, letters,
    List.length_replicate, List.length_singleton]
  omega

/-- A post of `1 << 30` letters is not carried: its frame is over the limit. -/
theorem long_post_not_carried :
    ¬ ∃ d messages,
      Decoder.new.decodeBytes (sentBytes [.post (letters 0x40000000)]) = some (d, messages) ∧
        List.Forall₂ Carries [.post (letters 0x40000000)] messages := by
  rintro ⟨d, messages, hdecode, -⟩
  have hlen : Decoder.frameLimit < (Command.post (letters 0x40000000)).frame.length := by
    rw [frame_post_letters_length, Decoder.frameLimit]
    omega
  rw [decodeBytes_sentBytes_of_too_long List.mem_cons_self hlen] at hdecode
  exact absurd hdecode (by simp)

end SplNet
