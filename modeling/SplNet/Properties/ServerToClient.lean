import Mathlib.Data.List.Forall2
import SplNet.Properties.Replies
import SplNet.Srv.ClientRequests

/-!
# From the server to the client

The two ends of the format from the server to the client. Whatever the server sends for a request of
the client is an `Answer`, and the right one for that request (`rightAnswer_of_sent`); and answers
are read in step. So the client reads **any list of messages sent to it** from the bytes they are
encoded to, one message a call, and shows the right text for each (`server_to_client`).

The statistics (07 and 08) are left out: their messages have a format of their own.
-/

namespace SplNet

open Java Client

/-! ### The right answer -/

/-- The answer suits the request: it acknowledges or refuses the request's own opcode on its own
connection, a FOLLOW is echoed, and the notifications have the author and the content of the post,
of the queued post or of the private message. -/
inductive RightAnswer (env : Surroundings) (connectionId : ℤ) (s : Server) :
    JString → JString → ℤ → Answer → Prop
  | ack {text : JString} (op : Opcode) (plain : op.text ∉ [str "04", str "07", str "08"]) :
      RightAnswer env connectionId s op.text text connectionId (.ack op plain)
  | error {text : JString} (op : Opcode) :
      RightAnswer env connectionId s op.text text connectionId (.error op)
  | follow (target : NulFree) : RightAnswer env connectionId s (str "04")
      (char '0' :: (target.1 ++ [nul])) connectionId (.followAck false target)
  | unfollow (target : NulFree) : RightAnswer env connectionId s (str "04")
      (char '1' :: (target.1 ++ [nul])) connectionId (.followAck true target)
  | post {d : ℤ} {my : UserRef} {author content : NulFree}
      (h : PostAccepts env connectionId s (content.1 ++ [nul]) my)
      (hauthor : author.1 = (s.user my).username) :
      RightAnswer env connectionId s (str "05") (content.1 ++ [nul]) d
        (.notification .post author content)
  | replay {text username : JString} {r : UserRef} {author content : NulFree}
      (h : LoginAccepts env s text username r)
      (hmem : notification (str "091") author.1 content.1 ∈
        replayMessages [] (s.user r).awaitingPosts) :
      RightAnswer env connectionId s (str "02") text connectionId
        (.notification .post author content)
  | pm {d : ℤ} {text : JString} {my other : UserRef} {author content : NulFree}
      (h : PmAccepts env connectionId s text my other content.1)
      (hauthor : author.1 = (s.user my).username) :
      RightAnswer env connectionId s (str "06") text d (.notification .pm author content)

section Requests

variable {env : Surroundings} {connectionId d : ℤ} {s : Server} {text m : JString}

/-- The opcode of a request. -/
def requestOpcode {optCode : JString} (h : optCode ∈ requestOpcodes) : Opcode where
  text := optCode
  length := length_of_mem_requestOpcodes h
  isAscii := by
    have hascii : ∀ op ∈ requestOpcodes, ∀ c ∈ op, c.toNat < 0x80 := by decide
    exact hascii optCode h

theorem rightAnswer_of_refusal {optCode : JString} {o : Outcome}
    (h : Refusal connectionId s optCode o) (hop : optCode ∈ requestOpcodes)
    (hm : (d, m) ∈ o.sent) :
    ∃ a : Answer, RightAnswer env connectionId s optCode text d a ∧ m = a.message := by
  rcases h.sent_eq with hsent | hsent
  · rw [hsent] at hm
    obtain ⟨rfl, rfl, -⟩ := Server.mem_delivery.1 hm
    exact ⟨.error (requestOpcode hop), .error (requestOpcode hop), rfl⟩
  · rw [hsent] at hm
    exact absurd hm List.not_mem_nil

theorem rightAnswer_of_ack (optCode : JString) (hop : optCode ∈ requestOpcodes)
    (plain : optCode ∉ [str "04", str "07", str "08"])
    (hm : (d, m) ∈ s.delivery connectionId (str "10" ++ optCode)) :
    ∃ a : Answer, RightAnswer env connectionId s optCode text d a ∧ m = a.message := by
  obtain ⟨rfl, rfl, -⟩ := Server.mem_delivery.1 hm
  exact ⟨.ack (requestOpcode hop) plain, .ack (requestOpcode hop) plain, rfl⟩

/-- A replayed notification has no `\0` but its two. -/
theorem exists_of_mem_replayMessages {posts : List JString} (hposts : ∀ post ∈ posts, nul ∉ post)
    {senderName : JString} (hsender : nul ∉ senderName)
    (hm : m ∈ replayMessages senderName posts) :
    ∃ author content : NulFree, m = notification (str "091") author.1 content.1 := by
  induction posts generalizing senderName with
  | nil => exact absurd hm List.not_mem_nil
  | cons post posts ih =>
    have hpost := hposts post List.mem_cons_self
    have hname : nul ∉ senderName ++ post.takeWhile (· ≠ space) := by
      rw [List.mem_append, not_or]
      exact ⟨hsender, fun h ↦ hpost ((List.takeWhile_prefix _).subset h)⟩
    have hcontent : nul ∉ (post.dropWhile (· ≠ space)).tail :=
      fun h ↦ hpost ((List.dropWhile_suffix _).subset (List.tail_subset _ h))
    rcases List.mem_cons.1 hm with rfl | hm
    · exact ⟨⟨_, hname⟩, ⟨_, hcontent⟩, rfl⟩
    · exact ih (fun p hp ↦ hposts p (List.mem_cons_of_mem post hp)) hname hm

/-- The filter brings no `\0` in. -/
theorem nul_not_mem_filterWords {message : JString} (h : nul ∉ message) :
    nul ∉ filterWords env s message := by
  rw [filterWords]
  induction s.filteredWords generalizing message with
  | nil => exact h
  | cons w ws ih =>
    rw [List.foldl_cons]
    refine ih fun hmem ↦ ?_
    rcases mem_replaceLoop hmem with hr | hmem
    · exact absurd hr (by decide)
    · exact h hmem

/-- The content of a private message has no `\0`. -/
theorem PmAccepts.nul_not_mem {my other : UserRef} {content : JString}
    (h : PmAccepts env connectionId s text my other content) (htext : nul ∉ text.dropLast) :
    nul ∉ content := by
  rw [h.content_eq.2]
  exact fun hmem ↦ nul_not_mem_filterWords htext (List.mem_of_mem_drop hmem)

section Commands

variable (hs : Coherent s) (hnul : NulFreeStore s)

include hs hnul in
theorem rightAnswer_login (hm : (d, m) ∈ (processLogin env connectionId s text).sent) :
    ∃ a : Answer, RightAnswer env connectionId s (str "02") text d a ∧ m = a.message := by
  by_cases h : ∃ username r, LoginAccepts env s text username r
  · obtain ⟨username, r, h⟩ := h
    rw [processLogin_of_accepts h fun _ hpost ↦ hs.blank_mem hpost] at hm
    rcases List.mem_append.1 hm with hm | hm
    · exact rightAnswer_of_ack (str "02") (by decide) (by decide) hm
    · obtain ⟨m', hm', hdelivery⟩ := List.mem_flatMap.1 hm
      obtain ⟨rfl, rfl, -⟩ := Server.mem_delivery.1 hdelivery
      obtain ⟨author, content, rfl⟩ :=
        exists_of_mem_replayMessages (hnul.awaitingPosts r) List.not_mem_nil hm'
      exact ⟨.notification .post author content, .replay h hm', rfl⟩
  · simp only [not_exists] at h
    exact rightAnswer_of_refusal (processLogin_refusal h) (by decide) hm

theorem rightAnswer_follow (body : NulFree)
    (hm : (d, m) ∈ (processFollow env connectionId s (body.1 ++ [nul])).sent) :
    ∃ a : Answer,
      RightAnswer env connectionId s (str "04") (body.1 ++ [nul]) d a ∧ m = a.message := by
  -- the target behind the action
  have htarget : ∀ {action : JChar} {target : JString}, action ≠ nul →
      body.1 ++ [nul] = action :: target → ∃ t : NulFree, target = t.1 ++ [nul] := by
    rintro action target hne heq
    obtain ⟨- | ⟨c, cs⟩, hbody⟩ := body
    · exact absurd (List.cons.inj heq).1.symm hne
    · obtain ⟨-, rfl⟩ := List.cons.inj heq
      rw [List.mem_cons, not_or] at hbody
      exact ⟨⟨cs, hbody.2⟩, rfl⟩
  by_cases hfollow : ∃ target my other,
      FollowAccepts env connectionId s (body.1 ++ [nul]) target my other
  · obtain ⟨target, my, other, h⟩ := hfollow
    rw [processFollow_of_accepts h] at hm
    obtain ⟨rfl, rfl, -⟩ := Server.mem_delivery.1 hm
    have hargs := h.args
    obtain ⟨t, rfl⟩ := htarget (by decide) hargs
    rw [hargs]
    exact ⟨.followAck false t, .follow t, rfl⟩
  · by_cases hunfollow : ∃ target my other,
        UnfollowAccepts env connectionId s (body.1 ++ [nul]) target my other
    · obtain ⟨target, my, other, h⟩ := hunfollow
      rw [processFollow_of_unfollow h] at hm
      obtain ⟨rfl, rfl, -⟩ := Server.mem_delivery.1 hm
      have hargs := h.args
      obtain ⟨t, rfl⟩ := htarget (by decide) hargs
      rw [hargs]
      exact ⟨.followAck true t, .unfollow t, rfl⟩
    · by_cases hsilent : FollowSilent env connectionId s (body.1 ++ [nul])
      · rw [processFollow_of_silent hsilent] at hm
        exact absurd hm List.not_mem_nil
      · simp only [not_exists] at hfollow hunfollow
        exact rightAnswer_of_refusal (processFollow_refusal hfollow hunfollow hsilent)
          (by decide) hm

include hnul in
theorem rightAnswer_post (body : NulFree)
    (hm : (d, m) ∈ (processPost env connectionId s (body.1 ++ [nul])).sent) :
    ∃ a : Answer,
      RightAnswer env connectionId s (str "05") (body.1 ++ [nul]) d a ∧ m = a.message := by
  by_cases h : ∃ my, PostAccepts env connectionId s (body.1 ++ [nul]) my
  · obtain ⟨my, h⟩ := h
    rw [processPost_of_accepts h, List.dropLast_concat] at hm
    rcases List.mem_append.1 hm with hm | hm
    · obtain ⟨r, -, hr⟩ := List.mem_flatMap.1 hm
      split at hr
      · obtain ⟨rfl, rfl, -⟩ := Server.mem_delivery.1 hr
        exact ⟨.notification .post ⟨_, hnul.username my⟩ body, .post h rfl, rfl⟩
      · exact absurd hr List.not_mem_nil
    · exact rightAnswer_of_ack (str "05") (by decide) (by decide) hm
  · simp only [not_exists] at h
    exact rightAnswer_of_refusal (processPost_refusal h) (by decide) hm

include hnul in
theorem rightAnswer_pm (body : NulFree)
    (hm : (d, m) ∈ (processPm env connectionId s (body.1 ++ [nul])).sent) :
    ∃ a : Answer,
      RightAnswer env connectionId s (str "06") (body.1 ++ [nul]) d a ∧ m = a.message := by
  by_cases h : ∃ my other content, PmAccepts env connectionId s (body.1 ++ [nul]) my other content
  · obtain ⟨my, other, content, h⟩ := h
    rw [processPm_of_accepts h] at hm
    rcases List.mem_append.1 hm with hm | hm
    · obtain ⟨rfl, rfl, -⟩ := Server.mem_delivery.1 hm
      have hcontent : nul ∉ content := h.nul_not_mem (by rw [List.dropLast_concat]; exact body.2)
      exact ⟨.notification .pm ⟨_, hnul.username my⟩ ⟨content, hcontent⟩, .pm h rfl, rfl⟩
    · exact rightAnswer_of_ack (str "06") (by decide) (by decide) hm
  · simp only [not_exists] at h
    exact rightAnswer_of_refusal (processPm_refusal h) (by decide) hm

end Commands

/-- **Whatever is sent for a request of the client is the right answer to it.** -/
theorem rightAnswer_of_sent (hs : Coherent s) (hnul : NulFreeStore s) {optCode : JString}
    (hop : optCode ∈ requestOpcodes) (hclient : IsClientRequest (optCode ++ text))
    (hm : (d, m) ∈ (process env connectionId s (optCode ++ text)).sent) :
    ∃ a : Answer, RightAnswer env connectionId s optCode text d a ∧ m = a.message := by
  simp only [requestOpcodes, List.mem_cons, List.not_mem_nil, or_false] at hop
  rcases hop with rfl | rfl | rfl | rfl | rfl | rfl | rfl
  · rw [process_01] at hm
    by_cases h : ∃ u p b, RegisterAccepts s text u p b
    · obtain ⟨u, p, b, h⟩ := h
      rw [processRegister_of_accepts h] at hm
      exact rightAnswer_of_ack (str "01") (by decide) (by decide) hm
    · simp only [not_exists] at h
      exact rightAnswer_of_refusal (processRegister_refusal h) (by decide) hm
  · rw [process_02] at hm
    exact rightAnswer_login hs hnul hm
  · rw [process_03] at hm
    rcases h : env.findActive s connectionId with - | r
    · exact rightAnswer_of_refusal (processLogout_refusal h) (by decide) hm
    · rw [processLogout_of_session h] at hm
      exact rightAnswer_of_ack (str "03") (by decide) (by decide) hm
  · obtain ⟨body, rfl⟩ := hclient.text_eq (by simp)
    rw [process_04] at hm
    exact rightAnswer_follow body hm
  · obtain ⟨body, rfl⟩ := hclient.text_eq (by simp)
    rw [process_05] at hm
    exact rightAnswer_post hnul body hm
  · obtain ⟨body, rfl⟩ := hclient.text_eq (by simp)
    rw [process_06] at hm
    exact rightAnswer_pm hnul body hm
  · rw [process_12] at hm
    by_cases h : ∃ my other, BlockAccepts env connectionId s text my other
    · obtain ⟨my, other, h⟩ := h
      rw [processBlock_of_accepts h] at hm
      exact rightAnswer_of_ack (str "12") (by decide) (by decide) hm
    · simp only [not_exists] at h
      exact rightAnswer_of_refusal (processBlock_refusal h) (by decide) hm

end Requests

/-! ### The stream -/

/-- A message and the request it was sent for. -/
structure SentMessage where
  /-- The events before the request. -/
  before : List Event
  env : Surroundings
  connectionId : ℤ
  optCode : JString
  text : JString
  message : JString

namespace SentMessage

variable (x : SentMessage) (mode : ServerMode)

/-- The event that sends the message. -/
def event : Event := .request x.env x.connectionId (x.optCode ++ x.text)

/-- The message goes to this connection in the run, for a request with one of the opcodes. -/
structure IsSent (es : List Event) (d : ℤ) : Prop where
  occurs : LabelledMachine.Occurs es x.before x.event
  optCode : x.optCode ∈ requestOpcodes
  sent : (d, x.message) ∈
    ((serverMachine mode).output ((serverMachine mode).stateAfter x.before) x.event).sent

/-- The answer is the message, and the right one for its request. -/
def IsAnswer (d : ℤ) (a : Answer) : Prop :=
  RightAnswer x.env x.connectionId ((serverMachine mode).stateAfter x.before) x.optCode x.text d a ∧
    x.message = a.message

variable {x mode}

theorem IsSent.exists_answer {es : List Event} {d : ℤ} (h : x.IsSent mode es d)
    (hclient : ∀ e ∈ es, e.FromClient) : ∃ a, x.IsAnswer mode d a := by
  have hs := coherent_of_reachable ((serverMachine mode).reachable_stateAfter x.before)
  have hevent : x.event.FromClient :=
    hclient _ (h.occurs.subset (List.mem_append_right _ (List.mem_singleton_self _)))
  have hsent := h.sent
  by_cases hmem : x.connectionId ∈ ((serverMachine mode).stateAfter x.before).connectionsMap
  · rw [event, output_request_of_mem mode _ hmem] at hsent
    exact rightAnswer_of_sent hs (nulFreeStore_along hclient h.occurs.before) h.optCode hevent hsent
  · rw [event, output_request_of_not_mem mode _ hmem] at hsent
    exact absurd hsent List.not_mem_nil

end SentMessage

theorem mapM_encode {mode : ServerMode} {d : ℤ} {xs : List SentMessage} {as : List Answer}
    (h : List.Forall₂ (fun x a ↦ x.IsAnswer mode d a) xs as) :
    xs.mapM (fun x ↦ encode x.message) = .ok (as.map Answer.bytes) := by
  induction h with
  | nil => rfl
  | cons hx _ ih =>
    rw [List.mapM_cons, hx.2, Answer.encode_message, ih]
    rfl

/-- **The client stays in step.** Take any messages the server sends to one connection in a run of
requests of the client. They can be encoded, and `decoder` reads the encodings one a call: behind
the `i`-th call the stream holds exactly the encodings of the later messages, and the text shown is
that of the right answer to the request the message was sent for. -/
theorem server_to_client {mode : ServerMode} {es : List Event}
    (hclient : ∀ e ∈ es, e.FromClient) {d : ℤ} {xs : List SentMessage}
    (hxs : ∀ x ∈ xs, x.IsSent mode es d) (flags : Flags) :
    ∃ encodings results, xs.mapM (fun x ↦ encode x.message) = .ok encodings ∧
      decodeMessages flags xs.length encodings.flatten = some results ∧
      results.map Prod.snd = encodings.tails.tail.map List.flatten ∧
      List.Forall₂ (fun x shown ↦ ∃ a, x.IsAnswer mode d a ∧ shown = a.display) xs
        (results.map Prod.fst) := by
  have hanswers : ∃ as : List Answer, List.Forall₂ (fun x a ↦ x.IsAnswer mode d a) xs as := by
    induction xs with
    | nil => exact ⟨[], .nil⟩
    | cons x xs ih =>
      obtain ⟨a, ha⟩ := (hxs x List.mem_cons_self).exists_answer hclient
      obtain ⟨as, has⟩ := ih fun y hy ↦ hxs y (List.mem_cons_of_mem x hy)
      exact ⟨a :: as, .cons ha has⟩
  obtain ⟨as, has⟩ := hanswers
  obtain ⟨results, hdecode, hshown, hrest⟩ := Answer.decodeMessages_answers flags as
  refine ⟨as.map Answer.bytes, results, mapM_encode has, ?_, hrest, ?_⟩
  · rw [has.length_eq]
    exact hdecode
  · rw [hshown, List.forall₂_map_right_iff]
    exact has.imp fun _ a ha ↦ ⟨a, ha, rfl⟩

/-! ### A run -/

/-- A frame `Encoder` makes of a line. -/
theorem fromClient_frame (c : ℤ) (line : String) {frame : String}
    (h : 0 ∉ ascii line ∧ Decoder.semicolon ∉ ascii line ∧
      encodedLine (ascii line) = ascii frame ++ [Decoder.semicolon] ∧
        str frame = utf8Decode (ascii frame)) : (Event.frame c frame).FromClient :=
  ⟨ascii line, ascii frame, h⟩

/-- Alice and Bob follow each other, Alice posts and writes to Bob, and Bob blocks nobody. -/
def aliceWritesToBob : List Event :=
  [.accept, .accept, .frame 0 "01alice\x00a\x0001-01-1990\x00",
    .frame 1 "01bob\x00b\x0002-02-1990\x00", .frame 0 "02alice\x00a\x001",
    .frame 1 "02bob\x00b\x001", .frame 1 "040alice\x00", .frame 0 "040bob\x00",
    .frame 0 "05hi @bob\x00", .frame 0 "06bob hey\x00", .frame 1 "12carol\x00"]

theorem aliceWritesToBob_fromClient : ∀ e ∈ aliceWritesToBob, e.FromClient := by
  simp only [aliceWritesToBob, List.forall_mem_cons]
  exact ⟨trivial, trivial,
    fromClient_frame 0 "REGISTER alice a 01-01-1990" (by decide),
    fromClient_frame 1 "REGISTER bob b 02-02-1990" (by decide),
    fromClient_frame 0 "LOGIN alice a 1" (by decide),
    fromClient_frame 1 "LOGIN bob b 1" (by decide),
    fromClient_frame 1 "FOLLOW 0 alice" (by decide),
    fromClient_frame 0 "FOLLOW 0 bob" (by decide),
    fromClient_frame 0 "POST hi @bob" (by decide),
    fromClient_frame 0 "PM bob hey" (by decide),
    fromClient_frame 1 "BLOCK carol" (by decide), fun _ h ↦ absurd h List.not_mem_nil⟩

/-- What is sent to Bob: two acknowledgements, that of his FOLLOW, the post, the private message and
an error. -/
def sentToBob : List SentMessage :=
  [⟨aliceWritesToBob.take 3, .listed, 1, str "01", str "bob\x00b\x0002-02-1990\x00", str "1001"⟩,
    ⟨aliceWritesToBob.take 5, .listed, 1, str "02", str "bob\x00b\x001", str "1002"⟩,
    ⟨aliceWritesToBob.take 6, .listed, 1, str "04", str "0alice\x00",
      str "100400alice\x00\x00"⟩,
    ⟨aliceWritesToBob.take 8, .listed, 0, str "05", str "hi @bob\x00",
      str "091alice\x00hi @bob\x00"⟩,
    ⟨aliceWritesToBob.take 9, .listed, 0, str "06", str "bob hey\x00",
      str "090alice\x00hey\x00"⟩,
    ⟨aliceWritesToBob.take 10, .listed, 1, str "12", str "carol\x00", str "1112"⟩]

theorem sentToBob_isSent : ∀ x ∈ sentToBob, x.IsSent .threadPerClient aliceWritesToBob 1 := by
  simp only [sentToBob, List.forall_mem_cons]
  exact ⟨⟨⟨_, rfl⟩, by decide, by decide⟩, ⟨⟨_, rfl⟩, by decide, by decide⟩,
    ⟨⟨_, rfl⟩, by decide, by decide⟩, ⟨⟨_, rfl⟩, by decide, by decide⟩,
    ⟨⟨_, rfl⟩, by decide, by decide⟩, ⟨⟨_, rfl⟩, by decide, by decide⟩,
    fun _ h ↦ absurd h List.not_mem_nil⟩

/-- Bob's client reads these six messages one a call. -/
theorem server_to_client_bob :
    ∃ encodings results, sentToBob.mapM (fun x ↦ encode x.message) = .ok encodings ∧
      decodeMessages ⟨false, false, false⟩ sentToBob.length encodings.flatten = some results ∧
      results.map Prod.snd = encodings.tails.tail.map List.flatten ∧
      List.Forall₂ (fun x shown ↦ ∃ a, x.IsAnswer .threadPerClient 1 a ∧ shown = a.display)
        sentToBob (results.map Prod.fst) :=
  server_to_client aliceWritesToBob_fromClient sentToBob_isSent ⟨false, false, false⟩

end SplNet
