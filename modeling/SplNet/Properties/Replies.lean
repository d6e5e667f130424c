import SplNet.Srv.StoreInvariant

/-!
# Replies

What a client can rely on about the answer to one request. A request that fails — with an error
answer or an exception — has changed nothing and sent nothing else (`failure_leaves_store_intact`);
the one place where an exception could come late is the replay of LOGIN, and there the blank that
POST puts into every queued entry excludes it. And every request that is processed normally is
answered exactly once, except for a FOLLOW request in the silent case (`answered_once_iff`).
-/

namespace SplNet

open Java

/-- The opcodes of REGISTER, LOGIN, LOGOUT, FOLLOW, POST, PM and BLOCK. -/
def requestOpcodes : List JString :=
  [str "01", str "02", str "03", str "04", str "05", str "06", str "12"]

theorem length_of_mem_requestOpcodes {optCode : JString} (h : optCode ∈ requestOpcodes) :
    optCode.length = 2 := by
  simp only [requestOpcodes, List.mem_cons, List.not_mem_nil, or_false] at h
  rcases h with rfl | rfl | rfl | rfl | rfl | rfl | rfl <;> rfl

section Outcomes

variable {env : Surroundings} {connectionId : ℤ} {s : Server}

/-! ### Failures -/

/-- Nothing was done except possibly one error answer, and nothing at all before an exception. -/
def FailsCleanly (s : Server) (o : Outcome) : Prop :=
  ((∃ x ∈ o.sent, str "11" <+: x.2) → o.server = s ∧ o.sent.length = 1) ∧
    (o.thrown ≠ none → o.server = s ∧ o.sent = [])

theorem Refusal.failsCleanly {optCode : JString} {o : Outcome}
    (h : Refusal connectionId s optCode o) : FailsCleanly s o := by
  refine ⟨fun ⟨x, hx, _⟩ ↦ ⟨h.server_eq, ?_⟩, fun hthrown ↦ ⟨h.server_eq, h.sent_of_thrown hthrown⟩⟩
  have hle : (s.delivery connectionId (str "11" ++ optCode)).length ≤ 1 := by
    rw [Server.delivery]
    split <;> simp
  have hpos := List.length_pos_of_mem hx
  rcases h.sent_eq with hsent | hsent
  · rw [hsent] at hpos ⊢
    omega
  · rw [hsent] at hpos
    exact absurd hpos (Nat.lt_irrefl 0)

/-- An outcome without an exception and without an error answer fails cleanly: it does not fail. -/
theorem failsCleanly_of_ok {o : Outcome} (hthrown : o.thrown = none)
    (hsent : ∀ x ∈ o.sent, ¬ str "11" <+: x.2) : FailsCleanly s o :=
  ⟨fun ⟨x, hx, h11⟩ ↦ absurd h11 (hsent x hx), fun h ↦ absurd hthrown h⟩

/-- Whatever is delivered of an acknowledgement starts with `10`. -/
theorem delivery_start {p msg : JString} (hp : p <+: msg) {d : ℤ} {x : ℤ × JString}
    (hx : x ∈ s.delivery d msg) : p <+: x.2 := by
  obtain ⟨d', m⟩ := x
  obtain ⟨-, rfl, -⟩ := Server.mem_delivery.1 hx
  exact hp

/-- Everything a post sends is a notification. -/
theorem postDeliveries_start {author content : JString} {receivers : List UserRef}
    {x : ℤ × JString}
    (hx : x ∈ postDeliveries s (notification (str "091") author content) receivers) :
    str "09" <+: x.2 := by
  obtain ⟨r, -, hr⟩ := List.mem_flatMap.1 hx
  split at hr
  · exact delivery_start (notification_start ⟨str "1", rfl⟩) hr
  · exact absurd hr List.not_mem_nil

/-- Everything a replay sends is a notification. -/
theorem replayMessages_start {senderName : JString} {posts : List JString} {m : JString}
    (hm : m ∈ replayMessages senderName posts) : str "09" <+: m := by
  induction posts generalizing senderName with
  | nil => exact absurd hm List.not_mem_nil
  | cons post posts ih =>
    rcases List.mem_cons.1 hm with rfl | hm
    · exact notification_start ⟨str "1", rfl⟩
    · exact ih hm

theorem replayDeliveries_start {senderName : JString} {posts : List JString} {x : ℤ × JString}
    (hx : x ∈ (replayMessages senderName posts).flatMap (s.delivery connectionId)) :
    str "09" <+: x.2 := by
  obtain ⟨m, hm, hx⟩ := List.mem_flatMap.1 hx
  exact delivery_start (replayMessages_start hm) hx

/-! ### The three outcomes of a request -/

/-- The request was carried out: an acknowledgement to the requesting connection, among
notifications. -/
inductive Acknowledged (connectionId : ℤ) (s : Server) (optCode : JString) : Outcome → Prop
  | intro (s' : Server) (before after : List (ℤ × JString)) (text : JString)
      (hbefore : ∀ x ∈ before, str "09" <+: x.2) (hafter : ∀ x ∈ after, str "09" <+: x.2) :
      Acknowledged connectionId s optCode
        ⟨s', before ++ s.delivery connectionId (str "10" ++ optCode ++ text) ++ after, none⟩

/-- An acknowledgement behind its notifications. -/
theorem Acknowledged.last (s' : Server) (optCode text : JString) {before : List (ℤ × JString)}
    (hbefore : ∀ x ∈ before, str "09" <+: x.2) :
    Acknowledged connectionId s optCode
      ⟨s', before ++ s.delivery connectionId (str "10" ++ optCode ++ text), none⟩ := by
  have h : Acknowledged connectionId s optCode
      ⟨s', before ++ s.delivery connectionId (str "10" ++ optCode ++ text) ++ [], none⟩ :=
    .intro s' before [] text hbefore fun x hx ↦ absurd hx List.not_mem_nil
  rwa [List.append_nil] at h

/-- An acknowledgement without notifications. -/
theorem Acknowledged.single (s' : Server) (optCode text : JString) :
    Acknowledged connectionId s optCode
      ⟨s', s.delivery connectionId (str "10" ++ optCode ++ text), none⟩ :=
  .last s' optCode text fun _ hx ↦ absurd hx List.not_mem_nil

theorem Acknowledged.failsCleanly {optCode : JString} {o : Outcome}
    (h : Acknowledged connectionId s optCode o) : FailsCleanly s o := by
  obtain ⟨s', before, after, text, hbefore, hafter⟩ := h
  refine failsCleanly_of_ok rfl fun x hx ↦ ?_
  rcases List.mem_append.1 hx with hx | hx
  · rcases List.mem_append.1 hx with hx | hx
    · exact not_start_of_start (hbefore x hx) rfl (by decide)
    · refine not_start_of_start (p := str "10") (delivery_start ?_ hx) rfl (by decide)
      rw [List.append_assoc]
      exact List.prefix_append _ _
  · exact not_start_of_start (hafter x hx) rfl (by decide)

theorem register_outcome (text : JString) :
    Refusal connectionId s (str "01") (processRegister env connectionId s text) ∨
      Acknowledged connectionId s (str "01") (processRegister env connectionId s text) := by
  by_cases h : ∃ u p b, RegisterAccepts s text u p b
  · obtain ⟨u, p, b, h⟩ := h
    rw [processRegister_of_accepts h]
    exact Or.inr (.single _ (str "01") [])
  · simp only [not_exists] at h
    exact Or.inl (processRegister_refusal h)

theorem login_outcome (hs : Coherent s) (text : JString) :
    Refusal connectionId s (str "02") (processLogin env connectionId s text) ∨
      Acknowledged connectionId s (str "02") (processLogin env connectionId s text) := by
  by_cases h : ∃ k r, LoginAccepts env s text k r
  · obtain ⟨k, r, h⟩ := h
    rw [processLogin_of_accepts h fun post hpost ↦ hs.blank_mem hpost]
    exact Or.inr (.intro _ [] _ [] (fun x hx ↦ absurd hx List.not_mem_nil)
      fun x hx ↦ replayDeliveries_start hx)
  · simp only [not_exists] at h
    exact Or.inl (processLogin_refusal h)

theorem logout_outcome :
    Refusal connectionId s (str "03") (processLogout env connectionId s) ∨
      Acknowledged connectionId s (str "03") (processLogout env connectionId s) := by
  rcases h : env.findActive s connectionId with - | r
  · exact Or.inl (processLogout_refusal h)
  · rw [processLogout_of_session h]
    exact Or.inr (.single _ (str "03") [])

theorem follow_outcome (env : Surroundings) (text : JString) :
    Refusal connectionId s (str "04") (processFollow env connectionId s text) ∨
      Acknowledged connectionId s (str "04") (processFollow env connectionId s text) ∨
        FollowSilent env connectionId s text ∧
          processFollow env connectionId s text = .done s := by
  by_cases hfollow : ∃ target my other, FollowAccepts env connectionId s text target my other
  · obtain ⟨target, my, other, h⟩ := hfollow
    rw [processFollow_of_accepts h, List.append_assoc]
    exact Or.inr (Or.inl (.single _ (str "04") (str "00" ++ (target ++ [nul]))))
  · by_cases hunfollow : ∃ target my other, UnfollowAccepts env connectionId s text target my other
    · obtain ⟨target, my, other, h⟩ := hunfollow
      rw [processFollow_of_unfollow h, List.append_assoc]
      exact Or.inr (Or.inl (.single _ (str "04") (str "01" ++ (target ++ [nul]))))
    · by_cases hsilent : FollowSilent env connectionId s text
      · exact Or.inr (Or.inr ⟨hsilent, processFollow_of_silent hsilent⟩)
      · simp only [not_exists] at hfollow hunfollow
        exact Or.inl (processFollow_refusal hfollow hunfollow hsilent)

theorem post_outcome (text : JString) :
    Refusal connectionId s (str "05") (processPost env connectionId s text) ∨
      Acknowledged connectionId s (str "05") (processPost env connectionId s text) := by
  by_cases h : ∃ my, PostAccepts env connectionId s text my
  · obtain ⟨my, h⟩ := h
    rw [processPost_of_accepts h]
    exact Or.inr (.last _ (str "05") [] fun x hx ↦ postDeliveries_start hx)
  · simp only [not_exists] at h
    exact Or.inl (processPost_refusal h)

theorem pm_outcome (text : JString) :
    Refusal connectionId s (str "06") (processPm env connectionId s text) ∨
      Acknowledged connectionId s (str "06") (processPm env connectionId s text) := by
  by_cases h : ∃ my other content, PmAccepts env connectionId s text my other content
  · obtain ⟨my, other, content, h⟩ := h
    rw [processPm_of_accepts h]
    exact Or.inr (.last _ (str "06") [] fun x hx ↦
      delivery_start (notification_start ⟨str "0", rfl⟩) hx)
  · simp only [not_exists] at h
    exact Or.inl (processPm_refusal h)

theorem block_outcome (text : JString) :
    Refusal connectionId s (str "12") (processBlock env connectionId s text) ∨
      Acknowledged connectionId s (str "12") (processBlock env connectionId s text) := by
  by_cases h : ∃ my other, BlockAccepts env connectionId s text my other
  · obtain ⟨my, other, h⟩ := h
    rw [processBlock_of_accepts h]
    exact Or.inr (.single _ (str "12") [])
  · simp only [not_exists] at h
    exact Or.inl (processBlock_refusal h)

/-- **Every request is refused, carried out, or a silent FOLLOW.** -/
theorem request_outcome (env : Surroundings) (connectionId : ℤ) (hs : Coherent s)
    {optCode : JString} (hop : optCode ∈ requestOpcodes) (text : JString) :
    Refusal connectionId s optCode (process env connectionId s (optCode ++ text)) ∨
      Acknowledged connectionId s optCode (process env connectionId s (optCode ++ text)) ∨
        optCode = str "04" ∧ FollowSilent env connectionId s text ∧
          process env connectionId s (optCode ++ text) = .done s := by
  simp only [requestOpcodes, List.mem_cons, List.not_mem_nil, or_false] at hop
  rcases hop with rfl | rfl | rfl | rfl | rfl | rfl | rfl
  · rw [process_01]
    exact (register_outcome text).imp_right Or.inl
  · rw [process_02]
    exact (login_outcome hs text).imp_right Or.inl
  · rw [process_03]
    exact logout_outcome.imp_right Or.inl
  · rw [process_04]
    rcases follow_outcome env text with h | h | h
    · exact Or.inl h
    · exact Or.inr (Or.inl h)
    · exact Or.inr (Or.inr ⟨rfl, h⟩)
  · rw [process_05]
    exact (post_outcome text).imp_right Or.inl
  · rw [process_06]
    exact (pm_outcome text).imp_right Or.inl
  · rw [process_12]
    exact (block_outcome text).imp_right Or.inl

end Outcomes

/-! ### The two laws -/

/-- **Failure leaves the store intact.** For every frame with a request opcode, or too short to have
one: after an error answer or an exception the whole store is as before, the error answer is the
only message, and before an exception nothing was sent. -/
theorem failure_leaves_store_intact {mode : ServerMode} {s : Server}
    (hreach : (serverMachine mode).Reachable s) (env : Surroundings) (connectionId : ℤ)
    {message : JString}
    (hframe : message.length < 2 ∨ ∃ optCode ∈ requestOpcodes, optCode <+: message) :
    FailsCleanly s (process env connectionId s message) := by
  have hs := coherent_of_reachable hreach
  rcases hframe with hshort | ⟨optCode, hop, text, rfl⟩
  · rw [process_of_short hshort]
    exact (Refusal.thrown _ : Refusal connectionId s [] _).failsCleanly
  · rcases request_outcome env connectionId hs hop text with
      h | h | ⟨-, -, h⟩
    · exact h.failsCleanly
    · exact h.failsCleanly
    · rw [h]
      exact failsCleanly_of_ok rfl fun x hx ↦ absurd hx List.not_mem_nil

/-- Alice is logged in, Bob and Carol are registered and follow her, Carol is logged in, and a post
of Alice is queued for Bob, who has logged out. -/
def postQueuedForBob : List Event :=
  [.accept, .accept, .accept, .frame 0 "01alice\x00a\x0001-01-1990\x00",
    .frame 1 "01bob\x00b\x0002-02-1990\x00", .frame 2 "01carol\x00c\x0003-03-1990\x00",
    .frame 0 "02alice\x00a\x001", .frame 1 "02bob\x00b\x001", .frame 2 "02carol\x00c\x001",
    .frame 1 "040alice\x00", .frame 2 "040alice\x00", .frame 1 "03", .frame 0 "05hi\x00"]

/-- Bob logs in with a wrong password: the post stays queued, and the sessions of the others stay. -/
theorem failure_leaves_store_intact_wrongPassword :
    FailsCleanly ((serverMachine .threadPerClient).stateAfter postQueuedForBob)
        (process .listed 1 ((serverMachine .threadPerClient).stateAfter postQueuedForBob)
          (str "02bob\x00x\x001")) ∧
      (process .listed 1 ((serverMachine .threadPerClient).stateAfter postQueuedForBob)
        (str "02bob\x00x\x001")).sent = [(1, str "1102")] ∧
      (((serverMachine .threadPerClient).stateAfter postQueuedForBob).user 1).awaitingPosts =
        [str "alice hi"] ∧
      ((serverMachine .threadPerClient).stateAfter postQueuedForBob).activeUsersMap.entries.length =
        3 :=
  ⟨failure_leaves_store_intact ⟨postQueuedForBob, rfl⟩ .listed 1
      (Or.inr ⟨str "02", by decide, str "bob\x00x\x001", by decide⟩),
    by decide, by decide, by decide⟩

/-- Exactly one of the messages answers the request: it goes to the requesting connection, starts
with `10` or `11`, and carries the opcode. The others are notifications. -/
def AnsweredOnce (connectionId : ℤ) (optCode : JString) (sent : List (ℤ × JString)) : Prop :=
  ∃ before m after, sent = before ++ (connectionId, m) :: after ∧
    (m.take 2 = str "10" ∨ m.take 2 = str "11") ∧ (m.drop 2).take 2 = optCode ∧
      ∀ x ∈ before ++ after, str "09" <+: x.2

theorem answeredOnce_delivery {s : Server} {connectionId : ℤ} {optCode kind text : JString}
    (hmem : connectionId ∈ s.connectionsMap) (hop : optCode.length = 2)
    (hkind : kind = str "10" ∨ kind = str "11") {before after : List (ℤ × JString)}
    (hbefore : ∀ x ∈ before, str "09" <+: x.2) (hafter : ∀ x ∈ after, str "09" <+: x.2) :
    AnsweredOnce connectionId optCode
      (before ++ s.delivery connectionId (kind ++ optCode ++ text) ++ after) := by
  have hlen : kind.length = 2 := by rcases hkind with rfl | rfl <;> rfl
  have htake : (kind ++ optCode ++ text).take 2 = kind := by
    rw [List.append_assoc, List.take_left' hlen]
  have hdrop : ((kind ++ optCode ++ text).drop 2).take 2 = optCode := by
    rw [List.append_assoc, List.drop_left' hlen, List.take_left' hop]
  refine ⟨before, kind ++ optCode ++ text, after, ?_, ?_, hdrop, ?_⟩
  · rw [Server.delivery_of_mem hmem, List.append_assoc, List.singleton_append]
  · rw [htake]
    exact hkind
  · intro x hx
    rcases List.mem_append.1 hx with hx | hx
    · exact hbefore x hx
    · exact hafter x hx

theorem Acknowledged.answeredOnce {s : Server} {connectionId : ℤ} {optCode : JString} {o : Outcome}
    (h : Acknowledged connectionId s optCode o) (hmem : connectionId ∈ s.connectionsMap)
    (hop : optCode.length = 2) : AnsweredOnce connectionId optCode o.sent := by
  obtain ⟨s', before, after, rest, hbefore, hafter⟩ := h
  exact answeredOnce_delivery hmem hop (Or.inl rfl) hbefore hafter

/-- **A request that returns normally is answered exactly once, unless it is a FOLLOW that says
nothing**: a target is found, but the connection has no active user, or the first one found is not
activated. -/
theorem answered_once_iff {mode : ServerMode} {s : Server}
    (hreach : (serverMachine mode).Reachable s) (env : Surroundings) {connectionId : ℤ}
    (hmem : connectionId ∈ s.connectionsMap) {optCode : JString} (hop : optCode ∈ requestOpcodes)
    (text : JString) (hnormal : (process env connectionId s (optCode ++ text)).thrown = none) :
    AnsweredOnce connectionId optCode (process env connectionId s (optCode ++ text)).sent ↔
      ¬ (optCode = str "04" ∧ FollowSilent env connectionId s text) := by
  have hs := coherent_of_reachable hreach
  have hlen := length_of_mem_requestOpcodes hop
  by_cases hquiet : optCode = str "04" ∧ FollowSilent env connectionId s text
  · obtain ⟨rfl, hsilent⟩ := hquiet
    refine iff_of_false ?_ (not_not.2 ⟨rfl, hsilent⟩)
    rw [process_04, processFollow_of_silent hsilent]
    rintro ⟨before, m, after, hsent, -⟩
    exact absurd hsent.symm (by simp [Outcome.done])
  · refine iff_of_true ?_ hquiet
    rcases request_outcome env connectionId hs hop text with
      h | h | ⟨hop4, hsilent, -⟩
    · have hanswer : AnsweredOnce connectionId optCode
          ([] ++ s.delivery connectionId (str "11" ++ optCode ++ []) ++ []) :=
        answeredOnce_delivery hmem hlen (Or.inr rfl) (fun x hx ↦ absurd hx List.not_mem_nil)
          (fun x hx ↦ absurd hx List.not_mem_nil)
      rw [h.sent_of_thrown_none hnormal]
      simpa using hanswer
    · exact h.answeredOnce hmem hlen
    · exact absurd ⟨hop4, hsilent⟩ hquiet

/-- A POST of Alice, which reaches Carol and is queued for Bob. -/
theorem answered_once_iff_post :
    (AnsweredOnce 0 (str "05")
        (process .listed 0 ((serverMachine .threadPerClient).stateAfter postQueuedForBob)
          (str "05" ++ str "hi all\x00")).sent ↔
      ¬ (str "05" = str "04" ∧
        FollowSilent .listed 0 ((serverMachine .threadPerClient).stateAfter postQueuedForBob)
          (str "hi all\x00"))) ∧
      (process .listed 0 ((serverMachine .threadPerClient).stateAfter postQueuedForBob)
        (str "05" ++ str "hi all\x00")).sent =
          [(2, str "091alice\x00hi all\x00"), (0, str "1005")] :=
  ⟨answered_once_iff ⟨postQueuedForBob, rfl⟩ .listed (by decide) (by decide) (str "hi all\x00")
    (by decide), by decide⟩

/-- Two users have registered and nobody has logged in. -/
def twoAccounts : List Event :=
  [.accept, .frame 0 "01alice\x00a\x0001-01-1990\x00", .frame 0 "01bob\x00b\x0002-02-1990\x00"]

/-- **A FOLLOW request without a session is not answered at all.** -/
theorem follow_without_session_unanswered :
    0 ∈ ((serverMachine .threadPerClient).stateAfter twoAccounts).connectionsMap ∧
      (process .listed 0 ((serverMachine .threadPerClient).stateAfter twoAccounts)
        (str "04" ++ str "0bob\x00")).thrown = none ∧
      ¬ AnsweredOnce 0 (str "04")
        (process .listed 0 ((serverMachine .threadPerClient).stateAfter twoAccounts)
          (str "04" ++ str "0bob\x00")).sent := by
  refine ⟨by decide, by decide, ?_⟩
  have hsent : (process .listed 0 ((serverMachine .threadPerClient).stateAfter twoAccounts)
      (str "04" ++ str "0bob\x00")).sent = [] := by decide
  rintro ⟨before, m, after, h, -⟩
  rw [hsent] at h
  exact absurd h.symm (by simp)

end SplNet
