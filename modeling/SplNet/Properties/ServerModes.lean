import SplNet.Api.Spec.Exceptions
import SplNet.Srv.History

/-!
# The two server modes

The two mains start the same protocol on the same empty store, but for the filtered words, which the
constructor of `BaseServer` adds and the reactor never gets. **Only PM reads them**: every other
command does the same with any list of words (`process_withFilteredWords`). So the two servers go
through the same states, up to the words, and send the same messages exactly as long as no filtered
word is in a private message that reaches a connection (`modes_agree_iff`).
-/

namespace SplNet

open Java LabelledMachine

/-- The store with another list of filtered words. -/
def Server.withFilteredWords (ws : List JString) (s : Server) : Server :=
  { s with filteredWords := ws }

/-- The outcome with another list of filtered words in the store it leaves. -/
def Outcome.withFilteredWords (ws : List JString) (o : Outcome) : Outcome :=
  { o with server := o.server.withFilteredWords ws }

/-! ### Commands that do not look at the filtered words -/

section Commands

variable (ws : List JString) (env : Surroundings) (connectionId : ℤ) (s : Server)

@[simp] theorem withFilteredWords_user : (s.withFilteredWords ws).user = s.user := rfl

@[simp] theorem withFilteredWords_users :
    env.users (s.withFilteredWords ws) = env.users s := rfl

@[simp] theorem withFilteredWords_activeUsers :
    env.activeUsers (s.withFilteredWords ws) = env.activeUsers s := rfl

@[simp] theorem withFilteredWords_findActive :
    env.findActive (s.withFilteredWords ws) connectionId = env.findActive s connectionId := rfl

@[simp] theorem withFilteredWords_findContaining (text : JString) :
    env.findContaining (s.withFilteredWords ws) text = env.findContaining s text := rfl

@[simp] theorem withFilteredWords_findContained (text : JString) :
    env.findContained (s.withFilteredWords ws) text = env.findContained s text := rfl

@[simp] theorem withFilteredWords_sessionVariable :
    sessionVariable env connectionId (s.withFilteredWords ws) =
      sessionVariable env connectionId s := rfl

@[simp] theorem withFilteredWords_statMessage (r : UserRef) :
    statMessage env (s.withFilteredWords ws) r = statMessage env s r := rfl

@[simp] theorem withFilteredWords_activeUsersMap :
    (s.withFilteredWords ws).activeUsersMap = s.activeUsersMap := rfl

theorem send_withFilteredWords (msg : JString) :
    (s.withFilteredWords ws).send connectionId msg =
      (s.send connectionId msg).withFilteredWords ws := by
  rw [Server.send, Server.send]
  show (if connectionId ∈ s.connectionsMap then _ else _) =
    Outcome.withFilteredWords ws (if connectionId ∈ s.connectionsMap then _ else _)
  rw [apply_ite (Outcome.withFilteredWords ws)]
  rcases encode msg with e | bytes
  · rfl
  · rfl

theorem andThen_withFilteredWords (o : Outcome) {f : Server → Outcome}
    (h : ∀ s, f (s.withFilteredWords ws) = (f s).withFilteredWords ws) :
    (o.withFilteredWords ws).andThen f = (o.andThen f).withFilteredWords ws := by
  rcases o with ⟨s, sent, - | e⟩
  · show Outcome.mk (f (s.withFilteredWords ws)).server (sent ++ (f (s.withFilteredWords ws)).sent)
      (f (s.withFilteredWords ws)).thrown = _
    rw [h]
    rfl
  · rfl

theorem forEach_withFilteredWords {α : Type*} {f : Server → α → Outcome}
    (h : ∀ s x, f (s.withFilteredWords ws) x = (f s x).withFilteredWords ws) (xs : List α) :
    Outcome.forEach f (s.withFilteredWords ws) xs =
      (Outcome.forEach f s xs).withFilteredWords ws := by
  induction xs generalizing s with
  | nil => rfl
  | cons x xs ih =>
    rw [Outcome.forEach, Outcome.forEach, h, andThen_withFilteredWords]
    exact fun s ↦ ih s

theorem replay_withFilteredWords (senderName : JString) (limit : ℕ) (posts : List JString) :
    replay connectionId senderName limit (s.withFilteredWords ws) posts =
      (replay connectionId senderName limit s posts).withFilteredWords ws := by
  induction posts generalizing senderName limit s with
  | nil => rfl
  | cons post posts ih =>
    simp only [replay]
    rcases substringFrom post (replayScan senderName limit 0 post).2 with e | content
    · rfl
    · show ((s.withFilteredWords ws).send _ _).andThen _ = _
      rw [send_withFilteredWords, andThen_withFilteredWords]
      exact fun s ↦ ih s _ _

theorem processRegister_withFilteredWords (message : JString) :
    processRegister env connectionId (s.withFilteredWords ws) message =
      (processRegister env connectionId s message).withFilteredWords ws := by
  rw [processRegister, processRegister]
  rcases split message nul with - | ⟨username, - | ⟨password, - | ⟨birthday, rest⟩⟩⟩
  · rfl
  · rfl
  · rfl
  · simp only [withFilteredWords_users, withFilteredWords_user,
      apply_ite (Outcome.withFilteredWords ws), ← send_withFilteredWords]
    rfl

theorem processLogin_withFilteredWords (message : JString) :
    processLogin env connectionId (s.withFilteredWords ws) message =
      (processLogin env connectionId s message).withFilteredWords ws := by
  rw [processLogin, processLogin]
  rcases split message nul with - | ⟨username, - | ⟨password, - | ⟨captcha, rest⟩⟩⟩
  · rfl
  · rfl
  · rfl
  · simp only [withFilteredWords_findContaining, withFilteredWords_user]
    rcases env.findContaining s username with - | user
    · exact send_withFilteredWords ws connectionId s _
    · simp only [apply_ite (Outcome.withFilteredWords ws)]
      rw [← send_withFilteredWords, ← andThen_withFilteredWords, ← send_withFilteredWords]
      · rfl
      · exact fun s ↦ replay_withFilteredWords ws connectionId s _ _ _

theorem processLogout_withFilteredWords :
    processLogout env connectionId (s.withFilteredWords ws) =
      (processLogout env connectionId s).withFilteredWords ws := by
  rw [processLogout, processLogout, withFilteredWords_findActive]
  rcases env.findActive s connectionId with - | user
  · exact send_withFilteredWords ws connectionId s _
  · exact send_withFilteredWords ws connectionId
      ((s.modifyUser user User.deActivate).removeActiveUser (.user user)) _

theorem processFollow_withFilteredWords (message : JString) :
    processFollow env connectionId (s.withFilteredWords ws) message =
      (processFollow env connectionId s message).withFilteredWords ws := by
  rcases message with - | ⟨action, message⟩
  · rfl
  · simp only [processFollow, withFilteredWords_findContained, withFilteredWords_findActive,
      withFilteredWords_user]
    rcases env.findContained s message with - | other
    · exact send_withFilteredWords ws connectionId s _
    · rcases env.findActive s connectionId with - | my
      · rfl
      · simp only [apply_ite (Outcome.withFilteredWords ws), ← send_withFilteredWords]
        rfl

theorem deliverPost_withFilteredWords (author message : JString) (r : UserRef) :
    deliverPost author message (s.withFilteredWords ws) r =
      (deliverPost author message s r).withFilteredWords ws := by
  simp only [deliverPost, apply_ite (Outcome.withFilteredWords ws), ← send_withFilteredWords]
  rfl

theorem forEach_deliverPost_withFilteredWords (author message : JString) (rs : List UserRef) :
    Outcome.forEach (deliverPost author message) (s.withFilteredWords ws) rs =
      (Outcome.forEach (deliverPost author message) s rs).withFilteredWords ws :=
  forEach_withFilteredWords ws s
    (fun s r ↦ deliverPost_withFilteredWords ws s author message r) rs

theorem processPost_withFilteredWords (message : JString) :
    processPost env connectionId (s.withFilteredWords ws) message =
      (processPost env connectionId s message).withFilteredWords ws := by
  rw [processPost, processPost]
  rcases substring message 0 (message.length - 1) with e | message
  · rfl
  · simp only [withFilteredWords_findActive]
    rcases env.findActive s connectionId with - | my
    · exact send_withFilteredWords ws connectionId s _
    · simp only [forEach_deliverPost_withFilteredWords]
      refine andThen_withFilteredWords ws _ fun s' ↦ ?_
      rw [forEach_deliverPost_withFilteredWords]
      exact andThen_withFilteredWords ws _ fun s' ↦ send_withFilteredWords ws connectionId s' _

theorem blockUser_withFilteredWords (my other : UserRef) :
    blockUser (s.withFilteredWords ws) my other = (blockUser s my other).withFilteredWords ws := by
  rw [blockUser_eq, blockUser_eq]
  rfl

theorem processBlock_withFilteredWords (message : JString) :
    processBlock env connectionId (s.withFilteredWords ws) message =
      (processBlock env connectionId s message).withFilteredWords ws := by
  simp only [processBlock, withFilteredWords_findContained, withFilteredWords_findActive,
      withFilteredWords_user]
  rcases env.findActive s connectionId with - | my
  · exact send_withFilteredWords ws connectionId s _
  · rcases env.findContained s message with - | other
    · exact send_withFilteredWords ws connectionId s _
    · rcases substring message 0 (message.length - 1) with e | message
      · simp only [apply_ite (Outcome.withFilteredWords ws), ← send_withFilteredWords]
        rfl
      · simp only [apply_ite (Outcome.withFilteredWords ws), ← send_withFilteredWords,
          blockUser_withFilteredWords]

theorem statUser_withFilteredWords (my r : UserRef) :
    statUser env connectionId my (s.withFilteredWords ws) r =
      (statUser env connectionId my s r).withFilteredWords ws := by
  simp only [statUser, withFilteredWords_user, withFilteredWords_statMessage]
  rcases statMessage env s r with e | msg
  · simp only [apply_ite (Outcome.withFilteredWords ws), ← send_withFilteredWords]
    rfl
  · simp only [apply_ite (Outcome.withFilteredWords ws), ← send_withFilteredWords]
    rfl

theorem processLogstat_withFilteredWords :
    processLogstat env connectionId (s.withFilteredWords ws) =
      (processLogstat env connectionId s).withFilteredWords ws := by
  simp only [processLogstat, withFilteredWords_sessionVariable, withFilteredWords_activeUsers]
  rcases sessionVariable env connectionId s with - | my
  · rfl
  · exact forEach_withFilteredWords ws s
      (fun s r ↦ statUser_withFilteredWords ws env connectionId s my r) _

theorem processStat_withFilteredWords :
    processStat env connectionId (s.withFilteredWords ws) =
      (processStat env connectionId s).withFilteredWords ws := by
  simp only [processStat, withFilteredWords_activeUsersMap]
  rcases env.activeOrder.keys s.activeUsersMap with - | ⟨k, ks⟩
  · exact send_withFilteredWords ws connectionId s _
  · rfl

theorem dispatch_withFilteredWords {optCode : JString} (hop : optCode ≠ str "06")
    (message : JString) :
    dispatch env connectionId (s.withFilteredWords ws) optCode message =
      (dispatch env connectionId s optCode message).withFilteredWords ws := by
  simp only [dispatch, apply_ite (Outcome.withFilteredWords ws), processRegister_withFilteredWords,
    processLogin_withFilteredWords, processLogout_withFilteredWords,
    processFollow_withFilteredWords, processPost_withFilteredWords, if_neg hop,
    processLogstat_withFilteredWords, processStat_withFilteredWords, processBlock_withFilteredWords]
  rfl

/-- **Only PM looks at the filtered words.** -/
theorem process_withFilteredWords {message : JString} (h : ¬ str "06" <+: message) :
    process env connectionId (s.withFilteredWords ws) message =
      (process env connectionId s message).withFilteredWords ws := by
  by_cases hlen : message.length < 2
  · rw [process_of_short hlen, process_of_short hlen]
    rfl
  · obtain ⟨op, text, rfl, hop⟩ : ∃ op text, message = op ++ text ∧ op.length = 2 :=
      ⟨message.take 2, message.drop 2, (List.take_append_drop 2 message).symm, by
        rw [List.length_take]
        omega⟩
    have hne : op ≠ str "06" := fun heq ↦ h (heq ▸ List.prefix_append op text)
    rw [process_of_opcode hop, process_of_opcode hop, dispatch_withFilteredWords _ _ _ _ hne]

end Commands

/-! ### PM in the two modes -/

/-- The filtered words of the thread-per-client server are shorter than their replacement. -/
theorem filteredWords_short : ∀ w ∈ ServerMode.threadPerClient.filteredWords,
    w ≠ [] ∧ w.length < (str "<filtered>").length := by
  decide

/-- The request is a PM that is carried out, reaches a connection, and has one of the words that
only the thread-per-client server filters. -/
def FiltersPm (s : Server) (e : Event) : Prop :=
  ∃ env connectionId text my other content,
    e = .request env connectionId (str "06" ++ text) ∧ connectionId ∈ s.connectionsMap ∧
      PmAccepts env connectionId s text my other content ∧
      (s.user other).connId ∈ s.connectionsMap ∧
      ∃ w ∈ ServerMode.threadPerClient.filteredWords, HasWord env.wordBoundary w [] text.dropLast

section Pm

variable {env : Surroundings} {connectionId : ℤ} {s : Server} {text : JString}

/-- The store of the thread-per-client server next to the one of the reactor. -/
abbrev Server.filtering (s : Server) : Server :=
  s.withFilteredWords ServerMode.threadPerClient.filteredWords

theorem filterWords_of_nil (hs : s.filteredWords = []) (message : JString) :
    filterWords env s message = message := by
  rw [filterWords, hs, List.foldl_nil]

/-- A PM the reactor carries out is carried out by the thread-per-client server. -/
theorem PmAccepts.filtering {my other : UserRef} {content : JString} (hs : s.filteredWords = [])
    (h : PmAccepts env connectionId s text my other content) :
    PmAccepts env connectionId s.filtering text my other
      ((filterWords env s.filtering text.dropLast).drop ((s.user other).username.length + 1)) where
  nonempty := h.nonempty
  sender := h.sender
  recipient := h.recipient
  followed := h.followed
  unblocked := h.unblocked
  content := by
    have hle := h.content_eq.1
    have hgrow : text.dropLast.length ≤ (filterWords env s.filtering text.dropLast).length :=
      length_le_foldl_replaceAllWord filteredWords_short text.dropLast
    rw [filterWords_of_nil hs] at hle
    exact substringFrom_of_le (hle.trans hgrow)

/-- A PM that is carried out with the filter and does not throw without it is carried out. -/
theorem PmAccepts.of_filtering {my other : UserRef} {content : JString}
    (h : PmAccepts env connectionId s.filtering text my other content)
    (hnormal : (processPm env connectionId s text).thrown = none) :
    ∃ content, PmAccepts env connectionId s text my other content := by
  have hlong := (thrown_processPm_iff h.nonempty).1 hnormal my other h.sender h.recipient
    h.followed h.unblocked
  exact ⟨_, h.nonempty, h.sender, h.recipient, h.followed, h.unblocked, substringFrom_of_le hlong⟩

variable (env s) in
/-- The filter changes a text exactly when it has one of the words, and then it gets longer. -/
theorem filterWords_filtering (message : JString) :
    (∃ w ∈ ServerMode.threadPerClient.filteredWords, HasWord env.wordBoundary w [] message) ∧
        message.length < (filterWords env s.filtering message).length ∨
      (¬ ∃ w ∈ ServerMode.threadPerClient.filteredWords,
          HasWord env.wordBoundary w [] message) ∧
        filterWords env s.filtering message = message := by
  by_cases h : ∃ w ∈ ServerMode.threadPerClient.filteredWords,
      HasWord env.wordBoundary w [] message
  · exact Or.inl ⟨h, length_lt_foldl_replaceAllWord filteredWords_short h⟩
  · refine Or.inr ⟨h, foldl_replaceAllWord_of_not_hasWord fun w hw hword ↦ h ⟨w, hw, hword⟩⟩

/-- A PM that is carried out is filtered on the way when it reaches a connection and has one of the
words. -/
theorem PmAccepts.filtersPm_iff {my other : UserRef} {content : JString}
    (h : PmAccepts env connectionId s text my other content)
    (hmem : connectionId ∈ s.connectionsMap) :
    FiltersPm s (.request env connectionId (str "06" ++ text)) ↔
      (s.user other).connId ∈ s.connectionsMap ∧
        ∃ w ∈ ServerMode.threadPerClient.filteredWords,
          HasWord env.wordBoundary w [] text.dropLast := by
  constructor
  · rintro ⟨env', c, m, my', other', content', heq, -, h', hto, hword⟩
    obtain ⟨rfl, rfl, -, rfl⟩ := request_opcode_inj heq rfl rfl
    obtain rfl : other' = other := Option.some.inj (h'.recipient.symm.trans h.recipient)
    exact ⟨hto, hword⟩
  · rintro ⟨hto, hword⟩
    exact ⟨env, connectionId, text, my, other, content, rfl, hmem, h, hto, hword⟩

/-- What reaches a connection tells the messages apart if there is a handler. -/
theorem delivery_eq_iff (s : Server) (d : ℤ) (m m' : JString) :
    s.delivery d m = s.delivery d m' ↔ ¬ (d ∈ s.connectionsMap ∧ m ≠ m') := by
  by_cases hd : d ∈ s.connectionsMap
  · rw [Server.delivery_of_mem hd, Server.delivery_of_mem hd]
    simp [hd]
  · rw [Server.delivery, Server.delivery, if_neg hd, if_neg hd]
    simp [hd]

theorem length_delivery (s : Server) (d : ℤ) (m m' : JString) :
    (s.delivery d m).length = (s.delivery d m').length := by
  rw [Server.delivery, Server.delivery]
  split <;> rfl

/-- Notifications of one author tell their contents apart. -/
theorem notification_inj_iff {kind author content content' : JString} :
    notification kind author content = notification kind author content' ↔
      content = content' := by
  rw [notification, notification, List.append_left_inj, List.append_right_inj]

/-- **One PM in the two modes**: the same number of messages, and the same messages exactly when
nothing in it is filtered on the way to a connection. -/
theorem processPm_filtering (hs : s.filteredWords = []) (hmem : connectionId ∈ s.connectionsMap)
    (hnormal : (processPm env connectionId s text).thrown = none)
    (hnormal' : (processPm env connectionId s.filtering text).thrown = none) :
    (processPm env connectionId s.filtering text).sent.length =
        (processPm env connectionId s text).sent.length ∧
      ((processPm env connectionId s.filtering text).sent =
          (processPm env connectionId s text).sent ↔
        ¬ FiltersPm s (.request env connectionId (str "06" ++ text))) := by
  by_cases haccept : ∃ my other content, PmAccepts env connectionId s text my other content
  · obtain ⟨my, other, content, h⟩ := haccept
    obtain ⟨hle, hcontent⟩ := h.content_eq
    rw [filterWords_of_nil hs] at hle hcontent
    -- the first `length + 1` characters are cut off in both modes
    have hcut : (filterWords env s.filtering text.dropLast).drop
          ((s.user other).username.length + 1) = content ↔
        ¬ ∃ w ∈ ServerMode.threadPerClient.filteredWords,
          HasWord env.wordBoundary w [] text.dropLast := by
      rcases filterWords_filtering env s text.dropLast with
        ⟨hword, hlt⟩ | ⟨hnone, hsame⟩
      · refine iff_of_false (fun heq ↦ ?_) (not_not.2 hword)
        have hlen := congrArg List.length (heq.trans hcontent)
        rw [List.length_drop, List.length_drop] at hlen
        omega
      · rw [hsame]
        exact iff_of_true hcontent.symm hnone
    rw [processPm_of_accepts h, processPm_of_accepts (h.filtering hs), h.filtersPm_iff hmem]
    refine ⟨?_, ?_⟩
    · rw [List.length_append, List.length_append]
      exact congrArg (· + _) (length_delivery s _ _ _)
    · show s.delivery (s.user other).connId (notification (str "090") (s.user my).username _) ++
          s.delivery connectionId _ = s.delivery (s.user other).connId _ ++ _ ↔ _
      rw [List.append_left_inj, delivery_eq_iff, Ne, notification_inj_iff, hcut, not_not]
  · simp only [not_exists] at haccept
    have hnot : ¬ FiltersPm s (.request env connectionId (str "06" ++ text)) := by
      rintro ⟨env', c, m, my, other, content, heq, -, h, -⟩
      obtain ⟨rfl, rfl, -, rfl⟩ := request_opcode_inj heq rfl rfl
      exact haccept my other content h
    have hrefused : ∀ my other content,
        ¬ PmAccepts env connectionId s.filtering text my other content := fun my other content h ↦
      haccept my other _ (h.of_filtering hnormal).choose_spec
    rw [(processPm_refusal haccept).sent_of_thrown_none hnormal,
      (processPm_refusal hrefused).sent_of_thrown_none hnormal']
    exact ⟨rfl, iff_of_true rfl hnot⟩

end Pm

/-! ### Whole runs -/

/-- No event changes the filtered words. -/
theorem Effect.filteredWords_eq {s s' : Server} {e : Event} (h : Effect s e s') :
    s'.filteredWords = s.filteredWords := by
  cases h
  case block => rw [blockUser_eq_user]
  all_goals rfl

theorem filteredWords_of_reachable {mode : ServerMode} {s : Server}
    (h : (serverMachine mode).Reachable s) : s.filteredWords = mode.filteredWords :=
  h.invariant (P := fun s ↦ s.filteredWords = mode.filteredWords) rfl
    fun s e _ hs ↦ (effect_next mode s e).filteredWords_eq.trans hs

/-- **One event in the two modes.** -/
theorem step_filtering {s : Server} {e : Event} (hs : s.filteredWords = [])
    (hnormal : ((serverMachine .reactor).output s e).thrown = none)
    (hnormal' : ((serverMachine .threadPerClient).output s.filtering e).thrown = none) :
    (serverMachine .threadPerClient).next s.filtering e =
        ((serverMachine .reactor).next s e).filtering ∧
      ((serverMachine .threadPerClient).output s.filtering e).sent.length =
        ((serverMachine .reactor).output s e).sent.length ∧
      (((serverMachine .threadPerClient).output s.filtering e).sent =
        ((serverMachine .reactor).output s e).sent ↔ ¬ FiltersPm s e) := by
  rcases e with - | ⟨env, connectionId, message⟩
  · refine ⟨rfl, rfl, iff_of_true rfl ?_⟩
    rintro ⟨_, _, _, _, _, _, heq, -⟩
    exact absurd heq (by simp)
  · by_cases hmem : connectionId ∈ s.connectionsMap
    · have hmem' : connectionId ∈ s.filtering.connectionsMap := hmem
      rw [output_request_of_mem _ _ hmem] at hnormal ⊢
      rw [output_request_of_mem _ _ hmem'] at hnormal' ⊢
      rw [next_request_of_mem _ _ hmem, next_request_of_mem _ _ hmem']
      by_cases hpm : str "06" <+: message
      · obtain ⟨text, rfl⟩ := hpm
        rw [process_06] at hnormal hnormal' ⊢
        rw [process_06, processPm_server, processPm_server]
        exact ⟨rfl, processPm_filtering hs hmem hnormal hnormal'⟩
      · rw [process_withFilteredWords _ _ _ _ hpm]
        refine ⟨rfl, rfl, iff_of_true rfl ?_⟩
        rintro ⟨env', c, text, _, _, _, heq, -⟩
        injection heq with _ _ heq
        exact hpm ⟨text, heq.symm⟩
    · have hmem' : connectionId ∉ s.filtering.connectionsMap := hmem
      rw [next_request_of_not_mem _ _ hmem, next_request_of_not_mem _ _ hmem',
        output_request_of_not_mem _ _ hmem, output_request_of_not_mem _ _ hmem']
      refine ⟨rfl, rfl, iff_of_true rfl ?_⟩
      rintro ⟨_, _, _, _, _, _, heq, hmem'', -⟩
      injection heq with _ hc
      exact hmem (hc ▸ hmem'')

section Runs

variable {es : List Event}

/-- The two servers stay in step. -/
theorem filtering_of_runs
    (hnormal : ∀ mode, ∀ o ∈ (serverMachine mode).outputs es, o.thrown = none) {pre : List Event}
    (hpre : pre <+: es) :
    ((serverMachine .reactor).stateAfter pre).filteredWords = [] ∧
      (serverMachine .threadPerClient).stateAfter pre =
        ((serverMachine .reactor).stateAfter pre).filtering := by
  refine related_runs (M := serverMachine .reactor) (N := serverMachine .threadPerClient)
    (R := fun s t ↦ s.filteredWords = [] ∧ t = s.filtering) ⟨rfl, rfl⟩ ?_ hpre
  rintro pre e hocc ⟨hs, ht⟩
  have hreactor := hnormal .reactor _ (hocc.mem_outputs (serverMachine .reactor))
  have hclient := hnormal .threadPerClient _ (hocc.mem_outputs (serverMachine .threadPerClient))
  rw [ht] at hclient ⊢
  exact ⟨(effect_next .reactor _ e).filteredWords_eq.trans hs,
    (step_filtering hs hreactor hclient).1⟩

/-- **The two modes are the same service exactly for clients whose delivered private messages have
none of the filtered words.** -/
theorem modes_agree_iff
    (hnormal : ∀ mode, ∀ o ∈ (serverMachine mode).outputs es, o.thrown = none) :
    ((serverMachine .threadPerClient).outputs es).flatMap Outcome.sent =
        ((serverMachine .reactor).outputs es).flatMap Outcome.sent ↔
      ∀ pre e, Occurs es pre e → ¬ FiltersPm ((serverMachine .reactor).stateAfter pre) e := by
  have hstep : ∀ pre e, Occurs es pre e → _ := fun pre e hocc ↦
    have hrelated := filtering_of_runs hnormal hocc.before
    step_filtering hrelated.1 (hnormal .reactor _ (hocc.mem_outputs (serverMachine .reactor)))
      (hrelated.2 ▸ hnormal .threadPerClient _
        (hocc.mem_outputs (serverMachine .threadPerClient)))
  have hsame : ∀ pre e, Occurs es pre e → (serverMachine .threadPerClient).stateAfter pre =
      ((serverMachine .reactor).stateAfter pre).filtering := fun pre e hocc ↦
    (filtering_of_runs hnormal hocc.before).2
  rw [flatMap_outputs_eq_iff]
  · refine forall_congr' fun pre ↦ forall_congr' fun e ↦ forall_congr' fun hocc ↦ ?_
    rw [hsame pre e hocc]
    exact (hstep pre e hocc).2.2
  · intro pre e hocc
    rw [hsame pre e hocc]
    exact (hstep pre e hocc).2.1

end Runs

/-- Alice, who follows Bob, sends him a private message with a filtered word in it. -/
def bananaForBob : List Event :=
  [.accept, .accept, .frame 0 "01alice\x00a\x0001-01-1990\x00",
    .frame 1 "01bob\x00b\x0002-02-1990\x00", .frame 0 "02alice\x00a\x001",
    .frame 1 "02bob\x00b\x001", .frame 0 "040bob\x00", .frame 0 "06bob eat Banana now\x00"]

theorem bananaForBob_normal (mode : ServerMode) :
    ∀ o ∈ (serverMachine mode).outputs bananaForBob, o.thrown = none := by
  cases mode
  · decide
  · decide

/-- The two modes and this run. -/
theorem modes_agree_iff_banana :
    ((serverMachine .threadPerClient).outputs bananaForBob).flatMap Outcome.sent =
        ((serverMachine .reactor).outputs bananaForBob).flatMap Outcome.sent ↔
      ∀ pre e, Occurs bananaForBob pre e →
        ¬ FiltersPm ((serverMachine .reactor).stateAfter pre) e :=
  modes_agree_iff bananaForBob_normal

/-- **Bob reads another text in each mode.** -/
theorem modes_differ :
    (∀ mode, ∀ o ∈ (serverMachine mode).outputs bananaForBob, o.thrown = none) ∧
      ((serverMachine .threadPerClient).outputs bananaForBob).flatMap Outcome.sent ≠
        ((serverMachine .reactor).outputs bananaForBob).flatMap Outcome.sent ∧
      (1, str "090alice\x00eat Banana now\x00") ∈
        ((serverMachine .reactor).outputs bananaForBob).flatMap Outcome.sent :=
  ⟨bananaForBob_normal, by decide, by decide⟩

end SplNet
