import SplNet.Properties.Replies
import SplNet.System.Network

/-!
# What concurrent handlers reply

A handler owes a reply from the frame it has taken up until it sends it (`HandlerTask.due`).
Whatever the other handlers do in between, a step of a handler sends replies to its own connection
only, and only those it owes (`paysReplies_taskStep`); LOGSTAT, which replies once for each active
user, is left out. A reply that is owed can be dropped, by an exception or by a FOLLOW that says
nothing.
-/

namespace SplNet

open Java

/-- The opcode a reply is for; a notification is not a reply. -/
def replyOpcode (message : JString) : Option JString :=
  if message.take 2 = str "10" ∨ message.take 2 = str "11" then some ((message.drop 2).take 2)
  else none

/-- What is replied to a connection. -/
def repliesTo (connectionId : ℤ) (messages : List (ℤ × JString)) : List JString :=
  (messagesTo connectionId messages).filterMap replyOpcode

/-- The reply a handler owes. -/
def HandlerTask.due : HandlerTask → List JString
  | .frame f => [f.optCode]
  | .answer msg => (replyOpcode msg).toList
  | .registerScan _ _ _ | .registerPut _ _ _ | .registerReply _ _ => [str "01"]
  | .loginScan _ _ _ | .loginCheck _ _ _ _ | .loginPut _ _ | .loginActivate _
  | .loginSetConnId _ | .loginReply _ => [str "02"]
  | .postFind _ | .postMentions _ _ | .postIterator _ _ _ | .postNext _ | .postTest _ _
  | .postAppend _ _ | .postConnId _ _ | .postSend _ _ _ => [str "05"]
  | .idle | .replayTest _ | .replayIterator _ | .replayNext _ | .replayConnId _ _
  | .replaySend _ _ _ => []

section Replies

variable {c d : ℤ} {s : Server}

theorem messagesTo_append (xs ys : List (ℤ × JString)) :
    messagesTo d (xs ++ ys) = messagesTo d xs ++ messagesTo d ys := by
  rw [messagesTo, List.filter_append, List.map_append]
  rfl

theorem repliesTo_append (xs ys : List (ℤ × JString)) :
    repliesTo d (xs ++ ys) = repliesTo d xs ++ repliesTo d ys := by
  rw [repliesTo, messagesTo_append, List.filterMap_append]
  rfl

/-- Notifications are no replies. -/
theorem repliesTo_of_notifications {xs : List (ℤ × JString)} (h : ∀ x ∈ xs, str "09" <+: x.2) :
    repliesTo d xs = [] := by
  refine List.filterMap_eq_nil_iff.2 fun m hm ↦ ?_
  obtain ⟨x, hx, rfl⟩ := List.mem_map.1 hm
  obtain ⟨rest, hrest⟩ := h x (List.mem_filter.1 hx).1
  rw [replyOpcode, ← hrest, List.take_left' (by decide), if_neg (by decide)]

theorem repliesTo_delivery (s : Server) (c d : ℤ) (m : JString) :
    (repliesTo d (s.delivery c m)).Sublist (if d = c then (replyOpcode m).toList else []) := by
  rw [Server.delivery]
  split
  · by_cases hd : d = c
    · subst hd
      rw [if_pos rfl, repliesTo, messagesTo, List.filter_cons_of_pos (by simp)]
      rcases h : replyOpcode m with - | op
      · simp [h]
      · simp [h]
    · rw [if_neg hd, repliesTo, messagesTo, List.filter_cons_of_neg (by simpa using Ne.symm hd)]
      exact List.Sublist.refl []
  · exact List.nil_sublist _

/-- A reply with an opcode of two characters is for that opcode. -/
theorem replyOpcode_eq {kind op : JString} (hkind : kind = str "10" ∨ kind = str "11")
    (hop : op.length = 2) (text : JString) : replyOpcode (kind ++ op ++ text) = some op := by
  have hlen : kind.length = 2 := by
    rcases hkind with rfl | rfl <;> rfl
  rw [replyOpcode, List.append_assoc, List.take_left' hlen, List.drop_left' hlen,
    List.take_left' hop, if_pos hkind]

/-- At most one reply, to the connection of the request, and for its opcode. -/
def RepliesAtMostOnce (c : ℤ) (op : JString) (sent : List (ℤ × JString)) : Prop :=
  ∀ d, (repliesTo d sent).Sublist (if d = c then [op] else [])

theorem repliesAtMostOnce_nil (c : ℤ) (op : JString) : RepliesAtMostOnce c op [] :=
  fun _ ↦ List.nil_sublist _

theorem repliesAtMostOnce_delivery {kind op : JString} (hkind : kind = str "10" ∨ kind = str "11")
    (hop : op.length = 2) (s : Server) (c : ℤ) (text : JString) {before after : List (ℤ × JString)}
    (hbefore : ∀ x ∈ before, str "09" <+: x.2) (hafter : ∀ x ∈ after, str "09" <+: x.2) :
    RepliesAtMostOnce c op (before ++ s.delivery c (kind ++ op ++ text) ++ after) := by
  intro d
  rw [repliesTo_append, repliesTo_append, repliesTo_of_notifications hbefore,
    repliesTo_of_notifications hafter, List.nil_append, List.append_nil]
  have h := repliesTo_delivery s c d (kind ++ op ++ text)
  rw [replyOpcode_eq hkind hop] at h
  exact h

theorem Refusal.repliesAtMostOnce {op : JString} {o : Outcome} (h : Refusal c s op o)
    (hop : op.length = 2) : RepliesAtMostOnce c op o.sent := by
  rcases h.sent_eq with hsent | hsent
  · rw [hsent]
    have hnil : ∀ x ∈ ([] : List (ℤ × JString)), str "09" <+: x.2 :=
      fun x hx ↦ absurd hx List.not_mem_nil
    have h := repliesAtMostOnce_delivery (.inr rfl) hop s c [] hnil hnil
    simpa using h
  · rw [hsent]
    exact repliesAtMostOnce_nil c op

theorem Acknowledged.repliesAtMostOnce {op : JString} {o : Outcome} (h : Acknowledged c s op o)
    (hop : op.length = 2) : RepliesAtMostOnce c op o.sent := by
  obtain ⟨s', before, after, text, hbefore, hafter⟩ := h
  exact repliesAtMostOnce_delivery (.inl rfl) hop s c text hbefore hafter

/-! ### Whole frames -/

/-- What is sent, unless the send throws. -/
theorem send_sent_sublist (s : Server) (d : ℤ) (msg : JString) :
    ((s.send d msg).sent).Sublist (s.delivery d msg) := by
  rw [Server.send, Server.delivery]
  split
  · split
    · exact List.Sublist.refl _
    · exact List.nil_sublist _
  · exact List.nil_sublist _

/-- LOGSTAT answers the connection that asks. -/
theorem logstat_sent {env : Surroundings} {m : JString}
    (h : (d, m) ∈ (processLogstat env c s).sent) : d = c := by
  have hsend : ∀ (s : Server) msg, (d, m) ∈ (s.send c msg).sent → d = c := fun s msg hm ↦
    (Server.mem_delivery.1 ((send_sent_sublist s c msg).subset hm)).1
  rw [processLogstat] at h
  split at h
  case h_1 my hmy =>
    clear hmy
    generalize env.activeUsers s = users at h
    induction users generalizing s with
    | nil => exact absurd h List.not_mem_nil
    | cons r users ih =>
      have huser : ∀ s, (d, m) ∈ (statUser env c my s r).sent → d = c := by
        intro s hm
        rw [statUser] at hm
        split at hm
        · split at hm
          · exact hsend s _ hm
          · exact absurd hm List.not_mem_nil
        · exact hsend s _ hm
      rw [Outcome.forEach, Outcome.andThen] at h
      split at h
      · exact huser s h
      · rcases List.mem_append.1 h with hm | hm
        · exact huser s hm
        · exact ih hm
  case h_2 => exact absurd h List.not_mem_nil

/-- A frame that is carried out in one step is answered at most once, unless it is LOGSTAT. -/
theorem dispatch_repliesAtMostOnce (env : Surroundings) (c : ℤ) (s : Server) {f : WholeFrame}
    (h₇ : f.optCode ≠ str "07") :
    RepliesAtMostOnce c f.optCode (dispatch env c s f.optCode f.text).sent := by
  have hwhole : f.optCode ≠ str "01" ∧ f.optCode ≠ str "02" ∧ f.optCode ≠ str "05" := by
    simpa [steppedOpCodes] using f.whole
  obtain ⟨h₁, h₂, h₅⟩ := hwhole
  have hanswered : ∀ {op : JString} {o : Outcome}, op.length = 2 →
      Refusal c s op o ∨ Acknowledged c s op o → RepliesAtMostOnce c op o.sent := by
    rintro op o hop (h | h)
    · exact h.repliesAtMostOnce hop
    · exact h.repliesAtMostOnce hop
  rw [dispatch, if_neg h₁, if_neg h₂, if_neg h₅, if_neg h₇]
  split_ifs with h₃ h₄ h₆ h₈ h₁₂
  · rw [h₃]
    exact hanswered rfl logout_outcome
  · rw [h₄]
    have hfollow : Refusal c s (str "04") (processFollow env c s f.text) ∨
        Acknowledged c s (str "04") (processFollow env c s f.text) ∨
          FollowSilent env c s f.text ∧ processFollow env c s f.text = .done s :=
      follow_outcome env f.text
    rcases hfollow with h | h | ⟨-, h⟩
    · exact h.repliesAtMostOnce rfl
    · exact h.repliesAtMostOnce rfl
    · rw [h]
      exact repliesAtMostOnce_nil c _
  · rw [h₆]
    exact hanswered rfl (pm_outcome f.text)
  · rw [h₈, processStat]
    split
    · have hsend : Refusal c s (str "08") (s.send c (str "1108")) := Refusal.of_send (by decide)
      exact hsend.repliesAtMostOnce rfl
    · exact repliesAtMostOnce_nil c _
  · rw [h₁₂]
    exact hanswered rfl (block_outcome f.text)
  · exact repliesAtMostOnce_nil c _

/-! ### Steps -/

/-- What a step of a handler has to do with the replies: those it sends to its connection and those
it still owes are among those it owed, and the other connections get none. -/
structure PaysReplies (c : ℤ) (task : HandlerTask) (t : TaskStep) : Prop where
  own : (repliesTo c t.sent ++ t.task.due).Sublist task.due
  others : ∀ d, d ≠ c → repliesTo d t.sent = []

theorem PaysReplies.of_goOn {task task' : HandlerTask} (h : task'.due.Sublist task.due) :
    PaysReplies c task (.goOn s task') :=
  ⟨h, fun _ _ ↦ rfl⟩

/-- A step that changes the store and sends nothing. -/
theorem PaysReplies.of_quiet {task task' : HandlerTask} (s' : Server)
    (h : task'.due.Sublist task.due) : PaysReplies c task ⟨s', task', []⟩ :=
  ⟨h, fun _ _ ↦ rfl⟩

/-- A notification is sent. -/
theorem PaysReplies.of_notification {task task' : HandlerTask} {d : ℤ} {msg : JString}
    (hmsg : str "09" <+: msg) (h : task'.due.Sublist task.due) :
    PaysReplies c task (.send s d msg task') := by
  have hsent : ∀ x ∈ (s.send d msg).sent, str "09" <+: x.2 := by
    intro x hx
    exact delivery_start hmsg ((send_sent_sublist s d msg).subset hx)
  constructor
  · rw [TaskStep.send_sent, repliesTo_of_notifications hsent, List.nil_append, TaskStep.send]
    split
    · exact h
    · exact List.nil_sublist _
  · intro e _
    exact repliesTo_of_notifications hsent

/-- The reply is sent. -/
theorem PaysReplies.of_reply {task task' : HandlerTask} {msg : JString}
    (hdue : task.due = (replyOpcode msg).toList) (h : task'.due = []) :
    PaysReplies c task (.send s c msg task') := by
  have hreplies : ∀ d, (repliesTo d (s.send c msg).sent).Sublist
      (if d = c then (replyOpcode msg).toList else []) := fun d ↦
    (((send_sent_sublist s c msg).filter _).map _ |>.filterMap replyOpcode).trans
      (repliesTo_delivery s c d msg)
  constructor
  · have hnone : (TaskStep.send s c msg task').task.due = [] := by
      rw [TaskStep.send]
      split
      · exact h
      · rfl
    have hown := hreplies c
    rw [if_pos rfl] at hown
    rw [TaskStep.send_sent, hnone, List.append_nil, hdue]
    exact hown
  · intro d hd
    have hother := hreplies d
    rw [if_neg hd] at hother
    exact List.sublist_nil.1 hother

/-- **A handler replies what it owes**, whatever the store has become in between. -/
theorem paysReplies_taskStep (env : Surroundings) (c : ℤ) (s : Server) (task : HandlerTask)
    (hframe : ∀ f, task = .frame f → f.optCode ≠ str "07") :
    PaysReplies c task (taskStep env c s task) := by
  cases task with
  | idle => exact .of_goOn (List.nil_sublist _)
  | frame f =>
    have h := dispatch_repliesAtMostOnce env c s (hframe f rfl)
    refine ⟨?_, fun d hd ↦ ?_⟩
    · have hown := h c
      rw [if_pos rfl] at hown
      show (repliesTo c _ ++ []).Sublist [f.optCode]
      rw [List.append_nil]
      exact hown
    · have hother := h d
      rw [if_neg hd] at hother
      exact List.sublist_nil.1 hother
  | answer msg => exact .of_reply rfl rfl
  | registerScan username password birthday =>
    rw [taskStep]
    split
    · exact .of_goOn (List.Sublist.refl _)
    · exact .of_goOn (List.Sublist.refl _)
  | registerPut username password birthday => exact .of_quiet _ (List.Sublist.refl _)
  | registerReply username r => exact .of_reply rfl rfl
  | loginScan username password captcha =>
    rw [taskStep]
    split
    · exact .of_goOn (List.Sublist.refl _)
    · exact .of_goOn (List.Sublist.refl _)
  | loginCheck username password captcha r =>
    rw [taskStep]
    split
    · exact .of_goOn (List.Sublist.refl _)
    · exact .of_goOn (List.Sublist.refl _)
  | loginPut username r => exact .of_quiet _ (List.Sublist.refl _)
  | loginActivate r => exact .of_quiet _ (List.Sublist.refl _)
  | loginSetConnId r => exact .of_quiet _ (List.Sublist.refl _)
  | loginReply r => exact .of_reply rfl rfl
  | replayTest r =>
    rw [taskStep]
    split
    · exact .of_goOn (List.Sublist.refl _)
    · exact .of_goOn (List.Sublist.refl _)
  | replayIterator r => exact .of_goOn (List.Sublist.refl _)
  | replayNext loop =>
    rw [taskStep]
    split
    · rw [replayEntry]
      dsimp only
      split
      · exact .of_goOn (List.Sublist.refl _)
      · exact .of_goOn (List.Sublist.refl _)
    · exact .of_goOn (List.Sublist.refl _)
  | replayConnId content loop => exact .of_goOn (List.Sublist.refl _)
  | replaySend connId content loop =>
    exact .of_notification (notification_start ⟨str "1", rfl⟩) (List.Sublist.refl _)
  | postFind message =>
    rw [taskStep]
    split
    · exact .of_goOn (List.Sublist.refl _)
    · exact .of_goOn (List.Sublist.refl _)
  | postMentions my message => exact .of_goOn (List.Sublist.refl _)
  | postIterator my message others => exact .of_goOn (List.Sublist.refl _)
  | postNext loop =>
    rw [taskStep, postVisit]
    split
    · split
      · exact .of_goOn (List.Sublist.refl _)
      · exact .of_goOn (List.Sublist.refl _)
    · exact .of_goOn (List.Sublist.refl _)
    · exact .of_goOn (List.Sublist.refl _)
  | postTest r loop =>
    rw [taskStep]
    split
    · exact .of_goOn (List.Sublist.refl _)
    · exact .of_goOn (List.Sublist.refl _)
  | postAppend r loop => exact .of_quiet _ (List.Sublist.refl _)
  | postConnId r loop => exact .of_goOn (List.Sublist.refl _)
  | postSend connId r loop =>
    exact .of_notification (notification_start ⟨str "1", rfl⟩) (List.Sublist.refl _)

/-- **Nobody is replied to for another's request**, LOGSTAT included. -/
theorem repliesTo_other (env : Surroundings) (s : Server) (task : HandlerTask) (hd : d ≠ c) :
    repliesTo d (taskStep env c s task).sent = [] := by
  by_cases h : ∃ f, task = .frame f ∧ f.optCode = str "07"
  · obtain ⟨f, rfl, h₇⟩ := h
    have hnone : messagesTo d (processLogstat env c s).sent = [] := by
      rw [messagesTo, List.map_eq_nil_iff, List.filter_eq_nil_iff]
      rintro ⟨d', m⟩ hm
      have hd' := logstat_sent hm
      simpa [hd'] using Ne.symm hd
    show repliesTo d (dispatch env c s f.optCode f.text).sent = []
    rw [h₇]
    show List.filterMap replyOpcode (messagesTo d (processLogstat env c s).sent) = []
    rw [hnone]
    rfl
  · refine (paysReplies_taskStep env c s task fun f hf h₇ ↦ h ⟨f, hf, h₇⟩).others d hd

/-- A frame owes at most the reply to its own opcode. -/
theorem startTask_due (message : JString) : (startTask message).due.Sublist [message.take 2] := by
  rw [startTask]
  split
  case h_1 optCode text hop htext =>
    have htake : optCode = message.take 2 := by
      rw [substring] at hop
      split at hop
      · have h := Except.ok.inj hop
        simpa using h.symm
      · exact absurd hop (by simp)
    rw [← htake]
    split_ifs with h₁ h₂ h₅
    · rw [h₁]
      split
      · exact List.Sublist.refl _
      · exact List.nil_sublist _
    · rw [h₂]
      split
      · exact List.Sublist.refl _
      · exact List.nil_sublist _
    · rw [h₅]
      split
      · exact List.Sublist.refl _
      · exact List.nil_sublist _
    · exact List.Sublist.refl _
  case h_2 => exact List.nil_sublist _

end Replies

end SplNet
