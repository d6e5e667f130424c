import SplNet.Api.Spec.Sending

/-!
# POST and PM

Acceptance predicates and outcomes, as for the account commands. The two delivery loops of POST come
to one update of the queues (`queuePost`) and one list of notifications (`postDeliveries`) over the
receivers of the post (`postReceivers`).
-/

namespace SplNet

open Java IteratorSearch

section Commands

variable {env : Surroundings} {connectionId : ℤ} {s : Server} {message : JString}

/-! ### POST -/

/-- A post has been queued for the inactive users of a list, once for each occurrence. -/
def queuePost (s : Server) (post : JString) (receivers : List UserRef) : Server :=
  { s with
    user := fun r ↦
      if (s.user r).isActivated then s.user r
      else { s.user r with
        awaitingPosts := (s.user r).awaitingPosts ++ List.replicate (receivers.count r) post } }

/-- The notifications sent to the active users of a list. -/
def postDeliveries (s : Server) (message : JString) (receivers : List UserRef) :
    List (ℤ × JString) :=
  receivers.flatMap fun r ↦
    if (s.user r).isActivated then s.delivery (s.user r).connId message else []

theorem queuePost_user (post : JString) (receivers : List UserRef) (r : UserRef) :
    (queuePost s post receivers).user r =
      if (s.user r).isActivated then s.user r
      else { s.user r with
        awaitingPosts := (s.user r).awaitingPosts ++ List.replicate (receivers.count r) post } :=
  rfl

theorem queuePost_awaitingPosts (post : JString) (receivers : List UserRef) (r : UserRef) :
    ((queuePost s post receivers).user r).awaitingPosts =
      if (s.user r).isActivated then (s.user r).awaitingPosts
      else (s.user r).awaitingPosts ++ List.replicate (receivers.count r) post := by
  rw [queuePost_user]
  split <;> rfl

theorem queuePost_user_of_not_mem {post : JString} {receivers : List UserRef} {r : UserRef}
    (h : r ∉ receivers) : (queuePost s post receivers).user r = s.user r := by
  rw [queuePost_user, List.count_eq_zero_of_not_mem h, List.replicate_zero, List.append_nil]
  split <;> rfl

/-- Queueing changes nothing but the queues. -/
theorem queuePost_eq_except (post : JString) (receivers : List UserRef) (r : UserRef) :
    (queuePost s post receivers).user r =
      { s.user r with awaitingPosts := ((queuePost s post receivers).user r).awaitingPosts } := by
  rw [queuePost_user]
  split <;> rfl

@[simp] theorem queuePost_isActivated (post : JString) (receivers : List UserRef) (r : UserRef) :
    ((queuePost s post receivers).user r).isActivated = (s.user r).isActivated := by
  rw [queuePost_eq_except]

@[simp] theorem queuePost_connId (post : JString) (receivers : List UserRef) (r : UserRef) :
    ((queuePost s post receivers).user r).connId = (s.user r).connId := by
  rw [queuePost_eq_except]

theorem queuePost_nil (post : JString) : queuePost s post [] = s := by
  simp [queuePost]

theorem queuePost_append (post : JString) (rs rs' : List UserRef) :
    queuePost (queuePost s post rs) post rs' = queuePost s post (rs ++ rs') := by
  have huser : (queuePost (queuePost s post rs) post rs').user =
      (queuePost s post (rs ++ rs')).user := by
    funext r
    by_cases hactive : (s.user r).isActivated
    · rw [queuePost_user, queuePost_isActivated, if_pos hactive, queuePost_user, if_pos hactive,
        queuePost_user, if_pos hactive]
    · rw [queuePost_user, queuePost_isActivated, if_neg hactive, queuePost_user, if_neg hactive,
        queuePost_user, if_neg hactive]
      simp only [List.append_assoc, List.count_append, List.replicate_append_replicate]
  exact congrArg (fun f ↦ ({ s with user := f } : Server)) huser

theorem postDeliveries_queuePost (post message : JString) (rs rs' : List UserRef) :
    postDeliveries (queuePost s post rs) message rs' = postDeliveries s message rs' := by
  simp only [postDeliveries, queuePost_isActivated, queuePost_connId]
  rfl

theorem postDeliveries_append (message : JString) (rs rs' : List UserRef) :
    postDeliveries s message (rs ++ rs') =
      postDeliveries s message rs ++ postDeliveries s message rs' :=
  List.flatMap_append

/-- One delivery, in the form the loops need. -/
theorem deliverPost_eq (author message : JString) (r : UserRef) :
    deliverPost author message s r =
      ⟨queuePost s (author ++ [space] ++ message) [r],
        postDeliveries s (notification (str "091") author message) [r], none⟩ := by
  have hqueue : (s.user r).isActivated = true →
      queuePost s (author ++ [space] ++ message) [r] = s := by
    intro hactive
    have huser : (queuePost s (author ++ [space] ++ message) [r]).user = s.user := by
      funext r'
      by_cases hr' : r' = r
      · rw [hr', queuePost_user, if_pos hactive]
      · exact queuePost_user_of_not_mem (by simpa using hr')
    exact congrArg (fun f ↦ ({ s with user := f } : Server)) huser
  rw [deliverPost]
  by_cases hactive : (s.user r).isActivated = true
  · -- sent at once; the queues stay as they are
    rw [if_neg (by simp [hactive]), hqueue hactive,
      (sendable_notification (str "091") rfl rfl).send_eq]
    simp [postDeliveries, hactive]
  · have hinactive : (s.user r).isActivated = false := by simpa using hactive
    have huser : (s.modifyUser r (User.addAwaitingPost (author ++ [space] ++ message))).user =
        (queuePost s (author ++ [space] ++ message) [r]).user := by
      funext r'
      rw [Server.modifyUser_user]
      by_cases hr' : r' = r
      · simp [hr', queuePost_user, hinactive, User.addAwaitingPost]
      · rw [if_neg hr', queuePost_user_of_not_mem (by simpa using hr')]
    rw [if_pos hinactive, Outcome.done]
    simp only [postDeliveries, hinactive, List.flatMap_cons, List.flatMap_nil, Bool.false_eq_true,
      if_false, List.append_nil]
    congr 1
    exact congrArg (fun f ↦ ({ s with user := f } : Server)) huser

theorem forEach_deliverPost (author message : JString) (rs : List UserRef) :
    Outcome.forEach (deliverPost author message) s rs =
      ⟨queuePost s (author ++ [space] ++ message) rs,
        postDeliveries s (notification (str "091") author message) rs, none⟩ := by
  induction rs generalizing s with
  | nil => rw [queuePost_nil]; rfl
  | cons r rs ih =>
    rw [Outcome.forEach, deliverPost_eq, Outcome.andThen_of_none, ih, queuePost_append,
      postDeliveries_queuePost]
    simp only [← postDeliveries_append, List.singleton_append]

/-- The users a post by `my` goes to: all that follow `my`, then the other mentioned ones. -/
def postReceivers (env : Surroundings) (s : Server) (my : UserRef) (message : JString) :
    List UserRef :=
  ((env.users s).filter fun r ↦ my ∈ (s.user r).followers) ++
    (mentionedUsers env s message).filter fun r ↦ my ∉ (s.user r).followers

theorem dropFollowers_eq_filter (my : UserRef) (rs : List UserRef) :
    dropFollowers s my rs = rs.filter fun r ↦ my ∉ (s.user r).followers := by
  have h := foldl_erase_eq_filter (fun r ↦ decide (my ∈ (s.user r).followers)) rs
  simpa [dropFollowers] using h

/-- A user gets a post when it is registered and follows the author or is mentioned. -/
theorem mem_postReceivers {my : UserRef} {text : JString} {r : UserRef} :
    r ∈ postReceivers env s my text ↔
      s.Registered r ∧ (my ∈ (s.user r).followers ∨
        ∃ userName ∈ mentions text, contains (s.user r).username userName = true) := by
  simp only [postReceivers, mentionedUsers, List.mem_append, List.mem_filter, List.mem_flatMap,
    Surroundings.mem_users, decide_eq_true_eq]
  constructor
  · rintro (⟨hreg, hfollows⟩ | ⟨⟨userName, hmention, hreg, hcontains⟩, -⟩)
    · exact ⟨hreg, Or.inl hfollows⟩
    · exact ⟨hreg, Or.inr ⟨userName, hmention, hcontains⟩⟩
  · rintro ⟨hreg, hfollows | ⟨userName, hmention, hcontains⟩⟩
    · exact Or.inl ⟨hreg, hfollows⟩
    · by_cases hfollows : my ∈ (s.user r).followers
      · exact Or.inl ⟨hreg, hfollows⟩
      · exact Or.inr ⟨⟨userName, hmention, hreg, hcontains⟩, hfollows⟩

/-- POST is carried out for this user. -/
structure PostAccepts (env : Surroundings) (connectionId : ℤ) (s : Server) (message : JString)
    (my : UserRef) : Prop where
  nonempty : message ≠ []
  session : env.findActive s connectionId = some my

/-- The entry POST queues. -/
def postEntry (s : Server) (my : UserRef) (text : JString) : JString :=
  (s.user my).username ++ [space] ++ text

theorem processPost_of_accepts {my : UserRef} (h : PostAccepts env connectionId s message my) :
    processPost env connectionId s message =
      ⟨queuePost s (postEntry s my message.dropLast) (postReceivers env s my message.dropLast),
        postDeliveries s (notification (str "091") (s.user my).username message.dropLast)
            (postReceivers env s my message.dropLast) ++
          s.delivery connectionId (str "1005"), none⟩ := by
  simp only [processPost, substring_dropLast, h.nonempty, if_false, h.session,
    forEach_deliverPost, Outcome.andThen_of_none, queuePost_append, postDeliveries_queuePost,
    dropFollowers_eq_filter, (show Sendable (str "1005") by decide).send_eq, postReceivers,
    postEntry, postDeliveries_append, List.append_assoc]
  rfl

theorem processPost_refusal (h : ∀ my, ¬ PostAccepts env connectionId s message my) :
    Refusal connectionId s (str "05") (processPost env connectionId s message) := by
  simp only [processPost, substring_dropLast]
  by_cases hnil : message = []
  · rw [if_pos hnil]
    exact .thrown _
  · simp only [if_neg hnil]
    split
    case h_1 my hsession => exact absurd ⟨hnil, hsession⟩ (h my)
    case h_2 => exact Refusal.of_send (by decide)

/-! ### PM -/

/-- PM is sent in the name of `my` to `other`. Both are whatever the search loops leave behind. -/
structure PmAccepts (env : Surroundings) (connectionId : ℤ) (s : Server) (message : JString)
    (my other : UserRef) (content : JString) : Prop where
  nonempty : message ≠ []
  sender : sessionVariable env connectionId s = some my
  recipient : recipientVariable env s message.dropLast = some other
  followed : other ∈ (s.user my).followers
  unblocked : my ∉ (s.user other).blockingUsers
  content : substringFrom (filterWords env s message.dropLast)
    ((s.user other).username.length + 1) = .ok content

/-- The content is what stands behind the name that is cut off. -/
theorem PmAccepts.content_eq {my other : UserRef} {content : JString}
    (h : PmAccepts env connectionId s message my other content) :
    (s.user other).username.length + 1 ≤ (filterWords env s message.dropLast).length ∧
      content = (filterWords env s message.dropLast).drop ((s.user other).username.length + 1) :=
  substringFrom_eq_ok_iff.1 h.content

theorem processPm_of_accepts {my other : UserRef} {content : JString}
    (h : PmAccepts env connectionId s message my other content) :
    processPm env connectionId s message =
      ⟨s, s.delivery (s.user other).connId
            (notification (str "090") (s.user my).username content) ++
          s.delivery connectionId (str "1006"), none⟩ := by
  simp only [processPm, substring_dropLast, h.nonempty, if_false, h.sender, h.recipient,
    h.followed, h.unblocked, h.content, not_true_eq_false, or_self,
    (sendable_notification (str "090") rfl rfl).send_eq,
    (show Sendable (str "1006") by decide).send_eq, Outcome.andThen_of_none]

theorem processPm_refusal
    (h : ∀ my other content, ¬ PmAccepts env connectionId s message my other content) :
    Refusal connectionId s (str "06") (processPm env connectionId s message) := by
  simp only [processPm, substring_dropLast]
  by_cases hnil : message = []
  · rw [if_pos hnil]
    exact .thrown _
  · simp only [if_neg hnil]
    split
    case h_1 my other hsender hrecipient =>
      split
      case isTrue => exact Refusal.of_send (by decide)
      case isFalse hguard =>
        split
        case h_1 content hcontent =>
          simp only [not_or, not_not] at hguard
          exact absurd ⟨hnil, hsender, hrecipient, hguard.1, hguard.2, hcontent⟩
            (h my other content)
        case h_2 => exact .thrown _
    case h_2 => exact Refusal.of_send (by decide)

end Commands

end SplNet
