import SplNet.Srv.History

/-!
# Private messages

An acknowledged PM is sent to the connection stored in its recipient, whether or not the recipient
is logged in. The stored connection is that of the recipient's session when there is one; after a
LOGOUT it is the old one, which by then may belong to somebody else. So an acknowledged PM reaches
its recipient and nobody else exactly when the recipient is activated
(`pm_reaches_recipient_iff`).
-/

namespace SplNet

open Java LabelledMachine

/-- At the end of the run the user has logged in on the connection and has not logged out since. -/
def InSession (mode : ServerMode) (es : List Event) (r : UserRef) (connectionId : ℤ) : Prop :=
  (serverMachine mode).Since (LogsIn connectionId r) (LogsOut r) es

/-- Every notification of the outcome goes to the current session of the user, there is one if the
user has a session, and the text is queued for the user if it is not active. -/
structure ReachesRecipient (mode : ServerMode) (es : List Event) (r : UserRef) (o : Outcome) :
    Prop where
  session : ∀ d m, (d, m) ∈ o.sent → str "09" <+: m →
    (((serverMachine mode).stateAfter es).user r).isActivated = true ∧ InSession mode es r d
  delivered : (((serverMachine mode).stateAfter es).user r).isActivated = true →
    ∃ d m, (d, m) ∈ o.sent ∧ str "090" <+: m ∧ InSession mode es r d
  kept : (((serverMachine mode).stateAfter es).user r).isActivated = false →
    ∃ author content, (o.server.user r).awaitingPosts =
      (((serverMachine mode).stateAfter es).user r).awaitingPosts ++ [author ++ [space] ++ content]

section Acknowledged

variable {env : Surroundings} {connectionId : ℤ} {s : Server} {message : JString}

/-- Only a PM that is carried out is acknowledged. -/
theorem exists_pmAccepts_of_acknowledged
    (h : (connectionId, str "1006") ∈ (processPm env connectionId s message).sent) :
    ∃ my other content, PmAccepts env connectionId s message my other content := by
  by_contra hnot
  simp only [not_exists] at hnot
  rcases (processPm_refusal hnot).sent_eq with hsent | hsent
  · rw [hsent] at h
    obtain ⟨-, hm, -⟩ := Server.mem_delivery.1 h
    exact absurd hm (by decide)
  · rw [hsent] at h
    exact absurd h List.not_mem_nil

/-- The only notification of a PM is the one for the connection stored in the recipient. -/
theorem PmAccepts.notification_iff {my other : UserRef} {content : JString}
    (h : PmAccepts env connectionId s message my other content) (d : ℤ) (m : JString) :
    (d, m) ∈ (processPm env connectionId s message).sent ∧ str "09" <+: m ↔
      d = (s.user other).connId ∧ m = notification (str "090") (s.user my).username content ∧
        d ∈ s.connectionsMap := by
  have hnotification : str "09" <+: notification (str "090") (s.user my).username content :=
    notification_start ⟨str "0", rfl⟩
  rw [processPm_of_accepts h, List.mem_append, Server.mem_delivery, Server.mem_delivery]
  constructor
  · rintro ⟨⟨rfl, rfl, hmem⟩ | ⟨-, rfl, -⟩, hstart⟩
    · exact ⟨rfl, rfl, hmem⟩
    · exact absurd hstart (by decide)
  · rintro ⟨rfl, rfl, hmem⟩
    exact ⟨Or.inl ⟨rfl, rfl, hmem⟩, hnotification⟩

end Acknowledged

/-- **An acknowledged PM reaches its recipient and nobody else exactly when the recipient is
activated.** -/
theorem pm_reaches_recipient_iff {mode : ServerMode} {es : List Event} {env : Surroundings}
    {connectionId : ℤ} {text : JString} {r : UserRef}
    (hack : (connectionId, str "1006") ∈
      (process env connectionId ((serverMachine mode).stateAfter es) (str "06" ++ text)).sent)
    (hrecipient :
      recipientVariable env ((serverMachine mode).stateAfter es) text.dropLast = some r) :
    ReachesRecipient mode es r
        (process env connectionId ((serverMachine mode).stateAfter es) (str "06" ++ text)) ↔
      (((serverMachine mode).stateAfter es).user r).isActivated = true := by
  rw [process_06] at hack ⊢
  obtain ⟨my, other, content, haccepts⟩ := exists_pmAccepts_of_acknowledged hack
  obtain rfl : other = r := Option.some.inj (haccepts.recipient.symm.trans hrecipient)
  constructor
  · intro hreaches
    by_contra hinactive
    rw [Bool.not_eq_true] at hinactive
    -- PM never queues anything
    obtain ⟨author, kept, hqueue⟩ := hreaches.kept hinactive
    rw [processPm_server] at hqueue
    exact absurd (congrArg List.length hqueue) (by simp)
  · intro hactive
    have hcoherent := coherent_of_reachable ((serverMachine mode).reachable_stateAfter es)
    have hsession : InSession mode es other
        (((serverMachine mode).stateAfter es).user other).connId :=
      (hasSession_iff_since mode es other _).1 ⟨hactive, rfl⟩
    refine ⟨fun d m hm hstart ↦ ?_, fun _ ↦ ?_, fun hinactive ↦ ?_⟩
    · obtain ⟨rfl, -, -⟩ := (haccepts.notification_iff d m).1 ⟨hm, hstart⟩
      exact ⟨hactive, hsession⟩
    · have hsent := (haccepts.notification_iff _ _).2
        ⟨rfl, rfl, hcoherent.activated_connId hactive⟩
      exact ⟨_, _, hsent.1, ⟨_, by simp only [notification, List.append_assoc]; rfl⟩, hsession⟩
    · rw [hactive] at hinactive
      exact absurd hinactive.symm Bool.false_ne_true

/-- Alice follows Bob, Bob logs out, and Carol logs in on the connection Bob used. -/
def carolOnBobsConnection : List Event :=
  [.accept, .accept, .frame 0 "01alice\x00a\x0001-01-1990\x00",
    .frame 1 "01bob\x00b\x0002-02-1990\x00", .frame 1 "01carol\x00c\x0003-03-1990\x00",
    .frame 0 "02alice\x00a\x001", .frame 0 "040bob\x00", .frame 1 "02bob\x00b\x001",
    .frame 1 "03", .frame 1 "02carol\x00c\x001"]

/-- A PM to Bob before Carol's LOGIN and before his LOGOUT. -/
theorem pm_reaches_recipient_iff_bob :
    ReachesRecipient .threadPerClient (carolOnBobsConnection.take 8) 1
        (process .listed 0 ((serverMachine .threadPerClient).stateAfter
          (carolOnBobsConnection.take 8)) (str "06" ++ str "bob hi\x00")) ↔
      (((serverMachine .threadPerClient).stateAfter
        (carolOnBobsConnection.take 8)).user 1).isActivated = true :=
  pm_reaches_recipient_iff (by decide) (by decide)

/-- **Alice's PM to Bob is acknowledged and delivered to Carol.** -/
theorem pm_delivered_to_another_user :
    (process .listed 0 ((serverMachine .threadPerClient).stateAfter carolOnBobsConnection)
        (str "06" ++ str "bob hi\x00")).sent =
          [(1, str "090alice\x00hi\x00"), (0, str "1006")] ∧
      recipientVariable .listed ((serverMachine .threadPerClient).stateAfter carolOnBobsConnection)
        (str "bob hi\x00").dropLast = some 1 ∧
      (((serverMachine .threadPerClient).stateAfter carolOnBobsConnection).user 1).isActivated =
        false ∧
      HasSession 2 1 ((serverMachine .threadPerClient).stateAfter carolOnBobsConnection) ∧
      ¬ ReachesRecipient .threadPerClient carolOnBobsConnection 1
        (process .listed 0 ((serverMachine .threadPerClient).stateAfter carolOnBobsConnection)
          (str "06" ++ str "bob hi\x00")) := by
  have hsent : (process .listed 0 ((serverMachine .threadPerClient).stateAfter
      carolOnBobsConnection) (str "06" ++ str "bob hi\x00")).sent =
        [(1, str "090alice\x00hi\x00"), (0, str "1006")] := by decide
  have hinactive : (((serverMachine .threadPerClient).stateAfter
      carolOnBobsConnection).user 1).isActivated = false := by decide
  refine ⟨hsent, by decide, hinactive, by decide, fun h ↦ ?_⟩
  have hactive := (h.session 1 (str "090alice\x00hi\x00") (by rw [hsent]; exact List.mem_cons_self)
    (by decide)).1
  rw [hinactive] at hactive
  exact absurd hactive Bool.false_ne_true

end SplNet
