import SplNet.Srv.StoreInvariant

/-!
# What happened in a run

The successful LOGIN, LOGOUT and BLOCK events (`LogsIn`, `LogsOut`, `Blocks`), what they send, and
what the state remembers of them: a user has a session exactly since a LOGIN without a LOGOUT after
it (`hasSession_iff_since`), a block list holds exactly those who were blocked
(`mem_blockingUsers_iff`), and queued posts keep their place in the queue for ever
(`awaitingPosts_along`).
-/

namespace SplNet

open Java

/-! ### The events -/

/-- The event is a LOGIN of this user on this connection that is carried out. -/
def LogsIn (connectionId : ℤ) (r : UserRef) (s : Server) (e : Event) : Prop :=
  ∃ env message username, e = .request env connectionId (str "02" ++ message) ∧
    connectionId ∈ s.connectionsMap ∧ LoginAccepts env s message username r

/-- The event is a LOGOUT that finds this user. -/
def LogsOut (r : UserRef) (s : Server) (e : Event) : Prop :=
  ∃ env connectionId message, e = .request env connectionId (str "03" ++ message) ∧
    env.findActive s connectionId = some r

/-- The event is a BLOCK of `other` by `my` that is carried out. -/
def Blocks (my other : UserRef) (s : Server) (e : Event) : Prop :=
  ∃ env connectionId message, e = .request env connectionId (str "12" ++ message) ∧
    connectionId ∈ s.connectionsMap ∧ BlockAccepts env connectionId s message my other

section Events

variable (mode : ServerMode) {s : Server} {e : Event} {connectionId : ℤ} {r : UserRef}

/-- A request has one opcode. -/
theorem request_opcode_inj {env env' : Surroundings} {c c' : ℤ} {op op' m m' : JString}
    (h : Event.request env c (op ++ m) = .request env' c' (op' ++ m')) (hop : op.length = 2)
    (hop' : op'.length = 2) : env = env' ∧ c = c' ∧ op = op' ∧ m = m' := by
  injection h with henv hc hframe
  obtain ⟨h₁, h₂⟩ := List.append_inj hframe (hop.trans hop'.symm)
  exact ⟨henv, hc, h₁, h₂⟩

/-- **A LOGIN that is carried out** is acknowledged and replays the queue. -/
theorem LogsIn.sent_eq (h : LogsIn connectionId r s e) (hs : Coherent s) :
    ((serverMachine mode).output s e).sent =
      (connectionId, str "1002") ::
        (replayMessages [] (s.user r).awaitingPosts).map fun m ↦ (connectionId, m) := by
  obtain ⟨env, message, username, rfl, hmem, hlogin⟩ := h
  rw [output_request_of_mem mode s hmem, process_02,
    processLogin_of_accepts hlogin fun _ hpost ↦ hs.blank_mem hpost,
    Server.flatMap_delivery_of_mem hmem, Server.delivery_of_mem hmem, List.singleton_append]

theorem LogsIn.acknowledged (h : LogsIn connectionId r s e) (hs : Coherent s) :
    (connectionId, str "1002") ∈ ((serverMachine mode).output s e).sent := by
  rw [h.sent_eq mode hs]
  exact List.mem_cons_self

theorem LogsIn.next_eq (h : LogsIn connectionId r s e) :
    ∃ username, (serverMachine mode).next s e = startSession connectionId s username r := by
  obtain ⟨env, message, username, rfl, hmem, hlogin⟩ := h
  exact ⟨username, next_login mode hmem hlogin⟩

theorem LogsOut.next_eq (h : LogsOut r s e) (hs : Coherent s) :
    (serverMachine mode).next s e = s.modifyUser r User.deActivate := by
  obtain ⟨env, c, message, rfl, hfind⟩ := h
  exact next_logout mode (hs.mem_of_findActive hfind) hfind message

/-- A LOGIN opens a session of one user on one connection. -/
theorem LogsIn.unique (h : LogsIn connectionId r s e) {c : ℤ} {r' : UserRef}
    (h' : LogsIn c r' s e) : c = connectionId ∧ r' = r := by
  obtain ⟨env, message, username, rfl, -, hlogin⟩ := h
  obtain ⟨env', message', username', heq, -, hlogin'⟩ := h'
  obtain ⟨rfl, rfl, -, rfl⟩ := request_opcode_inj heq rfl rfl
  obtain ⟨rest, hargs⟩ := hlogin.args
  obtain ⟨rest', hargs'⟩ := hlogin'.args
  obtain ⟨rfl, -⟩ := List.cons.inj (hargs.symm.trans hargs')
  exact ⟨rfl, Option.some.inj (hlogin'.found.symm.trans hlogin.found)⟩

/-- **A BLOCK that is carried out** is acknowledged. -/
theorem Blocks.acknowledged {my other : UserRef} (h : Blocks my other s e) :
    ∃ c, (c, str "1012") ∈ ((serverMachine mode).output s e).sent := by
  obtain ⟨env, c, message, rfl, hmem, hblock⟩ := h
  refine ⟨c, ?_⟩
  rw [output_request_of_mem mode s hmem, process_12, processBlock_of_accepts hblock]
  exact Server.mem_delivery.2 ⟨rfl, rfl, hmem⟩

theorem Blocks.next_eq {my other : UserRef} (h : Blocks my other s e) :
    (serverMachine mode).next s e = blockUser s my other := by
  obtain ⟨env, c, message, rfl, hmem, hblock⟩ := h
  rw [next_request_of_mem mode s hmem, process_12, processBlock_of_accepts hblock]

/-- The sessions of an event that is no LOGIN and no LOGOUT of the user stay as they are. -/
theorem session_eq_of_not (hs : Coherent s) (hin : ∀ c, ¬ LogsIn c r s e) (hout : ¬ LogsOut r s e) :
    (((serverMachine mode).next s e).user r).isActivated = (s.user r).isActivated ∧
      (((serverMachine mode).next s e).user r).connId = (s.user r).connId := by
  rcases (effect_next mode s e).sessions hs with hsame | ⟨env, c, m, username, r', heq, hmem,
    hlogin, hs'⟩ | ⟨env, c, m, r', heq, hfind, hs'⟩
  · exact ⟨hsame.isActivated r, hsame.connId r⟩
  · rcases eq_or_ne r r' with rfl | hne
    · exact absurd ⟨env, m, username, heq, hmem, hlogin⟩ (hin c)
    · rw [hs', startSession_user, if_neg hne]
      exact ⟨rfl, rfl⟩
  · rcases eq_or_ne r r' with rfl | hne
    · exact absurd ⟨env, c, m, heq, hfind⟩ hout
    · rw [hs', Server.modifyUser_user, if_neg hne]
      exact ⟨rfl, rfl⟩

end Events

/-! ### Sessions -/

/-- The user is activated, with this connection. -/
def HasSession (r : UserRef) (connectionId : ℤ) (s : Server) : Prop :=
  (s.user r).isActivated = true ∧ (s.user r).connId = connectionId

instance (r : UserRef) (connectionId : ℤ) (s : Server) : Decidable (HasSession r connectionId s) :=
  inferInstanceAs (Decidable (_ ∧ _))

/-- Sessions are on accepted connections. -/
theorem HasSession.mem_connectionsMap {r : UserRef} {connectionId : ℤ} {s : Server}
    (h : HasSession r connectionId s) (hs : Coherent s) : connectionId ∈ s.connectionsMap := by
  obtain ⟨hactive, rfl⟩ := h
  exact hs.activated_connId hactive

/-- A session begins with a LOGIN and ends with a LOGOUT. -/
theorem hasSession_next_iff (mode : ServerMode) {s : Server} (hs : Coherent s) (e : Event)
    (r : UserRef) (connectionId : ℤ) :
    HasSession r connectionId ((serverMachine mode).next s e) ↔
      LogsIn connectionId r s e ∨ HasSession r connectionId s ∧ ¬ LogsOut r s e := by
  rcases Classical.em (∃ c, LogsIn c r s e) with ⟨c, hin⟩ | hin
  · -- the user was inactive, and is active on the connection of the LOGIN now
    have hinactive : (s.user r).isActivated = false := by
      obtain ⟨_, _, _, -, -, hlogin⟩ := hin
      exact hlogin.inactive
    have hnot : ¬ HasSession r connectionId s := by
      rintro ⟨hactive, -⟩
      rw [hinactive] at hactive
      exact absurd hactive Bool.false_ne_true
    obtain ⟨username, hnext⟩ := hin.next_eq mode
    rw [or_iff_left fun h ↦ hnot h.1, hnext, HasSession, startSession_user, if_pos rfl]
    constructor
    · rintro ⟨-, rfl⟩
      exact hin
    · intro hin'
      exact ⟨rfl, (hin.unique hin').1.symm⟩
  · rw [not_exists] at hin
    rw [or_iff_right (hin connectionId)]
    rcases Classical.em (LogsOut r s e) with hout | hout
    · refine iff_of_false ?_ fun h ↦ h.2 hout
      rw [hout.next_eq mode hs, HasSession, Server.modifyUser_user, if_pos rfl]
      exact fun h ↦ Bool.false_ne_true h.1
    · obtain ⟨hactive, hconn⟩ := session_eq_of_not mode hs hin hout
      rw [HasSession, hactive, hconn]
      exact (and_iff_left hout).symm

/-- **A user has a session on a connection exactly since it logged in there**, without logging out
after that. -/
theorem hasSession_iff_since (mode : ServerMode) (es : List Event) (r : UserRef)
    (connectionId : ℤ) :
    HasSession r connectionId ((serverMachine mode).stateAfter es) ↔
      (serverMachine mode).Since (LogsIn connectionId r) (LogsOut r) es :=
  LabelledMachine.since_iff (fun h ↦ absurd h.1 Bool.false_ne_true)
    (fun _ e hreach ↦ hasSession_next_iff mode (coherent_of_reachable hreach) e r connectionId) es

/-! ### Blocks and queues -/

/-- A user enters a block list when it is blocked, and never leaves it. -/
theorem mem_blockingUsers_next_iff (mode : ServerMode) {s : Server} (hs : Coherent s) (e : Event)
    (my other : UserRef) :
    other ∈ (((serverMachine mode).next s e).user my).blockingUsers ↔
      Blocks my other s e ∨ other ∈ (s.user my).blockingUsers := by
  constructor
  · intro hmem
    rcases (effect_next mode s e).graph hs with hsame | ⟨env, c, m, text, a, b, -, -, hs'⟩ |
      ⟨env, c, m, text, a, b, -, -, hs'⟩ | ⟨env, c, m, a, b, heq, hblock, hs'⟩
    · rw [hsame.blockingUsers] at hmem
      exact Or.inr hmem
    · rw [hs', addFollow_eq_except] at hmem
      exact Or.inr hmem
    · rw [hs', dropFollow_eq_except] at hmem
      exact Or.inr hmem
    · rw [hs', blockUser_blockingUsers] at hmem
      split at hmem
      case isTrue hmy =>
        rcases List.mem_append.1 hmem with hold | hnew
        · exact Or.inr (hmy ▸ hold)
        · obtain rfl := hmy
          obtain rfl := List.mem_singleton.1 hnew
          exact Or.inl ⟨env, c, m, heq, hs.mem_of_findActive hblock.session, hblock⟩
      case isFalse => exact Or.inr hmem
  · rintro (hblocks | hmem)
    · rw [hblocks.next_eq mode, blockUser_blockingUsers, if_pos rfl]
      exact List.mem_append_right _ (List.mem_singleton_self other)
    · rcases (effect_next mode s e).graph hs with hsame | ⟨env, c, m, text, a, b, -, -, hs'⟩ |
        ⟨env, c, m, text, a, b, -, -, hs'⟩ | ⟨env, c, m, a, b, -, -, hs'⟩
      · rw [hsame.blockingUsers]
        exact hmem
      · rw [hs', addFollow_eq_except]
        exact hmem
      · rw [hs', dropFollow_eq_except]
        exact hmem
      · rw [hs', blockUser_blockingUsers]
        split
        case isTrue hmy => exact List.mem_append_left _ (hmy ▸ hmem)
        case isFalse => exact hmem

/-- **A block list holds exactly those who were blocked.** -/
theorem mem_blockingUsers_iff (mode : ServerMode) (es : List Event) (my other : UserRef) :
    other ∈ (((serverMachine mode).stateAfter es).user my).blockingUsers ↔
      (serverMachine mode).Once (Blocks my other) es :=
  LabelledMachine.once_iff (M := serverMachine mode)
    (P := fun s ↦ other ∈ (s.user my).blockingUsers) List.not_mem_nil
    (fun _ e hreach ↦ mem_blockingUsers_next_iff mode (coherent_of_reachable hreach) e my other) es

/-- Queues only grow, at the end. -/
theorem awaitingPosts_next (mode : ServerMode) {s : Server} (hs : Coherent s) (e : Event)
    (r : UserRef) :
    (s.user r).awaitingPosts <+: (((serverMachine mode).next s e).user r).awaitingPosts :=
  (effect_next mode s e).awaitingPosts_extended hs r

/-- **A queued post keeps its place in the queue for ever.** -/
theorem awaitingPosts_along (mode : ServerMode) {pre es : List Event} (hpre : pre <+: es)
    (r : UserRef) :
    (((serverMachine mode).stateAfter pre).user r).awaitingPosts <+:
      (((serverMachine mode).stateAfter es).user r).awaitingPosts :=
  LabelledMachine.related_along (M := serverMachine mode)
    (R := fun s s' ↦ (s.user r).awaitingPosts <+: (s'.user r).awaitingPosts)
    (fun _ ↦ List.prefix_rfl) (fun h₁ h₂ ↦ h₁.trans h₂)
    (fun _ e hreach ↦ awaitingPosts_next mode (coherent_of_reachable hreach) e r) hpre

end SplNet
