import SplNet.Srv.ConnectionLifetime

/-!
# Dead connections

Whether a connection that has ended can still hold a session. Nothing ends the session of a user
whose connection ends without a LOGOUT: the user stays activated, on a connection that is never
opened again, and every later LOGIN of it is refused. In the reactor a task that outlives its
channel can even open such a session. A run is free of dead sessions exactly when a connection only
ends while no user has a session on it, and a LOGIN is only carried out on an open connection
(`no_dead_session_iff`).
-/

namespace SplNet

open Java LabelledMachine

variable {mode : ServerMode} {w : Service} {e : ServiceEvent}

/-- Every session is on an open connection, and a user whose connection is not open can log in
again: a LOGIN with its password, under a name it is found by, is acknowledged. -/
structure NoDeadSession (w : Service) : Prop where
  isOpen : ∀ r c, HasSession r c w.server → c ∈ w.openConnections
  relogin : ∀ (env : Surroundings) c message username r, c ∈ w.openConnections →
    (w.server.user r).connId ∉ w.openConnections →
      (∃ rest, split message nul = username :: (w.server.user r).password :: str "1" :: rest) →
        env.findContaining w.server username = some r →
          (c, str "1002") ∈ (process env c w.server (str "02" ++ message)).sent

/-- A user without a session can always log in. -/
theorem noDeadSession_iff (hw : (serviceMachine mode).Reachable w) :
    NoDeadSession w ↔ ∀ r c, HasSession r c w.server → c ∈ w.openConnections := by
  refine ⟨NoDeadSession.isOpen, fun hopen ↦ ⟨hopen, ?_⟩⟩
  intro env c message username r hc hdead hargs hfound
  have hinactive : (w.server.user r).isActivated = false := by
    by_contra hactive
    rw [Bool.not_eq_false] at hactive
    exact hdead (hopen r _ ⟨hactive, rfl⟩)
  have hmem := (Service.linked_of_reachable hw).openConnections c hc
  have hlogin : LogsIn c r w.server (.request env c (str "02" ++ message)) :=
    ⟨env, message, username, rfl, hmem, hargs, hfound, hinactive⟩
  have hack := hlogin.acknowledged mode (Service.coherent_server hw)
  rwa [output_request_of_mem mode _ hmem] at hack

theorem noDeadSession_init (mode : ServerMode) : NoDeadSession (serviceMachine mode).init :=
  (noDeadSession_iff ⟨[], rfl⟩).2 fun _ _ h ↦ absurd h.1 Bool.false_ne_true

/-! ### The steps that end a connection -/

/-- The event ends the connection: its stream ends, or, with a thread for each client, a frame on it
raises an exception. -/
def Ends (mode : ServerMode) (w : Service) (e : ServiceEvent) (connectionId : ℤ) : Prop :=
  e = .close connectionId ∨
    mode = .threadPerClient ∧ w.CanProcess mode connectionId ∧ ∃ env message,
      e = .frame env connectionId message ∧
        (process env connectionId w.server message).thrown ≠ none

/-- A connection ends only while no user has a session on it, and a LOGIN is carried out only on an
open connection. -/
structure KeepsSessionsAlive (mode : ServerMode) (w : Service) (e : ServiceEvent) : Prop where
  ends : ∀ c, Ends mode w e c → ∀ r, ¬ HasSession r c w.server
  login : ∀ env c message r, e = .frame env c message → w.CanProcess mode c →
    LogsIn c r w.server (.request env c message) → c ∈ w.openConnections

section Frames

variable {env : Surroundings} {c : ℤ} {message : JString}

/-- An exception changes no session. -/
theorem not_logs_of_thrown (hs : Coherent w.server)
    (hthrown : (process env c w.server message).thrown ≠ none) :
    (∀ d r, ¬ LogsIn d r w.server (.request env c message)) ∧
      ∀ r, ¬ LogsOut r w.server (.request env c message) := by
  constructor
  · rintro d r ⟨env', text, username, heq, -, hlogin⟩
    injection heq with henv hc hframe
    subst henv hc hframe
    rw [process_02, processLogin_of_accepts hlogin fun _ hpost ↦ hs.blank_mem hpost] at hthrown
    exact hthrown rfl
  · rintro r ⟨env', c', text, heq, hfind⟩
    injection heq with henv hc hframe
    subst henv hc hframe
    rw [process_03, processLogout_of_session hfind] at hthrown
    exact hthrown rfl

/-- What a frame does to the sessions. -/
theorem hasSession_next_frame_iff (hw : (serviceMachine mode).Reachable w)
    (hc : w.CanProcess mode c) (r : UserRef) (d : ℤ) :
    HasSession r d ((serviceMachine mode).next w (.frame env c message)).server ↔
      LogsIn d r w.server (.request env c message) ∨
        HasSession r d w.server ∧ ¬ LogsOut r w.server (.request env c message) := by
  have hmem := (Service.linked_of_reachable hw).mem_of_canProcess hc
  rw [next_frame_server hc, ← next_request_of_mem mode _ hmem]
  exact hasSession_next_iff mode (Service.coherent_server hw) _ r d

/-- The open connections after a frame. -/
theorem mem_openConnections_next_frame_iff (hc : w.CanProcess mode c) (d : ℤ) :
    d ∈ ((serviceMachine mode).next w (.frame env c message)).openConnections ↔
      d ∈ w.openConnections ∧ ¬ (Ends mode w (.frame env c message) c ∧ d = c) := by
  rw [next_frame_of_canProcess hc]
  split
  case isTrue hnormal =>
    refine (and_iff_left ?_).symm
    rintro ⟨hends | ⟨-, -, env', message', heq, hthrown⟩, -⟩
    · cases hends
    · cases heq
      exact hthrown hnormal
  case isFalse hthrown =>
    cases mode with
    | threadPerClient =>
      refine Service.mem_closeSocket.trans (and_congr_right fun _ ↦ not_congr ?_)
      exact (and_iff_right (Or.inr ⟨rfl, hc, env, message, rfl, hthrown⟩)).symm
    | reactor =>
      refine (and_iff_left ?_).symm
      rintro ⟨hends | ⟨hmode, -⟩, -⟩
      · cases hends
      · cases hmode

/-- **A frame keeps the law exactly under the condition.** -/
theorem noDeadSession_frame_iff (hw : (serviceMachine mode).Reachable w) (h : NoDeadSession w)
    (hc : w.CanProcess mode c) :
    (∀ r d, HasSession r d ((serviceMachine mode).next w (.frame env c message)).server →
        d ∈ ((serviceMachine mode).next w (.frame env c message)).openConnections) ↔
      KeepsSessionsAlive mode w (.frame env c message) := by
  simp only [hasSession_next_frame_iff hw hc, mem_openConnections_next_frame_iff hc]
  constructor
  · refine fun hnext ↦ ⟨?_, ?_⟩
    · rintro d (hends | ⟨hmode, hd, env', message', heq, hthrown⟩) r hsession
      · cases hends
      · cases heq
        have hquiet := (not_logs_of_thrown (Service.coherent_server hw) hthrown).2 r
        exact (hnext r _ (Or.inr ⟨hsession, hquiet⟩)).2
          ⟨Or.inr ⟨hmode, hd, env, message, rfl, hthrown⟩, rfl⟩
    · intro env' d message' r heq _ hlogin
      cases heq
      exact (hnext r c (Or.inl hlogin)).1
  · rintro ⟨hends, hopen⟩ r d (hlogin | ⟨hsession, -⟩)
    · obtain ⟨env', text, username, heq, hmem, haccepts⟩ := id hlogin
      injection heq with henv hcd hframe
      subst hcd
      refine ⟨hopen env c message r rfl hc hlogin, ?_⟩
      rintro ⟨hend | ⟨-, -, env'', message'', heq, hthrown⟩, -⟩
      · cases hend
      · cases heq
        exact (not_logs_of_thrown (Service.coherent_server hw) hthrown).1 c r hlogin
    · refine ⟨h.isOpen r d hsession, ?_⟩
      rintro ⟨hend, rfl⟩
      exact hends d hend r hsession

end Frames

/-- A step that ends no connection and processes no frame meets the condition. -/
theorem keepsSessionsAlive_of_quiet (hclose : ∀ c, e ≠ .close c)
    (hframe : ∀ env c message, w.CanProcess mode c → e ≠ .frame env c message) :
    KeepsSessionsAlive mode w e where
  ends c hends := by
    rcases hends with hends | ⟨-, hc, env, message, heq, -⟩
    · exact absurd hends (hclose c)
    · exact absurd heq (hframe env c message hc)
  login env c message _ heq hc _ := absurd heq (hframe env c message hc)

/-- **The step lemma**: an event keeps the law exactly under the condition. -/
theorem noDeadSession_next_iff (hw : (serviceMachine mode).Reachable w) (h : NoDeadSession w)
    (e : ServiceEvent) :
    NoDeadSession ((serviceMachine mode).next w e) ↔ KeepsSessionsAlive mode w e := by
  rw [noDeadSession_iff (hw.next _ e)]
  cases e with
  | accept =>
    refine iff_of_true (fun r c hsession ↦ List.mem_cons_of_mem _ (h.isOpen r c hsession)) ?_
    exact keepsSessionsAlive_of_quiet (fun _ ↦ by simp) (fun _ _ _ _ ↦ by simp)
  | continueRead c =>
    obtain ⟨hserver, hopen⟩ := next_continueRead_eq mode w c
    rw [hserver, hopen]
    exact iff_of_true h.isOpen
      (keepsSessionsAlive_of_quiet (fun _ ↦ by simp) (fun _ _ _ _ ↦ by simp))
  | frame env c message =>
    rcases Classical.em (w.CanProcess mode c) with hc | hc
    · exact noDeadSession_frame_iff hw h hc
    · rw [next_frame_of_not_canProcess hc]
      refine iff_of_true h.isOpen (keepsSessionsAlive_of_quiet (fun _ ↦ by simp) ?_)
      rintro env' c' message' hc' heq
      cases heq
      exact hc hc'
  | complete c =>
    exact iff_of_true h.isOpen
      (keepsSessionsAlive_of_quiet (fun _ ↦ by simp) (fun _ _ _ _ ↦ by simp))
  | close c =>
    constructor
    · refine fun hnext ↦ ⟨?_, fun _ _ _ _ heq _ _ ↦ ServiceEvent.noConfusion heq⟩
      rintro d (hends | ⟨-, -, env, message, heq, -⟩) r hsession
      · cases hends
        exact (Service.mem_closeSocket.1 (hnext r c hsession)).2 rfl
      · cases heq
    · intro halive r d hsession
      refine Service.mem_closeSocket.2 ⟨h.isOpen r d hsession, ?_⟩
      rintro rfl
      exact halive.ends d (Or.inl rfl) r hsession

/-- **No state of a run has a session on a dead connection exactly when, in this run, connections
end only without a session and LOGINs are carried out only on open connections.** -/
theorem no_dead_session_iff (mode : ServerMode) (es : List ServiceEvent) :
    (∀ pre, pre <+: es → NoDeadSession ((serviceMachine mode).stateAfter pre)) ↔
      ∀ pre e, Occurs es pre e →
        KeepsSessionsAlive mode ((serviceMachine mode).stateAfter pre) e :=
  invariant_along_iff (noDeadSession_init mode)
    (fun _ e hreach h ↦ noDeadSession_next_iff hreach h e) es

/-- Alice logs in, her connection ends, and she connects again. -/
def vanishedClient : List ServiceEvent :=
  [.accept, .frame .listed 0 (str "01alice\x00a\x0001-01-1990\x00"),
    .frame .listed 0 (str "02alice\x00a\x001"), .close 0, .accept]

/-- **Alice still has her session on the closed connection, and cannot log in again.** -/
theorem vanished_client_locked_out :
    HasSession 0 0 ((serviceMachine .threadPerClient).stateAfter vanishedClient).server ∧
      ((serviceMachine .threadPerClient).stateAfter vanishedClient).openConnections = [1] ∧
      (process .listed 1 ((serviceMachine .threadPerClient).stateAfter vanishedClient).server
        (str "02" ++ str "alice\x00a\x001")).sent = [(1, str "1102")] ∧
      ¬ NoDeadSession ((serviceMachine .threadPerClient).stateAfter vanishedClient) := by
  have hsession :
      HasSession 0 0 ((serviceMachine .threadPerClient).stateAfter vanishedClient).server := by
    decide
  refine ⟨hsession, by decide, by decide, fun h ↦ ?_⟩
  exact absurd (h.isOpen 0 0 hsession) (by decide)

end SplNet
