import SplNet.Client.LogoutWait

/-!
# The reply to LOGOUT

The keyboard thread waits behind a line that **is** `LOGOUT`, and `Encoder` writes a LOGOUT frame
for every line whose **first word** is `LOGOUT`; the text of another command can carry one behind a
`';'` as well. Nobody waits for the replies to the other frames, and the flag that such a reply sets
lets a later wait end before its own reply.

**In a run, every frame is waited for and every wait ends behind its own reply exactly when every
line that carries a LOGOUT frame is `LOGOUT`** (`waitsForReplies_iff`).
-/

namespace SplNet.Client

open LabelledMachine ServerMessage

/-! ### Lines and messages -/

theorem isLogoutLine_iff {line : List UInt8} :
    isLogoutLine line = true ↔ line = ascii "LOGOUT" := by
  rw [isLogoutLine, decide_eq_true_eq]
  constructor
  · intro h
    have hlen := congrArg List.length h
    rw [List.length_take, show (ascii "LOGOUT").length = 6 from rfl] at hlen
    rwa [List.take_of_length_le (by omega)] at h
  · rintro rfl
    rfl

/-- `Encoder` writes a LOGOUT frame for every line with that first word. -/
theorem logoutFrames_of_opCode {line : List UInt8} (h : opCode line = ascii "LOGOUT") :
    logoutFrames line = 1 := by
  have hline : encodedLine line = ascii "03" ++ ascii ";" := by
    rw [encodedLine, h, if_neg (by decide), if_neg (by decide), if_pos rfl]
  rw [logoutFrames, hline]
  decide

theorem logoutFrames_logout : logoutFrames (ascii "LOGOUT") = 1 :=
  logoutFrames_of_opCode (by decide)

/-- A message that is not the reply to LOGOUT changes no flag. -/
theorem effect_of_quiet {m : ServerMessage} (quiet : m ≠ logoutAck ∧ m ≠ logoutError)
    (flags : Flags) : m.effect flags = flags := by
  cases m with
  | ack optCode length plain =>
    refine if_neg ?_
    rintro rfl
    exact quiet.1 rfl
  | error optCode length =>
    refine if_neg ?_
    rintro rfl
    exact quiet.2 rfl
  | followAck _ _ _ _ => rfl
  | statAck _ _ _ _ _ _ => rfl
  | notification _ _ _ _ => rfl

/-! ### The invariant -/

namespace LogoutClient

variable {s : LogoutClient} {line : List UInt8} {frames : List ℕ}

/-- Every LOGOUT frame is with the server, or its reply is on the way, or is decoded. -/
def Accounted (s : LogoutClient) : Prop :=
  s.decoded ++ (s.toClient.flatMap Incoming.answered ++ s.toServer) = List.range s.sent

/-- All replies have been decoded. -/
def Settled (s : LogoutClient) : Prop := s.decoded = List.range s.sent

/-- A flag ends the wait. -/
def FlagSet (s : LogoutClient) : Prop := s.flags.terminate = true ∨ s.flags.logoutFailed = true

/-- Nothing is to come, and no flag is left over. -/
def Idle (s : LogoutClient) : Prop := s.Settled ∧ ¬ s.FlagSet

/-- At most one reply is to come, and it sets a flag. -/
structure Awaiting (s : LogoutClient) (frames : List ℕ) : Prop where
  settled : s.FlagSet → s.Settled
  one : s.sent ≤ s.decoded.length + 1
  frames_lt : ∀ frame ∈ frames, frame < s.sent

/-- What holds when the keyboard thread stands at a point, if all lines it has tested were as they
should be. -/
def HoldsAt (s : LogoutClient) : KeyboardPoint → Prop
  | .loop => s.Settled ∧ s.flags.logoutFailed = false
  | .getline => s.Idle
  | .encoder _ => s.Idle
  | .sendBytes _ => s.Idle
  | .testLine line frames =>
    (0 < logoutFrames line → line = ascii "LOGOUT") →
      s.Awaiting frames ∧ (logoutFrames line = 0 → s.Idle)
  | .waitTerminate frames => s.Awaiting frames
  | .waitLogoutFailed frames => s.Awaiting frames
  | .testLogoutSent => s.Settled
  | .clearLogoutSent => s.Settled
  | .testLogoutFailed => s.Settled
  | .clearLogoutFailed => s.Settled
  | .ended => True

/-- What a step of the socket thread does: it decodes a reply, and that sets a flag, or it changes
neither the flags nor the replies. -/
theorem socketStep_cases (s : LogoutClient) :
    s.socketStep.flags = s.flags ∧ s.socketStep.decoded = s.decoded ∧
        s.socketStep.toClient.flatMap Incoming.answered = s.toClient.flatMap Incoming.answered ∨
      ∃ frame, s.toClient.flatMap Incoming.answered =
          frame :: s.socketStep.toClient.flatMap Incoming.answered ∧
        s.socketStep.decoded = s.decoded ++ [frame] ∧ s.socketStep.FlagSet := by
  rcases hsocket : s.socket with - | - | -
  · exact .inl (by simp [socketStep, hsocket])
  · rcases hclient : s.toClient with - | ⟨incoming, rest⟩
    · exact .inl (by simp [socketStep, hsocket, hclient])
    · cases incoming with
      | reply frame accepted =>
        refine .inr ⟨frame, ?_⟩
        cases accepted <;>
          simp [socketStep, hsocket, hclient, FlagSet, Incoming.message, Incoming.answered, effect,
            logoutAck, logoutError]
      | other m quiet =>
        exact .inl (by
          simp [socketStep, hsocket, hclient, Incoming.message, Incoming.answered,
            effect_of_quiet quiet])
  · exact .inl (by simp [socketStep, hsocket])

theorem socketStep_keyboard (s : LogoutClient) :
    s.socketStep.keyboard = s.keyboard ∧ s.socketStep.sent = s.sent ∧
      s.socketStep.toServer = s.toServer := by
  rw [socketStep]
  split
  · exact ⟨rfl, rfl, rfl⟩
  · split <;> exact ⟨rfl, rfl, rfl⟩
  · exact ⟨rfl, rfl, rfl⟩

/-- Only where it sends the bytes of a line does the keyboard thread change what is on its way. -/
theorem keyboardStep_network (s : LogoutClient) (h : ∀ line, s.keyboard ≠ .sendBytes line) :
    s.keyboardStep.1.sent = s.sent ∧ s.keyboardStep.1.toServer = s.toServer ∧
      s.keyboardStep.1.toClient = s.toClient ∧ s.keyboardStep.1.decoded = s.decoded := by
  rw [keyboardStep]
  split
  case h_4 line heq => exact absurd heq (h line)
  case h_6 | h_7 => split_ifs <;> exact ⟨rfl, rfl, rfl, rfl⟩
  all_goals exact ⟨rfl, rfl, rfl, rfl⟩

/-! ### Every reply is accounted for -/

theorem accounted_of_eq {s s' : LogoutClient} (hsent : s'.sent = s.sent)
    (hserver : s'.toServer = s.toServer) (hclient : s'.toClient = s.toClient)
    (hdecoded : s'.decoded = s.decoded) (h : s.Accounted) : s'.Accounted := by
  rw [Accounted, hsent, hserver, hclient, hdecoded]
  exact h

theorem accounted_keyboardStep (h : s.Accounted) : s.keyboardStep.1.Accounted := by
  by_cases hsend : ∃ line, s.keyboard = .sendBytes line
  · obtain ⟨line, hline⟩ := hsend
    have hrange : List.range (s.sent + logoutFrames line) =
        List.range s.sent ++ List.range' s.sent (logoutFrames line) := by
      rw [List.range_add, List.range'_eq_map_range]
    rw [Accounted] at h
    simp only [keyboardStep, hline, Accounted, hrange, ← h, List.append_assoc]
  · obtain ⟨hsent, hserver, hclient, hdecoded⟩ :=
      keyboardStep_network s fun line hline ↦ hsend ⟨line, hline⟩
    exact accounted_of_eq hsent hserver hclient hdecoded h

theorem accounted_socketStep (h : s.Accounted) : s.socketStep.Accounted := by
  obtain ⟨-, hsent, hserver⟩ := socketStep_keyboard s
  rw [Accounted] at h ⊢
  rw [hsent, hserver]
  rcases socketStep_cases s with ⟨-, hdecoded, hclient⟩ | ⟨frame, hclient, hdecoded, -⟩
  · rw [hdecoded, hclient]
    exact h
  · rw [hclient] at h
    rw [hdecoded, List.append_assoc]
    exact h

theorem accounted_step (h : s.Accounted) (e : LogoutEvent) :
    (logoutMachine.next s e).Accounted := by
  cases e with
  | typed line =>
    simp only [next, logoutMachine, logoutStep]
    split <;> exact h
  | keyboard => exact accounted_keyboardStep h
  | socket => exact accounted_socketStep h
  | answer accepted =>
    simp only [next, logoutMachine, logoutStep]
    split
    case h_1 => exact h
    case h_2 frame rest hserver =>
      rw [Accounted, hserver] at h
      simp only [Accounted, List.flatMap_append, List.flatMap_singleton, Incoming.answered,
        List.append_assoc, List.singleton_append]
      exact h
  | sendOther m quiet =>
    simp only [next, logoutMachine, logoutStep, Accounted, List.flatMap_append,
      List.flatMap_singleton, Incoming.answered, List.append_nil]
    exact h

/-- When all replies have been decoded, none is on its way. -/
theorem Settled.nothing_left (h : s.Settled) (haccounted : s.Accounted) :
    s.toClient.flatMap Incoming.answered = [] ∧ s.toServer = [] := by
  rw [Accounted, h] at haccounted
  exact List.append_eq_nil_iff.1 (List.append_right_eq_self.1 haccounted)

/-! ### What holds at each point -/

section SameView

variable {s' : LogoutClient} (hflags : s'.flags = s.flags) (hsent : s'.sent = s.sent)
  (hdecoded : s'.decoded = s.decoded)

include hsent hdecoded in
theorem settled_of_eq : s'.Settled ↔ s.Settled := by rw [Settled, hsent, hdecoded, Settled]

include hflags in
theorem flagSet_of_eq : s'.FlagSet ↔ s.FlagSet := by rw [FlagSet, hflags, FlagSet]

include hflags hsent hdecoded in
theorem awaiting_of_eq (h : s.Awaiting frames) : s'.Awaiting frames where
  settled hflag := (settled_of_eq hsent hdecoded).2 (h.settled ((flagSet_of_eq hflags).1 hflag))
  one := by
    rw [hsent, hdecoded]
    exact h.one
  frames_lt := by
    rw [hsent]
    exact h.frames_lt

include hflags hsent hdecoded in
/-- The invariant sees the flags and the replies only. -/
theorem holdsAt_of_eq {point : KeyboardPoint} (h : s.HoldsAt point) : s'.HoldsAt point := by
  have hsettled := settled_of_eq hsent hdecoded
  have hidle : s.Idle → s'.Idle := fun hidle ↦
    ⟨hsettled.2 hidle.1, fun hflag ↦ hidle.2 ((flagSet_of_eq hflags).1 hflag)⟩
  cases point
  case loop =>
    refine ⟨hsettled.2 h.1, ?_⟩
    rw [hflags]
    exact h.2
  case getline | encoder | sendBytes => exact hidle h
  case testLine =>
    exact fun hline ↦ ⟨awaiting_of_eq hflags hsent hdecoded (h hline).1, hidle ∘ (h hline).2⟩
  case waitTerminate | waitLogoutFailed => exact awaiting_of_eq hflags hsent hdecoded h
  case testLogoutSent | clearLogoutSent | testLogoutFailed | clearLogoutFailed => exact hsettled.2 h
  case ended => trivial

end SameView

/-- A frame that is waited for has been answered when a flag ends the wait. -/
theorem Awaiting.mem_decoded (h : s.Awaiting frames) (hflag : s.FlagSet) :
    ∀ frame ∈ frames, frame ∈ s.decoded := by
  intro frame hframe
  rw [h.settled hflag, List.mem_range]
  exact h.frames_lt frame hframe

/-- A reply that is decoded is the last one. -/
theorem Awaiting.settled_of_decoded {s' : LogoutClient} {frame : ℕ} (h : s.Awaiting frames)
    (haccounted : s'.Accounted) (hsent : s'.sent = s.sent)
    (hdecoded : s'.decoded = s.decoded ++ [frame]) : s'.Settled := by
  have hlen := congrArg List.length haccounted
  have hone := h.one
  rw [List.length_append, hdecoded, List.length_range, hsent, List.length_append,
    List.length_singleton] at hlen
  have hnil : s'.toClient.flatMap Incoming.answered ++ s'.toServer = [] :=
    List.length_eq_zero_iff.1 (by omega)
  rw [Accounted, hnil, List.append_nil] at haccounted
  exact haccounted

theorem awaiting_socketStep (haccounted : s.Accounted) (h : s.Awaiting frames) :
    s.socketStep.Awaiting frames := by
  obtain ⟨-, hsent, -⟩ := socketStep_keyboard s
  rcases socketStep_cases s with ⟨hflags, hdecoded, -⟩ | ⟨frame, -, hdecoded, -⟩
  · exact awaiting_of_eq hflags hsent hdecoded h
  · have hsettled := h.settled_of_decoded (accounted_socketStep haccounted) hsent hdecoded
    refine ⟨fun _ ↦ hsettled, ?_, ?_⟩
    · rw [hsettled, List.length_range]
      exact Nat.le_succ _
    · rw [hsent]
      exact h.frames_lt

/-- When all replies have been decoded, the socket thread changes nothing the invariant sees. -/
theorem socketStep_of_settled (haccounted : s.Accounted) (h : s.Settled) :
    s.socketStep.flags = s.flags ∧ s.socketStep.decoded = s.decoded := by
  rcases socketStep_cases s with ⟨hflags, hdecoded, -⟩ | ⟨frame, hclient, -, -⟩
  · exact ⟨hflags, hdecoded⟩
  · rw [(h.nothing_left haccounted).1] at hclient
    exact absurd hclient (by simp)

theorem idle_socketStep (haccounted : s.Accounted) (h : s.Idle) : s.socketStep.Idle := by
  obtain ⟨-, hsent, -⟩ := socketStep_keyboard s
  obtain ⟨hflags, hdecoded⟩ := socketStep_of_settled haccounted h.1
  exact ⟨(settled_of_eq hsent hdecoded).2 h.1, fun hflag ↦ h.2 ((flagSet_of_eq hflags).1 hflag)⟩

theorem holdsAt_socketStep {point : KeyboardPoint} (haccounted : s.Accounted)
    (h : s.HoldsAt point) : s.socketStep.HoldsAt point := by
  obtain ⟨-, hsent, -⟩ := socketStep_keyboard s
  have hsettled : s.Settled → s.socketStep.HoldsAt point := fun hs ↦
    holdsAt_of_eq (socketStep_of_settled haccounted hs).1 hsent
      (socketStep_of_settled haccounted hs).2 h
  cases point
  case loop => exact hsettled h.1
  case getline | encoder | sendBytes => exact hsettled h.1
  case testLogoutSent | clearLogoutSent | testLogoutFailed | clearLogoutFailed => exact hsettled h
  case testLine =>
    intro hline
    obtain ⟨hawaiting, hidle⟩ := h hline
    exact ⟨awaiting_socketStep haccounted hawaiting, idle_socketStep haccounted ∘ hidle⟩
  case waitTerminate | waitLogoutFailed => exact awaiting_socketStep haccounted h
  case ended => trivial

/-- The line that the keyboard thread tests is `LOGOUT` if it carries a LOGOUT frame. -/
def TestsPlainLine (s : LogoutClient) : Prop :=
  ∀ line frames, s.keyboard = .testLine line frames → 0 < logoutFrames line → line = ascii "LOGOUT"

theorem holdsAt_keyboardStep (hplain : s.TestsPlainLine) (h : s.HoldsAt s.keyboard) :
    s.keyboardStep.1.HoldsAt s.keyboardStep.1.keyboard := by
  rcases hpoint : s.keyboard with
    _ | _ | line | line | ⟨line, frames⟩ | frames | frames | _ | _ | _ | _ | _
  all_goals
    rw [hpoint] at h
    simp only [keyboardStep, hpoint]
  case loop =>
    split_ifs with hterminate
    · trivial
    · refine ⟨h.1, ?_⟩
      rintro (hflag | hflag)
      · exact hterminate hflag
      · exact absurd (hflag.symm.trans h.2) (by decide)
  case encoder =>
    refine ⟨h.1, fun hflag ↦ h.2 ?_⟩
    -- `Encoder` sets `logoutSent` only
    rw [FlagSet, Client.encoder] at hflag
    split_ifs at hflag <;> exact hflag
  case sendBytes =>
    intro hline
    have hsent : s.decoded.length = s.sent := by rw [h.1, List.length_range]
    refine ⟨⟨fun hflag ↦ absurd hflag h.2, ?_, ?_⟩, ?_⟩
    · have hone : logoutFrames line ≤ 1 := by
        by_cases hzero : logoutFrames line = 0
        · omega
        · rw [hline (Nat.pos_of_ne_zero hzero), logoutFrames_logout]
      dsimp only
      omega
    · intro frame hframe
      exact (List.mem_range'_1.1 hframe).2
    · intro hzero
      refine ⟨?_, h.2⟩
      rw [Settled, hzero, Nat.add_zero]
      exact h.1
  case testLine =>
    obtain ⟨hawaiting, hidle⟩ := h (hplain line frames hpoint)
    split_ifs with hlogout
    · exact awaiting_of_eq (s := s) rfl rfl rfl hawaiting
    · have hzero : logoutFrames line = 0 := by
        by_contra hne
        exact hlogout (isLogoutLine_iff.2 (hplain line frames hpoint (Nat.pos_of_ne_zero hne)))
      have hfailed : s.flags.logoutFailed = false := by
        rw [Bool.eq_false_iff]
        exact fun hflag ↦ (hidle hzero).2 (.inr hflag)
      exact ⟨(hidle hzero).1, hfailed⟩
  case waitTerminate =>
    split_ifs with hterminate
    · exact h.settled (.inl hterminate)
    · exact awaiting_of_eq (s := s) rfl rfl rfl h
  case waitLogoutFailed =>
    split_ifs with hfailed
    · exact h.settled (.inr hfailed)
    · exact awaiting_of_eq (s := s) rfl rfl rfl h
  case testLogoutSent => split_ifs <;> exact h
  case clearLogoutSent => exact h
  case testLogoutFailed =>
    split_ifs with hfailed
    · exact h
    · exact ⟨h, Bool.eq_false_iff.2 hfailed⟩
  case clearLogoutFailed => exact ⟨h, rfl⟩
  case getline | ended => exact h

/-- What one step preserves. -/
theorem holdsAt_step {e : LogoutEvent} (haccounted : s.Accounted)
    (hplain : e = .keyboard → s.TestsPlainLine) (h : s.HoldsAt s.keyboard) :
    (logoutMachine.next s e).HoldsAt (logoutMachine.next s e).keyboard := by
  have hsame : ∀ s' : LogoutClient, s'.keyboard = s.keyboard → s'.flags = s.flags →
      s'.sent = s.sent → s'.decoded = s.decoded → s'.HoldsAt s'.keyboard := by
    intro s' hkeyboard hflags hsent hdecoded
    rw [hkeyboard]
    exact holdsAt_of_eq hflags hsent hdecoded h
  cases e with
  | typed line =>
    simp only [next, logoutMachine, logoutStep]
    split
    case h_1 hpoint =>
      rw [hpoint] at h
      exact h
    case h_2 => exact h
  | keyboard => exact holdsAt_keyboardStep (hplain rfl) h
  | socket =>
    have hstep := holdsAt_socketStep haccounted h
    rw [← (socketStep_keyboard s).1] at hstep
    exact hstep
  | answer accepted =>
    simp only [next, logoutMachine, logoutStep]
    split
    · exact h
    · exact hsame _ rfl rfl rfl rfl
  | sendOther m quiet => exact hsame _ rfl rfl rfl rfl

end LogoutClient

/-! ### All runs -/

open LogoutClient

/-- The keyboard thread waits for the replies to LOGOUT. -/
structure WaitsForReplies (es : List LogoutEvent) : Prop where
  /-- Whenever it leaves a wait, the replies to the frames it has sent before that wait are decoded.
  -/
  decoded : ∀ pre e frames, Occurs es pre e →
    logoutMachine.output (logoutMachine.stateAfter pre) e = .waitLeft frames →
      ∀ frame ∈ frames, frame ∈ (logoutMachine.stateAfter pre).decoded
  /-- It waits behind every line that carries a LOGOUT frame. -/
  waits : ∀ pre e line waits, Occurs es pre e →
    logoutMachine.output (logoutMachine.stateAfter pre) e = .lineTested line waits →
      0 < logoutFrames line → waits = true

theorem accounted_of_reachable {s : LogoutClient} (h : logoutMachine.Reachable s) :
    s.Accounted := by
  have hinit : logoutMachine.init.Accounted := rfl
  exact h.invariant hinit fun _ e _ hs ↦ accounted_step hs e

/-- In a run whose steps test plain lines only, the invariant holds at every point. -/
theorem holdsAt_along {es : List LogoutEvent}
    (hplain : ∀ pre, Occurs es pre .keyboard → (logoutMachine.stateAfter pre).TestsPlainLine)
    {pre : List LogoutEvent} (hpre : pre <+: es) :
    (logoutMachine.stateAfter pre).HoldsAt (logoutMachine.stateAfter pre).keyboard := by
  have hinit : logoutMachine.init.HoldsAt logoutMachine.init.keyboard := ⟨rfl, rfl⟩
  refine invariant_along (P := fun s : LogoutClient ↦ s.HoldsAt s.keyboard) hinit ?_ hpre
  rintro pre e hocc h
  refine holdsAt_step (accounted_of_reachable (logoutMachine.reachable_stateAfter pre)) ?_ h
  rintro rfl
  exact hplain pre hocc

theorem output_keyboard (s : LogoutClient) :
    logoutMachine.output s .keyboard = s.keyboardStep.2 := rfl

/-- Only the keyboard thread decides anything. -/
theorem output_of_ne {s : LogoutClient} {e : LogoutEvent} (h : e ≠ .keyboard) :
    logoutMachine.output s e = .other := by
  cases e with
  | keyboard => exact absurd rfl h
  | typed line =>
    simp only [output, logoutMachine, logoutStep]
    split <;> rfl
  | answer accepted =>
    simp only [output, logoutMachine, logoutStep]
    split <;> rfl
  | socket => rfl
  | sendOther m quiet => rfl

/-- A wait is left when a flag is set. -/
theorem flagSet_of_waitLeft {s : LogoutClient} {e : LogoutEvent} {frames : List ℕ}
    (h : logoutMachine.output s e = .waitLeft frames) :
    e = .keyboard ∧ s.FlagSet ∧
      (s.keyboard = .waitTerminate frames ∨ s.keyboard = .waitLogoutFailed frames) := by
  by_cases he : e = .keyboard
  · subst he
    refine ⟨rfl, ?_⟩
    rw [output_keyboard, keyboardStep] at h
    split at h
    case h_6 frames' hpoint =>
      split_ifs at h with hterminate
      · obtain rfl := LogoutRecord.waitLeft.inj h
        exact ⟨.inl hterminate, .inl hpoint⟩
    case h_7 frames' hpoint =>
      split_ifs at h with hfailed
      · obtain rfl := LogoutRecord.waitLeft.inj h
        exact ⟨.inr hfailed, .inr hpoint⟩
    all_goals exact absurd h (by simp)
  · rw [output_of_ne he] at h
    exact absurd h (by simp)

theorem testLine_of_lineTested {s : LogoutClient} {e : LogoutEvent} {line : List UInt8}
    {waits : Bool} (h : logoutMachine.output s e = .lineTested line waits) :
    e = .keyboard ∧ waits = isLogoutLine line ∧ ∃ frames, s.keyboard = .testLine line frames := by
  by_cases he : e = .keyboard
  · subst he
    refine ⟨rfl, ?_⟩
    rw [output_keyboard, keyboardStep] at h
    split at h
    case h_5 line' frames hpoint =>
      obtain ⟨rfl, rfl⟩ := LogoutRecord.lineTested.inj h
      exact ⟨rfl, frames, hpoint⟩
    case h_6 | h_7 => split_ifs at h
    all_goals exact absurd h (by simp)
  · rw [output_of_ne he] at h
    exact absurd h (by simp)

/-- **The keyboard thread waits for the replies to its LOGOUT frames exactly in the runs in which it
tests no line with a LOGOUT frame but `LOGOUT`.** -/
theorem waitsForReplies_iff (es : List LogoutEvent) :
    WaitsForReplies es ↔
      ∀ pre, Occurs es pre .keyboard → (logoutMachine.stateAfter pre).TestsPlainLine := by
  constructor
  · intro h pre hocc line frames hpoint hcarries
    refine isLogoutLine_iff.1 (h.waits pre .keyboard line _ hocc ?_ hcarries)
    simp only [output_keyboard, keyboardStep, hpoint]
  · intro hplain
    constructor
    · intro pre e frames hocc hleft
      obtain ⟨rfl, hflag, hpoint⟩ := flagSet_of_waitLeft hleft
      have hinv := holdsAt_along hplain hocc.before
      have hawaiting : (logoutMachine.stateAfter pre).Awaiting frames := by
        rcases hpoint with hpoint | hpoint
        all_goals
          rw [hpoint] at hinv
          exact hinv
      exact hawaiting.mem_decoded hflag
    · intro pre e line waits hocc htested hcarries
      obtain ⟨rfl, rfl, frames, hpoint⟩ := testLine_of_lineTested htested
      exact isLogoutLine_iff.2 (hplain pre hocc line frames hpoint hcarries)

/-- With `LOGOUT ` (and a blank) the client does not wait, and the reply that is decoded later ends
the wait for the next LOGOUT before its own reply. -/
theorem blank_behind_logout :
    ¬ WaitsForReplies
      [.keyboard, .typed (ascii "LOGOUT "), .keyboard, .keyboard, .keyboard, .answer false, .socket,
        .socket, .keyboard, .typed (ascii "LOGOUT"), .keyboard, .keyboard, .keyboard, .keyboard,
        .keyboard] := by
  intro h
  have hunanswered := h.decoded
    [.keyboard, .typed (ascii "LOGOUT "), .keyboard, .keyboard, .keyboard, .answer false, .socket,
      .socket, .keyboard, .typed (ascii "LOGOUT"), .keyboard, .keyboard, .keyboard, .keyboard]
    .keyboard [1] List.prefix_rfl (by decide) 1 (by decide)
  exact absurd hunanswered (by decide)

end SplNet.Client
