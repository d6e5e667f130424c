import SplNet.Client.Answers
import SplNet.Srv.HandlersFinish
import SplNet.System.Network

/-!
# Nothing gets stuck

The handlers and the socket threads by themselves, with no further connection and no further line,
can always come to rest: a handler ends the task it is at (`exists_idle`), then reads what is under
way to it, frame by frame (`exists_served`), and a client shows what is under way to it
(`exists_shown`), up to an acknowledgement of LOGOUT. While one connection is served, the others keep what they have
(`ServesOnly`), so all can be served one after the other.
-/

namespace SplNet

open Java Client LabelledMachine

/-- A byte is read, a handler goes on or a message is shown. -/
def NetworkEvent.IsDelivery : NetworkEvent → Prop
  | .receive _ | .step _ _ | .display _ => True
  | _ => False

/-- The event ends the handler of a connection with an exception: of the frame it carries out, of
one it takes up, or of the decoder. -/
def NetworkEvent.Crashes (w : Network) (c : ℤ) : NetworkEvent → Prop
  | .step env d => d = c ∧ (w.handlers.task c).throws env c w.handlers.server = true
  | .receive d => d = c ∧ ∃ byte rest, (w.link c).toServer = byte :: rest ∧
    ((w.link c).encdec.decodeNextByte byte = none ∨
      ∃ d message, (w.link c).encdec.decodeNextByte byte = some (d, some message) ∧
        startTask message = .idle)
  | _ => False

/-- The handler has nothing to do: it is at rest, and has read everything unless it has ended. -/
def Network.Served (w : Network) (c : ℤ) : Prop :=
  w.handlers.task c = .idle ∧ ((w.link c).serving = true → (w.link c).toServer = [])

/-- Everything that happens in between happens at one connection, apart from what its handler sends
and stores. -/
structure ServesOnly (c : ℤ) (w w' : Network) : Prop where
  connectionsMap : w'.handlers.server.connectionsMap = w.handlers.server.connectionsMap
  task : ∀ d, d ≠ c → w'.handlers.task d = w.handlers.task d
  toServer : ∀ d, d ≠ c → (w'.link d).toServer = (w.link d).toServer
  serving : ∀ d, d ≠ c → (w'.link d).serving = (w.link d).serving

section Progress

variable {c : ℤ} {w w' w'' : Network}

theorem ServesOnly.refl (c : ℤ) (w : Network) : ServesOnly c w w :=
  ⟨rfl, fun _ _ ↦ rfl, fun _ _ ↦ rfl, fun _ _ ↦ rfl⟩

theorem ServesOnly.trans (h : ServesOnly c w w') (h' : ServesOnly c w' w'') :
    ServesOnly c w w'' where
  connectionsMap := h'.connectionsMap.trans h.connectionsMap
  task d hd := (h'.task d hd).trans (h.task d hd)
  toServer d hd := (h'.toServer d hd).trans (h.toServer d hd)
  serving d hd := (h'.serving d hd).trans (h.serving d hd)

/-- A connection that is served stays served while another one is. -/
theorem ServesOnly.served (h : ServesOnly c w w') {d : ℤ} (hd : d ≠ c) (hserved : w.Served d) :
    w'.Served d := by
  rw [Network.Served, h.task d hd, h.serving d hd, h.toServer d hd]
  exact hserved

/-- A step of a handler reads nothing. -/
theorem servesOnly_step (env : Surroundings) (c : ℤ) (w : Network) :
    ServesOnly c w (networkMachine.next w (.step env c)) ∧
      ((networkMachine.next w (.step env c)).link c).toServer = (w.link c).toServer ∧
      (((networkMachine.next w (.step env c)).link c).serving = true →
        (w.link c).serving = true) ∧
      (networkMachine.next w (.step env c)).handlers =
        (handlersStep w.handlers (.step env c)).1 := by
  have heffect := handlerEffect_taskStep env c w.handlers.server (w.handlers.task c)
  have hhandlers : (networkMachine.next w (.step env c)).handlers =
      (handlersStep w.handlers (.step env c)).1 := Network.closeIf_handlers _ _ c
  have hlink : ∀ d, (networkMachine.next w (.step env c)).link d =
      (Network.closeIf _ ((w.handlers.task c).throws env c w.handlers.server) c).link d :=
    fun _ ↦ rfl
  refine ⟨⟨?_, fun d hd ↦ ?_, fun d hd ↦ ?_, fun d hd ↦ ?_⟩, ?_, fun hserving ↦ ?_, hhandlers⟩
  · rw [hhandlers]
    exact heffect.connectionsMap_eq
  · rw [hhandlers]
    exact if_neg hd
  · rw [hlink, Network.closeIf_link]
    rfl
  · rw [hlink, Network.closeIf_link, if_neg fun h ↦ hd h.1]
    rfl
  · rw [hlink, Network.closeIf_link]
    rfl
  · rw [hlink, Network.closeIf_link] at hserving
    dsimp only at hserving
    split at hserving
    · exact absurd hserving Bool.false_ne_true
    · exact hserving

/-- **A handler can end its task**, and reads nothing meanwhile. -/
theorem exists_idle (c : ℤ) (w : Network) :
    ∃ w', networkMachine.Leads NetworkEvent.IsDelivery w w' ∧ ServesOnly c w w' ∧
      w'.handlers.task c = .idle ∧ (w'.link c).toServer = (w.link c).toServer ∧
      ((w'.link c).serving = true → (w.link c).serving = true) := by
  obtain ⟨s', sent, hruns⟩ := finishes .listed c w.handlers.server (w.handlers.task c)
  generalize hserver : w.handlers.server = s at hruns
  generalize htask : w.handlers.task c = task at hruns
  induction hruns generalizing w with
  | idle s => exact ⟨w, .refl _ w, .refl c w, htask, rfl, id⟩
  | @step s s' task sent h ih =>
    have hstep : w.handlers.stepOf .listed c = taskStep .listed c s task := by
      rw [Handlers.stepOf, hserver, htask]
    obtain ⟨honly₁, htoServer₁, hserving₁, hhandlers⟩ := servesOnly_step .listed c w
    obtain ⟨w', hleads, honly, hidle, htoServer, hserving⟩ := ih
      (networkMachine.next w (.step .listed c))
      (by rw [hhandlers]; exact congrArg TaskStep.server hstep)
      (by rw [hhandlers]; exact (if_pos rfl).trans (congrArg TaskStep.task hstep))
    exact ⟨w', (Leads.of_next trivial).trans hleads, honly₁.trans honly, hidle,
      htoServer.trans htoServer₁, hserving₁ ∘ hserving⟩

/-- A byte is read. -/
theorem next_receive {byte : UInt8} {rest : List UInt8}
    (hbytes : (w.link c).toServer = byte :: rest) (hserving : (w.link c).serving = true)
    (hidle : w.handlers.task c = .idle) :
    networkMachine.next w (.receive c) = (w.receiveByte c byte rest).1 := by
  show (networkStep w (.receive c)).1 = _
  rw [networkStep, hbytes]
  dsimp only
  rw [if_pos ⟨hserving, hidle⟩]

/-- The byte is gone, or the handler. -/
theorem servesOnly_receiveByte (w : Network) (c : ℤ) (byte : UInt8) (rest : List UInt8) :
    ServesOnly c w (w.receiveByte c byte rest).1 ∧
      (((w.receiveByte c byte rest).1.link c).serving = true →
        ((w.receiveByte c byte rest).1.link c).toServer = rest) := by
  -- all cases change one connection, and no other task
  have hone : ∀ (w' : Network) (l : Link), w'.link = Function.update w.link c l →
      w'.handlers.server.connectionsMap = w.handlers.server.connectionsMap →
      (∀ e, e ≠ c → w'.handlers.task e = w.handlers.task e) → ServesOnly c w w' := by
    intro w' l hw' hconnections htask
    refine ⟨hconnections, htask, fun e he ↦ ?_, fun e he ↦ ?_⟩
    all_goals rw [hw', Function.update_of_ne he]
  have hrequest : ∀ (w' : Network) (m : JString), w'.handlers = w.handlers →
      (w'.handle (.request c m)).handlers.server.connectionsMap =
        w.handlers.server.connectionsMap ∧
      ∀ e, e ≠ c → (w'.handle (.request c m)).handlers.task e = w.handlers.task e := by
    intro w' m hw'
    rw [← hw']
    exact ⟨congrArg Server.connectionsMap (next_request_server w'.handlers w'.handlers c m),
      fun e he ↦ (next_request_task w'.handlers w'.handlers c e m).trans
        (if_neg fun h ↦ he h.1)⟩
  rw [Network.receiveByte]
  rcases (w.link c).encdec.decodeNextByte byte with - | ⟨d, - | m⟩
  · refine ⟨hone _ _ rfl rfl fun _ _ ↦ rfl, fun hserving ↦ ?_⟩
    have hclosed : ((w.close c).link c).serving = false := by
      show (Function.update w.link c _ c).serving = false
      rw [Function.update_self]
    exact absurd (hclosed.symm.trans hserving) Bool.false_ne_true
  · refine ⟨hone _ _ rfl rfl fun _ _ ↦ rfl, fun _ ↦ ?_⟩
    show (Function.update w.link c _ c).toServer = rest
    rw [Function.update_self]
  · obtain ⟨hconnections, htask⟩ := hrequest
      (w.setLink c { w.link c with toServer := rest, encdec := d }) m rfl
    refine ⟨⟨?_, fun e he ↦ ?_, fun e he ↦ ?_, fun e he ↦ ?_⟩, fun _ ↦ ?_⟩
    · rw [Network.closeIf_handlers]
      exact hconnections
    · rw [Network.closeIf_handlers]
      exact htask e he
    · rw [Network.closeIf_link]
      show (Function.update w.link c _ e).toServer = _
      rw [Function.update_of_ne he]
    · rw [Network.closeIf_link, if_neg fun h ↦ he h.1]
      show (Function.update w.link c _ e).serving = _
      rw [Function.update_of_ne he]
    · rw [Network.closeIf_link]
      show (Function.update w.link c _ c).toServer = rest
      rw [Function.update_self]

/-- **A handler can read everything under way to it**, unless it ends. -/
theorem exists_served (c : ℤ) (w : Network) :
    ∃ w', networkMachine.Leads NetworkEvent.IsDelivery w w' ∧ ServesOnly c w w' ∧
      w'.Served c := by
  induction hbytes : (w.link c).toServer generalizing w with
  | nil =>
    obtain ⟨w', hleads, honly, hidle, htoServer, -⟩ := exists_idle c w
    exact ⟨w', hleads, honly, hidle, fun _ ↦ htoServer.trans hbytes⟩
  | cons byte rest ih =>
    obtain ⟨w₁, hleads₁, honly₁, hidle₁, htoServer₁, -⟩ := exists_idle c w
    rw [hbytes] at htoServer₁
    rcases hserves : (w₁.link c).serving with - | -
    · -- the handler has ended
      exact ⟨w₁, hleads₁, honly₁, hidle₁, fun h ↦ absurd (hserves.symm.trans h) nofun⟩
    have hreceive : networkMachine.Leads NetworkEvent.IsDelivery w₁
        (w₁.receiveByte c byte rest).1 := by
      rw [← next_receive htoServer₁ hserves hidle₁]
      exact .of_next trivial
    obtain ⟨honly₂, hrest⟩ := servesOnly_receiveByte w₁ c byte rest
    rcases hserves₂ : ((w₁.receiveByte c byte rest).1.link c).serving with - | -
    · obtain ⟨w', hleads, honly, hidle, -, hserving⟩ := exists_idle c (w₁.receiveByte c byte rest).1
      exact ⟨w', (hleads₁.trans hreceive).trans hleads, (honly₁.trans honly₂).trans honly, hidle,
        fun h ↦ absurd (hserves₂.symm.trans (hserving h)) nofun⟩
    · obtain ⟨w', hleads, honly, hserved⟩ := ih (w₁.receiveByte c byte rest).1 (hrest hserves₂)
      exact ⟨w', (hleads₁.trans hreceive).trans hleads, (honly₁.trans honly₂).trans honly, hserved⟩

/-- **A handler does not end but by an exception.** -/
theorem serving_next {e : NetworkEvent} (he : e.IsDelivery) (hcrash : ¬ e.Crashes w c)
    (h : (w.link c).serving = true) : ((networkMachine.next w e).link c).serving = true := by
  show ((networkStep w e).1.link c).serving = true
  cases e with
  | connect => exact absurd he id
  | typed d line => exact absurd he id
  | stop d => exact absurd he id
  | step env d =>
    rw [networkStep, Network.closeIf_link, if_neg]
    · exact h
    · rintro ⟨rfl, hthrows⟩
      exact hcrash ⟨rfl, hthrows⟩
  | display d =>
    rw [networkStep]
    split_ifs
    · exact h
    rcases decoder (w.link d).flags (w.link d).toClient with - | ⟨flags, text, rest⟩
    · exact h
    · show (Function.update w.link d _ c).serving = true
      rcases eq_or_ne c d with rfl | hne
      · rw [Function.update_self]
        exact h
      · rw [Function.update_of_ne hne]
        exact h
  | receive d =>
    rw [networkStep]
    rcases hbytes : (w.link d).toServer with - | ⟨byte, rest⟩
    · exact h
    dsimp only
    split_ifs
    · rcases eq_or_ne c d with rfl | hne
      · have hnone : (w.link c).encdec.decodeNextByte byte ≠ none := fun hnone ↦
          hcrash ⟨rfl, byte, rest, hbytes, .inl hnone⟩
        have htask : ∀ d m, (w.link c).encdec.decodeNextByte byte = some (d, some m) →
            startTask m ≠ .idle := fun d m hm hidle ↦
          hcrash ⟨rfl, byte, rest, hbytes, .inr ⟨d, m, hm, hidle⟩⟩
        rw [Network.receiveByte]
        rcases hdecode : (w.link c).encdec.decodeNextByte byte with - | ⟨d, - | m⟩
        · exact absurd hdecode hnone
        · show (Function.update w.link c _ c).serving = true
          rw [Function.update_self]
          exact h
        · rw [Network.closeIf_link, if_neg fun hidle ↦ htask d m hdecode hidle.2]
          show (Function.update w.link c _ c).serving = true
          rw [Function.update_self]
          exact h
      · rw [(servesOnly_receiveByte w d byte rest).1.serving c hne]
        exact h
    · exact h

/-! ### The clients -/

/-- What is under way to a client are answers. -/
def Link.Readable (l : Link) : Prop := ∃ waiting : List Answer,
  l.toClient = (waiting.map Answer.bytes).flatten

/-- The socket thread has nothing to do: everything has been read, or it has ended. -/
def Link.Shown (l : Link) : Prop := l.toClient = [] ∨ l.flags.terminate = true

/-- **A client can show everything under way to it**, up to an acknowledgement of LOGOUT, if these
are answers. Nothing else changes. -/
theorem exists_shown {c : ℤ} {w : Network} (h : (w.link c).Readable) :
    ∃ w', networkMachine.Leads NetworkEvent.IsDelivery w w' ∧ w'.handlers = w.handlers ∧
      (w'.link c).Shown ∧ (w'.link c).Readable ∧
      (∀ d, d ≠ c → w'.link d = w.link d) ∧ (w'.link c).toServer = (w.link c).toServer := by
  obtain ⟨waiting, hbytes⟩ := h
  induction waiting generalizing w with
  | nil => exact ⟨w, .refl _ w, rfl, .inl hbytes, ⟨[], hbytes⟩, fun _ _ ↦ rfl, rfl⟩
  | cons a waiting ih =>
    rcases hended : (w.link c).flags.terminate with - | -
    case true => exact ⟨w, .refl _ w, rfl, .inr hended, ⟨_, hbytes⟩, fun _ _ ↦ rfl, rfl⟩
    rw [List.map_cons, List.flatten_cons] at hbytes
    obtain ⟨flags, hread⟩ := a.decoder_bytes (w.link c).flags (waiting.map Answer.bytes).flatten
    have hnext : networkMachine.next w (.display c) = w.setLink c
        { w.link c with flags := flags, toClient := (waiting.map Answer.bytes).flatten } := by
      show (networkStep w (.display c)).1 = _
      rw [networkStep, if_neg (Bool.eq_false_iff.1 hended), hbytes, hread]
    have hlink : (networkMachine.next w (.display c)).link c =
        { w.link c with flags := flags, toClient := (waiting.map Answer.bytes).flatten } := by
      rw [hnext]
      exact Function.update_self c _ _
    have hother : ∀ d, d ≠ c → (networkMachine.next w (.display c)).link d = w.link d := by
      intro d hd
      rw [hnext]
      exact Function.update_of_ne hd _ _
    obtain ⟨w', hleads, hhandlers, hshown, hreadable, hlinks, htoServer⟩ :=
      ih (w := networkMachine.next w (.display c)) (by rw [hlink])
    refine ⟨w', (Leads.of_next trivial).trans hleads, ?_, hshown, hreadable,
      fun d hd ↦ (hlinks d hd).trans (hother d hd), ?_⟩
    · rw [hhandlers, hnext]
      rfl
    · rw [htoServer, hlink]

end Progress

end SplNet
