import SplNet.Client.ConnectionHandler
import SplNet.Srv.HandlerInvariant

/-!
# The clients and the server

The thread-per-client server with a client at the other end of each connection, and the bytes under
way between them. Any number of clients connect; each is given lines, encodes them and sends the
bytes. The handler of a connection reads one byte after the other, as `ConnectionHandlerImpl.run`
does, and takes up a frame when it is complete; the handlers carry out their frames in steps, in any
interleaving (`handlersMachine`), and what they send is encoded and travels to the client of its
connection, whose socket thread reads one message after the other.

A byte is under way for as long as it takes. A client is given lines at any time, so the waiting of
the keyboard thread behind a LOGOUT is one of the possible schedules. The socket thread of a client
reads nothing more when it has read the acknowledgement of LOGOUT. The thread of a handler ends
with an exception, or between two frames because its connection is gone; the socket is closed with
it, and what is sent to it afterwards is lost.
-/

namespace SplNet

open Java Client

/-- A connection, with what is under way on it and what its two ends hold. -/
structure Link where
  /-- Sent by the client and not read by the handler. -/
  toServer : List UInt8
  encdec : Decoder
  /-- The thread of the handler has not ended. -/
  serving : Bool
  /-- Sent by the handler and not read by the client. -/
  toClient : List UInt8
  flags : Flags

/-- A connection nothing has happened on. -/
def Link.new : Link where
  toServer := []
  encdec := Decoder.new
  serving := true
  toClient := []
  flags := ⟨false, false, false⟩

/-- The clients and the server. -/
structure Network where
  handlers : Handlers
  link : ℤ → Link

/-- What can happen. -/
inductive NetworkEvent
  /-- A client connects. -/
  | connect
  /-- The client of a connection is given a line. -/
  | typed (connectionId : ℤ) (line : List UInt8)
  /-- The handler of a connection reads a byte. -/
  | receive (connectionId : ℤ)
  /-- The handler of a connection goes on with its frame. -/
  | step (env : Surroundings) (connectionId : ℤ)
  /-- The thread of a handler ends, because its connection is gone. -/
  | stop (connectionId : ℤ)
  /-- The socket thread of a client reads a message and shows it, unless it has ended. -/
  | display (connectionId : ℤ)

/-- What has happened, for the record. -/
inductive NetworkRecord
  | typed (connectionId : ℤ) (line : List UInt8)
  /-- A byte, and the frame it has completed. -/
  | received (connectionId : ℤ) (byte : UInt8) (message : Option JString)
  /-- What has been sent to open connections. -/
  | sent (messages : List (ℤ × JString))
  | shown (connectionId : ℤ) (text : List UInt8)
  | other

/-- The bytes a handler sends for a message. A message that cannot be encoded is not sent. -/
def wire (message : JString) : List UInt8 :=
  match encode message with
  | .ok bytes => bytes
  | .error _ => []

/-- The messages to one connection. -/
def messagesTo (connectionId : ℤ) (messages : List (ℤ × JString)) : List JString :=
  (messages.filter (·.1 = connectionId)).map Prod.snd

/-- The next step of a task ends with an exception. -/
def HandlerTask.throws (env : Surroundings) (connectionId : ℤ) (s : Server) : HandlerTask → Bool
  | .frame f => (dispatch env connectionId s f.optCode f.text).thrown.isSome
  | .answer msg => (s.send connectionId msg).thrown.isSome
  | .registerReply _ _ => (s.send connectionId (str "1001")).thrown.isSome
  | .loginReply _ => (s.send connectionId (str "1002")).thrown.isSome
  | .replayNext loop =>
    match loop.nextItem with
    | some post =>
      match substringFrom post (replayScan loop.senderName loop.limit 0 post).2 with
      | .ok _ => false
      | .error _ => true
    | none => false
  | .replaySend connId content loop =>
    (s.send connId (notification (str "091") loop.senderName content)).thrown.isSome
  | .postSend connId _ loop =>
    (s.send connId
      (notification (str "091") (s.user loop.myUser).username loop.message)).thrown.isSome
  | _ => false

namespace Network

def init : Network where
  handlers := .resting (Server.init .threadPerClient)
  link := fun _ ↦ Link.new

/-- One connection changes. -/
def setLink (w : Network) (connectionId : ℤ) (l : Link) : Network :=
  { w with link := Function.update w.link connectionId l }

/-- The thread of a handler ends, and closes the socket. -/
def close (w : Network) (connectionId : ℤ) : Network :=
  w.setLink connectionId { w.link connectionId with serving := false }

/-- The thread of a handler ends in this case. -/
def closeIf (w : Network) (p : Prop) [Decidable p] (connectionId : ℤ) : Network :=
  if p then w.close connectionId else w

/-- The messages that go to open connections; writing to a closed one fails. -/
def delivered (w : Network) (messages : List (ℤ × JString)) : List (ℤ × JString) :=
  messages.filter fun x ↦ (w.link x.1).serving

/-- Messages are sent, each to its connection. -/
def transmit (w : Network) (messages : List (ℤ × JString)) : Network :=
  { w with link := fun d ↦
      { w.link d with
        toClient := (w.link d).toClient ++ (messagesTo d messages).flatMap wire } }

/-- The handlers make a step. -/
def handle (w : Network) (e : HandlerEvent) : Network :=
  { w with handlers := (handlersStep w.handlers e).1 }

/-- The handler of a connection reads this byte. -/
def receiveByte (w : Network) (connectionId : ℤ) (byte : UInt8) (rest : List UInt8) :
    Network × NetworkRecord :=
  match (w.link connectionId).encdec.decodeNextByte byte with
  | some (d, message) =>
    let w' := w.setLink connectionId
      { w.link connectionId with toServer := rest, encdec := d }
    match message with
    | some m =>
      -- a frame without its parts throws at once
      ((w'.handle (.request connectionId m)).closeIf (startTask m = .idle) connectionId,
        .received connectionId byte message)
    | none => (w', .received connectionId byte message)
  | none => (w.close connectionId, .other)

end Network

/-- One event. -/
def networkStep (w : Network) : NetworkEvent → Network × NetworkRecord
  | .connect => (w.handle .accept, .other)
  | .typed c line =>
    if c ∈ w.handlers.server.connectionsMap then
      let (flags, bytes) := encoder (w.link c).flags line
      (w.setLink c { w.link c with flags := flags, toServer := (w.link c).toServer ++ bytes },
        .typed c line)
    else (w, .other)
  | .receive c =>
    match (w.link c).toServer with
    | [] => (w, .other)
    | byte :: rest =>
      -- the thread reads again when it has carried out its frame
      if (w.link c).serving = true ∧ w.handlers.task c = .idle then w.receiveByte c byte rest
      else (w, .other)
  | .step env c =>
    let messages := w.delivered (w.handlers.stepOf env c).sent
    (((w.handle (.step env c)).transmit messages).closeIf
      ((w.handlers.task c).throws env c w.handlers.server) c, .sent messages)
  | .stop c => (w.closeIf (w.handlers.task c = .idle) c, .other)
  | .display c =>
    -- `while (!con.shouldTerminate())`
    if (w.link c).flags.terminate then (w, .other)
    else
      match decoder (w.link c).flags (w.link c).toClient with
      | some (flags, text, rest) =>
        (w.setLink c { w.link c with flags := flags, toClient := rest }, .shown c text)
      -- the message is not complete yet
      | none => (w, .other)

/-- The clients and the server as a machine. -/
def networkMachine : LabelledMachine Network NetworkEvent NetworkRecord where
  init := Network.init
  step := networkStep

/-! ### The record of one connection -/

namespace NetworkRecord

variable (c : ℤ)

/-- The lines its client was given. -/
def typedOn : NetworkRecord → List (List UInt8)
  | typed d line => if d = c then [line] else []
  | _ => []

/-- The bytes its handler has read. -/
def receivedOn : NetworkRecord → List UInt8
  | received d byte _ => if d = c then [byte] else []
  | _ => []

/-- The frames its handler has taken up. -/
def framesOn : NetworkRecord → List JString
  | received d _ message => if d = c then message.toList else []
  | _ => []

/-- The messages sent to it. -/
def sentTo : NetworkRecord → List JString
  | sent messages => messagesTo c messages
  | _ => []

/-- The texts its client has shown. -/
def shownOn : NetworkRecord → List (List UInt8)
  | shown d text => if d = c then [text] else []
  | _ => []

end NetworkRecord

/-! ### What one event does -/

/-- What an event does to one connection: bytes of typed lines come in and a byte goes out at one
end, the decoder gets what has gone out, and at the other end messages come in or one is shown, by a
socket thread that has not ended. -/
structure LinkStep (c : ℤ) (l : Link) (r : NetworkRecord) (l' : Link) : Prop where
  toServer : l.toServer ++ (r.typedOn c).flatMap encodedLine = r.receivedOn c ++ l'.toServer
  encdec : l.encdec.decodeBytes (r.receivedOn c) = some (l'.encdec, r.framesOn c)
  toClient : (r.shownOn c = [] ∧ l'.toClient = l.toClient ++ (r.sentTo c).flatMap wire ∧
      l'.flags.terminate = l.flags.terminate) ∨
    ∃ text, r.shownOn c = [text] ∧ r.sentTo c = [] ∧ l.flags.terminate = false ∧
      decoder l.flags l.toClient = some (l'.flags, text, l'.toClient)

/-- What an event does to the handlers. -/
inductive HandlersMove (σ : Handlers) : NetworkRecord → Handlers → Prop
  | quiet {r : NetworkRecord} (hframes : ∀ c, r.framesOn c = []) (hsent : ∀ c, r.sentTo c = []) :
      HandlersMove σ r σ
  | accept : HandlersMove σ .other (handlersStep σ .accept).1
  | request {c : ℤ} (hidle : σ.task c = .idle) (byte : UInt8) (message : JString) :
      HandlersMove σ (.received c byte (some message)) (handlersStep σ (.request c message)).1
  | step (env : Surroundings) (c : ℤ) {messages : List (ℤ × JString)}
      (hsent : messages.Sublist (σ.stepOf env c).sent) :
      HandlersMove σ (.sent messages) (handlersStep σ (.step env c)).1

section Steps

variable {c d : ℤ} {l : Link} {w : Network}

@[simp] theorem Network.closeIf_handlers (w : Network) (p : Prop) [Decidable p] (d : ℤ) :
    (w.closeIf p d).handlers = w.handlers := by
  rw [Network.closeIf]
  split <;> rfl

/-- Only the flag of one connection changes when a thread ends. -/
theorem Network.closeIf_link (w : Network) (p : Prop) [Decidable p] (c d : ℤ) :
    (w.closeIf p d).link c =
      { w.link c with serving := if c = d ∧ p then false else (w.link c).serving } := by
  rw [Network.closeIf]
  by_cases hp : p
  · rw [if_pos hp, Network.close]
    show Function.update w.link d _ c = _
    rcases eq_or_ne c d with rfl | hne
    · rw [Function.update_self, if_pos ⟨rfl, hp⟩]
    · rw [Function.update_of_ne hne, if_neg fun h ↦ hne h.1]
  · rw [if_neg hp, if_neg fun h ↦ hp h.2]

/-- `Encoder` does not end the socket thread. -/
theorem terminate_encoder (flags : Flags) (line : List UInt8) :
    (encoder flags line).1.terminate = flags.terminate := by
  rw [encoder]
  dsimp only
  split <;> rfl

/-- Nothing happens on the connection. -/
theorem LinkStep.of_other : LinkStep c l .other l :=
  ⟨List.append_nil _, rfl, .inl ⟨rfl, (List.append_nil _).symm, rfl⟩⟩

/-- That a thread ends is no part of it. -/
theorem LinkStep.closeIf {r : NetworkRecord} (h : LinkStep c l r (w.link c)) (p : Prop)
    [Decidable p] (d : ℤ) : LinkStep c l r ((w.closeIf p d).link c) := by
  rw [Network.closeIf_link]
  exact ⟨h.toServer, h.encdec, h.toClient⟩

/-- What happens on one connection does not concern another. -/
theorem LinkStep.of_ne (hne : d ≠ c) (line : List UInt8) (byte : UInt8)
    (message : Option JString) (text : List UInt8) :
    LinkStep c l (.typed d line) l ∧ LinkStep c l (.received d byte message) l ∧
      LinkStep c l (.shown d text) l := by
  refine ⟨⟨?_, ?_, .inl ⟨rfl, ?_, rfl⟩⟩, ⟨?_, ?_, .inl ⟨rfl, ?_, rfl⟩⟩,
    ⟨?_, ?_, .inl ⟨?_, ?_, rfl⟩⟩⟩
  all_goals simp [NetworkRecord.typedOn, NetworkRecord.receivedOn, NetworkRecord.framesOn,
    NetworkRecord.sentTo, NetworkRecord.shownOn, Decoder.decodeBytes, hne]

theorem linkStep_typed (c d : ℤ) (w : Network) (line : List UInt8) :
    LinkStep c (w.link c) (networkStep w (.typed d line)).2
      ((networkStep w (.typed d line)).1.link c) := by
  rw [networkStep]
  split_ifs
  · by_cases hd : d = c
    · subst hd
      show LinkStep d (w.link d) (.typed d line) (Function.update w.link d _ d)
      rw [Function.update_self]
      refine ⟨?_, rfl, .inl ⟨rfl, (List.append_nil _).symm, ?_⟩⟩
      · simp [NetworkRecord.typedOn, NetworkRecord.receivedOn]
      · exact terminate_encoder _ line
    · show LinkStep c (w.link c) (.typed d line) (Function.update w.link d _ c)
      rw [Function.update_of_ne (Ne.symm hd)]
      exact (LinkStep.of_ne hd line 0 none []).1
  · exact .of_other

theorem linkStep_receive (c d : ℤ) (w : Network) :
    LinkStep c (w.link c) (networkStep w (.receive d)).2
      ((networkStep w (.receive d)).1.link c) := by
  rw [networkStep]
  rcases hbytes : (w.link d).toServer with - | ⟨byte, rest⟩
  · exact .of_other
  · dsimp only
    split_ifs
    · rw [Network.receiveByte]
      rcases hdecode : (w.link d).encdec.decodeNextByte byte with - | ⟨e, message⟩
      · show LinkStep c (w.link c) .other ((w.close d).link c)
        exact LinkStep.of_other.closeIf True d
      · -- a frame that is complete is taken up, which changes no connection
        have hlink : LinkStep c (w.link c) (.received d byte message)
            (Function.update w.link d
              { w.link d with toServer := rest, encdec := e } c) := by
          by_cases hd : d = c
          · subst hd
            rw [Function.update_self]
            refine ⟨?_, ?_, .inl ⟨rfl, (List.append_nil _).symm, rfl⟩⟩
            · simp [NetworkRecord.typedOn, NetworkRecord.receivedOn, hbytes]
            · simp [NetworkRecord.receivedOn, NetworkRecord.framesOn,
                Decoder.decodeBytes_singleton hdecode]
          · rw [Function.update_of_ne (Ne.symm hd)]
            exact (LinkStep.of_ne hd [] byte message []).2.1
        cases message with
        | none => exact hlink
        | some m => exact LinkStep.closeIf (w := Network.handle _ _) hlink (startTask m = .idle) d
    · exact .of_other

theorem linkStep_display (c d : ℤ) (w : Network) :
    LinkStep c (w.link c) (networkStep w (.display d)).2
      ((networkStep w (.display d)).1.link c) := by
  rw [networkStep]
  split_ifs with hended
  · exact .of_other
  rcases hdecode : decoder (w.link d).flags (w.link d).toClient with - | ⟨flags, text, rest⟩
  · exact .of_other
  · show LinkStep c (w.link c) (.shown d text) (Function.update w.link d _ c)
    by_cases hd : d = c
    · subst hd
      rw [Function.update_self]
      refine ⟨List.append_nil _, rfl, .inr ⟨text, ?_, rfl, ?_, hdecode⟩⟩
      · exact if_pos rfl
      · exact Bool.eq_false_iff.2 hended
    · rw [Function.update_of_ne (Ne.symm hd)]
      exact (LinkStep.of_ne hd [] 0 none text).2.2

/-- **The step lemma for a connection.** -/
theorem linkStep_networkStep (c : ℤ) (w : Network) (e : NetworkEvent) :
    LinkStep c (w.link c) (networkStep w e).2 ((networkStep w e).1.link c) := by
  cases e with
  | connect => exact .of_other
  | typed d line => exact linkStep_typed c d w line
  | receive d => exact linkStep_receive c d w
  | step env d =>
    have hsent : LinkStep c (w.link c) (.sent (w.delivered (w.handlers.stepOf env d).sent))
        (((w.handle (.step env d)).transmit (w.delivered (w.handlers.stepOf env d).sent)).link c) :=
      ⟨List.append_nil _, rfl, .inl ⟨rfl, rfl, rfl⟩⟩
    exact hsent.closeIf _ d
  | stop d => exact LinkStep.of_other.closeIf _ d
  | display d => exact linkStep_display c d w

theorem typedOn_receiveByte (w : Network) (c d : ℤ) (byte : UInt8) (rest : List UInt8) :
    (w.receiveByte d byte rest).2.typedOn c = [] := by
  rw [Network.receiveByte]
  rcases (w.link d).encdec.decodeNextByte byte with - | ⟨e, - | m⟩
  · rfl
  · rfl
  · rfl

/-- A line is recorded when a client is given it. -/
theorem eq_typed_of_mem {w : Network} {e : NetworkEvent} {line : List UInt8}
    (h : line ∈ (networkStep w e).2.typedOn c) : e = .typed c line := by
  cases e with
  | typed d line' =>
    rw [networkStep] at h
    split_ifs at h
    · simp only [NetworkRecord.typedOn] at h
      split_ifs at h with hd
      · rw [hd, List.mem_singleton.1 h]
      · exact absurd h List.not_mem_nil
    · exact absurd h List.not_mem_nil
  | receive d =>
    rw [networkStep] at h
    split at h
    · exact absurd h List.not_mem_nil
    · split_ifs at h
      · rw [typedOn_receiveByte] at h
        exact absurd h List.not_mem_nil
      · exact absurd h List.not_mem_nil
  | display d =>
    rw [networkStep] at h
    split_ifs at h
    · exact absurd h List.not_mem_nil
    · split at h
      · exact absurd h List.not_mem_nil
      · exact absurd h List.not_mem_nil
  | _ => exact absurd h List.not_mem_nil

/-- **The step lemma for the handlers.** -/
theorem handlersMove_networkStep (w : Network) (e : NetworkEvent) :
    HandlersMove w.handlers (networkStep w e).2 (networkStep w e).1.handlers := by
  have hother : HandlersMove w.handlers .other w.handlers := .quiet (fun _ ↦ rfl) fun _ ↦ rfl
  cases e with
  | connect => exact .accept
  | typed c line =>
    rw [networkStep]
    split_ifs
    · exact .quiet (fun _ ↦ rfl) fun _ ↦ rfl
    · exact hother
  | receive c =>
    rw [networkStep]
    rcases (w.link c).toServer with - | ⟨byte, rest⟩
    · exact hother
    · dsimp only
      split_ifs with hidle
      · rw [Network.receiveByte]
        rcases (w.link c).encdec.decodeNextByte byte with - | ⟨d, - | m⟩
        · exact hother
        · refine .quiet (fun d' ↦ ?_) fun _ ↦ rfl
          simp [NetworkRecord.framesOn]
        · rw [Network.closeIf_handlers]
          exact .request hidle.2 byte m
      · exact hother
  | step env c =>
    rw [networkStep, Network.closeIf_handlers]
    exact .step env c List.filter_sublist
  | stop c =>
    rw [networkStep, Network.closeIf_handlers]
    exact hother
  | display c =>
    rw [networkStep]
    split_ifs
    · exact hother
    rcases decoder (w.link c).flags (w.link c).toClient with - | ⟨flags, text, rest⟩
    · exact hother
    · exact .quiet (fun _ ↦ rfl) fun _ ↦ rfl

end Steps

end SplNet
