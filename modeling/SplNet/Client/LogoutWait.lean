import SplNet.Foundations.LabelledRun
import SplNet.Client.MessageReader

/-!
# The wait for the reply to LOGOUT

The two threads of the client and the flags they share: `readFromKeyBoardThread::run` and the loop
of `readFromSocketThread::run`. A step is one access to a flag, a line that is read, the bytes of a
line that are sent, or a message that is decoded. Messages arrive in both directions in the order in
which they were sent, and sending does not fail.

Of the server only this is kept: it answers every LOGOUT frame once and in order, with the
acknowledgement or with the error, and it sends other messages at any time. The LOGOUT frames of a
run are numbered from zero.
-/

namespace SplNet.Client

open ServerMessage

/-- The error for LOGOUT. -/
def ServerMessage.logoutError : ServerMessage := error (ascii "03") length_logout

/-- The LOGOUT frames among the bytes of a line. A frame ends at `';'`. -/
def logoutFrames (line : List UInt8) : ℕ :=
  ((encodedLine line).splitOn Decoder.semicolon).countP fun frame ↦ frame.take 2 = ascii "03"

/-- `line.substr(0,7) == "LOGOUT"`. -/
def isLogoutLine (line : List UInt8) : Bool := line.take 7 = ascii "LOGOUT"

/-- Where the keyboard thread stands: in front of the access that the name says. Behind a line, the
numbers of its LOGOUT frames are kept. -/
inductive KeyboardPoint
  /-- `while (!con.shouldTerminate())`. -/
  | loop
  | getline
  | encoder (line : List UInt8)
  | sendBytes (line : List UInt8)
  /-- `if(line.substr(0,7) == "LOGOUT")`. -/
  | testLine (line : List UInt8) (frames : List ℕ)
  /-- `while (!con.shouldTerminate() && !con.isLogOutFailed())`. -/
  | waitTerminate (frames : List ℕ)
  | waitLogoutFailed (frames : List ℕ)
  /-- `resetLogout`. -/
  | testLogoutSent
  | clearLogoutSent
  | testLogoutFailed
  | clearLogoutFailed
  | ended

/-- Where the socket thread stands. -/
inductive SocketPoint
  | loop
  | decoder
  | ended

/-- A message on its way to the client. -/
inductive Incoming
  /-- The reply to a LOGOUT frame. -/
  | reply (frame : ℕ) (accepted : Bool)
  | other (m : ServerMessage) (quiet : m ≠ logoutAck ∧ m ≠ logoutError)

/-- The message that is decoded. -/
def Incoming.message : Incoming → ServerMessage
  | reply _ true => logoutAck
  | reply _ false => logoutError
  | other m _ => m

/-- The frames a message answers. -/
def Incoming.answered : Incoming → List ℕ
  | reply frame _ => [frame]
  | other _ _ => []

/-- The client, and what is on its way. -/
structure LogoutClient where
  flags : Flags
  keyboard : KeyboardPoint
  socket : SocketPoint
  /-- How many LOGOUT frames have been sent. -/
  sent : ℕ
  /-- LOGOUT frames that the server has not answered. -/
  toServer : List ℕ
  toClient : List Incoming
  /-- The LOGOUT frames whose replies have been decoded. -/
  decoded : List ℕ

/-- What can happen. -/
inductive LogoutEvent
  | typed (line : List UInt8)
  /-- The keyboard thread takes a step. -/
  | keyboard
  /-- The socket thread takes a step. -/
  | socket
  /-- The server answers a LOGOUT frame. -/
  | answer (accepted : Bool)
  | sendOther (m : ServerMessage) (quiet : m ≠ logoutAck ∧ m ≠ logoutError)

/-- What a step of the keyboard thread has decided, for the record. -/
inductive LogoutRecord
  | lineTested (line : List UInt8) (waits : Bool)
  /-- The wait behind these frames is left. -/
  | waitLeft (frames : List ℕ)
  | other
deriving DecidableEq

namespace LogoutClient

def init : LogoutClient := ⟨⟨false, false, false⟩, .loop, .loop, 0, [], [], []⟩

/-- One step of `readFromKeyBoardThread::run`. -/
def keyboardStep (s : LogoutClient) : LogoutClient × LogoutRecord :=
  match s.keyboard with
  | .loop => ({ s with keyboard := if s.flags.terminate then .ended else .getline }, .other)
  | .getline => (s, .other)
  | .encoder line =>
    ({ s with flags := (Client.encoder s.flags line).1, keyboard := .sendBytes line }, .other)
  | .sendBytes line =>
    let frames := List.range' s.sent (logoutFrames line)
    ({ s with
        keyboard := .testLine line frames
        sent := s.sent + logoutFrames line
        toServer := s.toServer ++ frames }, .other)
  | .testLine line frames =>
    ({ s with keyboard := if isLogoutLine line then .waitTerminate frames else .loop },
      .lineTested line (isLogoutLine line))
  | .waitTerminate frames =>
    if s.flags.terminate then ({ s with keyboard := .testLogoutSent }, .waitLeft frames)
    else ({ s with keyboard := .waitLogoutFailed frames }, .other)
  | .waitLogoutFailed frames =>
    if s.flags.logoutFailed then ({ s with keyboard := .testLogoutSent }, .waitLeft frames)
    else ({ s with keyboard := .waitTerminate frames }, .other)
  | .testLogoutSent =>
    ({ s with keyboard := if s.flags.logoutSent then .clearLogoutSent else .testLogoutFailed },
      .other)
  | .clearLogoutSent =>
    ({ s with flags := { s.flags with logoutSent := false }, keyboard := .testLogoutFailed },
      .other)
  | .testLogoutFailed =>
    ({ s with keyboard := if s.flags.logoutFailed then .clearLogoutFailed else .loop }, .other)
  | .clearLogoutFailed =>
    ({ s with flags := { s.flags with logoutFailed := false }, keyboard := .loop }, .other)
  | .ended => (s, .other)

/-- One step of `readFromSocketThread::run`. No text is `ACK 03`. -/
def socketStep (s : LogoutClient) : LogoutClient :=
  match s.socket with
  | .loop => { s with socket := if s.flags.terminate then .ended else .decoder }
  | .decoder =>
    match s.toClient with
    | [] => s
    | incoming :: rest =>
      { s with
        flags := incoming.message.effect s.flags
        socket := .loop
        toClient := rest
        decoded := s.decoded ++ incoming.answered }
  | .ended => s

end LogoutClient

/-- One step. -/
def logoutStep (s : LogoutClient) : LogoutEvent → LogoutClient × LogoutRecord
  | .typed line =>
    match s.keyboard with
    | .getline => ({ s with keyboard := .encoder line }, .other)
    | _ => (s, .other)
  | .keyboard => s.keyboardStep
  | .socket => (s.socketStep, .other)
  | .answer accepted =>
    match s.toServer with
    | [] => (s, .other)
    | frame :: rest =>
      ({ s with toServer := rest, toClient := s.toClient ++ [.reply frame accepted] }, .other)
  | .sendOther m quiet => ({ s with toClient := s.toClient ++ [.other m quiet] }, .other)

/-- The client and the server. -/
def logoutMachine : LabelledMachine LogoutClient LogoutEvent LogoutRecord where
  init := LogoutClient.init
  step := logoutStep

end SplNet.Client
