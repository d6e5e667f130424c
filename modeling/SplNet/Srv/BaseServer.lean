import SplNet.Foundations.LabelledRun
import SplNet.Api.BidiMessagingProtocolImpl

/-!
# The server as a machine

The server from its start-up on: connections are accepted and numbered, and frames are processed one
after the other, on any connection that has been accepted and in any surroundings. Both start-up
paths are here; they differ in the filtered words, which only the constructor of `BaseServer` adds.
-/

namespace SplNet

open Java

/-- The two mains. -/
inductive ServerMode
  | threadPerClient
  | reactor
deriving DecidableEq

/-- The filtered words after start-up: the reactor never runs the constructor of `BaseServer`. -/
def ServerMode.filteredWords : ServerMode → List JString
  | .threadPerClient => [str "Banana", str "Gerev", str "COVID", str "sababa", str "bahamas"]
  | .reactor => []

/-- The store after start-up. -/
def Server.init (mode : ServerMode) : Server where
  user := fun _ ↦ User.new [] [] []
  nextUser := 0
  usersMap := ConcurrentMap.empty
  activeUsersMap := ConcurrentMap.empty
  connectionsMap := []
  filteredWords := mode.filteredWords
  connectionId := 0

/-- What can happen to the server. -/
inductive Event
  /-- A connection is accepted. -/
  | accept
  /-- A complete frame arrives on a connection. -/
  | request (env : Surroundings) (connectionId : ℤ) (message : JString)

/-- Surroundings that visit both maps as they are listed. -/
def Surroundings.listed : Surroundings := ⟨.listed, .listed, 2022, asciiBoundary⟩

/-- Surroundings that visit a given entry of the active map first. -/
def Surroundings.startingWith (e : JString × UserRef) : Surroundings :=
  { Surroundings.listed with activeOrder := .startingWith e }

theorem Surroundings.findActive_startingWith {s : Server} {k : JString} {r : UserRef}
    (h : (k, r) ∈ s.activeUsersMap.entries) :
    (Surroundings.startingWith (k, r)).findActive s (s.user r).connId = some r := by
  show ((IterationOrder.startingWith (k, r)).values s.activeUsersMap).find? _ = some r
  rw [IterationOrder.values_startingWith h, List.find?_cons_of_pos (by simp)]

/-- A frame written as a string literal. -/
def Event.frame (connectionId : ℤ) (text : String) : Event :=
  .request .listed connectionId (str text)

/-- One event. A frame can only arrive on a connection that has a handler. -/
def serverStep (s : Server) : Event → Server × Outcome
  | .accept => (s.accept, .done s.accept)
  | .request env connectionId message =>
    if connectionId ∈ s.connectionsMap then
      ((process env connectionId s message).server, process env connectionId s message)
    else (s, .done s)

/-- The server. -/
def serverMachine (mode : ServerMode) : LabelledMachine Server Event Outcome where
  init := Server.init mode
  step := serverStep

section Steps

variable (mode : ServerMode) (s : Server)

@[simp] theorem serverMachine_init : (serverMachine mode).init = Server.init mode := rfl

@[simp] theorem next_accept : (serverMachine mode).next s .accept = s.accept := rfl

theorem next_request_of_mem {env : Surroundings} {connectionId : ℤ} {message : JString}
    (h : connectionId ∈ s.connectionsMap) :
    (serverMachine mode).next s (.request env connectionId message) =
      (process env connectionId s message).server := by
  simp [LabelledMachine.next, serverMachine, serverStep, h]

theorem next_request_of_not_mem {env : Surroundings} {connectionId : ℤ} {message : JString}
    (h : connectionId ∉ s.connectionsMap) :
    (serverMachine mode).next s (.request env connectionId message) = s := by
  simp [LabelledMachine.next, serverMachine, serverStep, h]

theorem output_request_of_mem {env : Surroundings} {connectionId : ℤ} {message : JString}
    (h : connectionId ∈ s.connectionsMap) :
    (serverMachine mode).output s (.request env connectionId message) =
      process env connectionId s message := by
  simp [LabelledMachine.output, serverMachine, serverStep, h]

theorem output_request_of_not_mem {env : Surroundings} {connectionId : ℤ} {message : JString}
    (h : connectionId ∉ s.connectionsMap) :
    (serverMachine mode).output s (.request env connectionId message) = .done s := by
  simp [LabelledMachine.output, serverMachine, serverStep, h]

end Steps

end SplNet
