import SplNet.Srv.Handlers

/-!
# FOLLOW and BLOCK in steps

`Handlers` carries out FOLLOW and BLOCK in one step. Here they are carried out in steps too, one for
each search, each test of a list and each method of `User` that is called: the finest interleaving
of the handlers. Everything else goes on as in `taskStep` (`GraphTask.other`).

A step that calls a method of `User` is one access to the user.
-/

namespace SplNet

open Java

/-- A FOLLOW whose two users are found. -/
structure FollowPair where
  myUser : UserRef
  otherUser : UserRef
  message : JString
deriving DecidableEq

/-- What a handler does next. -/
inductive GraphTask
  /-- A task of another command, or of none. -/
  | other (task : HandlerTask)
  | followFind (action : JChar) (message : JString)
  | followSession (action : JChar) (message : JString) (otherUser : UserRef)
  | followActivated (action : JChar) (f : FollowPair)
  /-- The test whether `myUser` follows `otherUser`. -/
  | followTest (action : JChar) (f : FollowPair)
  /-- The test whether `otherUser` blocks `myUser`. -/
  | followUnblocked (f : FollowPair)
  | followAdd (f : FollowPair)
  | followCount (f : FollowPair)
  | unfollowRemove (f : FollowPair)
  | unfollowCount (f : FollowPair)
  | blockSession (message : JString)
  | blockFind (myUser : Option UserRef) (message : JString)
  | blockTest (myUser otherUser : UserRef) (message : JString)
  | blockAdd (myUser otherUser : UserRef)
  | blockOwnTest (myUser otherUser : UserRef)
  | blockOwnRemove (myUser otherUser : UserRef)
  | blockOtherTest (myUser otherUser : UserRef)
  | blockOtherRemove (myUser otherUser : UserRef)
deriving DecidableEq

namespace GraphTask

/-- Nothing to do. -/
def idle : GraphTask := .other .idle

/-- Send the last message. -/
def answer (msg : JString) : GraphTask := .other (.answer msg)

end GraphTask

/-- The task a frame begins. -/
def startGraphTask (message : JString) : GraphTask :=
  match startTask message with
  | .frame f =>
    if f.optCode = str "04" then
      match f.text with
      | [] => .idle
      | action :: message => .followFind action message
    else if f.optCode = str "12" then .blockSession f.text
    else .other (.frame f)
  | task => .other task

/-- What one step of a handler does. -/
structure GraphTaskStep where
  server : Server
  task : GraphTask
  sent : List (ℤ × JString)

section Steps

variable (env : Surroundings) (connectionId : ℤ) (s : Server)

/-- One step of the handler of a connection. -/
def graphTaskStep : GraphTask → GraphTaskStep
  | .other task =>
    ⟨(taskStep env connectionId s task).server, .other (taskStep env connectionId s task).task,
      (taskStep env connectionId s task).sent⟩
  | .followFind action message =>
    match env.findContained s message with
    | some otherUser => ⟨s, .followSession action message otherUser, []⟩
    | none => ⟨s, .answer (str "1104"), []⟩
  | .followSession action message otherUser =>
    match env.findActive s connectionId with
    | some myUser => ⟨s, .followActivated action ⟨myUser, otherUser, message⟩, []⟩
    | none => ⟨s, .idle, []⟩
  | .followActivated action f =>
    if (s.user f.myUser).isActivated then ⟨s, .followTest action f, []⟩ else ⟨s, .idle, []⟩
  | .followTest action f =>
    if action = char '0' ∧ f.otherUser ∉ (s.user f.myUser).followers then
      ⟨s, .followUnblocked f, []⟩
    else if action = char '1' ∧ f.otherUser ∈ (s.user f.myUser).followers then
      ⟨s, .unfollowRemove f, []⟩
    else ⟨s, .answer (str "1104"), []⟩
  | .followUnblocked f =>
    if f.myUser ∉ (s.user f.otherUser).blockingUsers then ⟨s, .followAdd f, []⟩
    else ⟨s, .answer (str "1104"), []⟩
  | .followAdd f => ⟨s.modifyUser f.myUser (User.addFollower f.otherUser), .followCount f, []⟩
  | .followCount f =>
    ⟨s.modifyUser f.myUser User.incrementFollowing,
      .answer (str "100400" ++ f.message ++ [nul]), []⟩
  | .unfollowRemove f =>
    ⟨s.modifyUser f.myUser (User.removeFollower f.otherUser), .unfollowCount f, []⟩
  | .unfollowCount f =>
    ⟨s.modifyUser f.myUser User.decreaseFollowing,
      .answer (str "100401" ++ f.message ++ [nul]), []⟩
  | .blockSession message => ⟨s, .blockFind (env.findActive s connectionId) message, []⟩
  | .blockFind (some myUser) message =>
    match env.findContained s message with
    | some otherUser => ⟨s, .blockTest myUser otherUser message, []⟩
    | none => ⟨s, .answer (str "1112"), []⟩
  -- the search for the other user goes on, and its result is not used
  | .blockFind none _ => ⟨s, .answer (str "1112"), []⟩
  | .blockTest myUser otherUser message =>
    if otherUser ∉ (s.user myUser).blockingUsers then
      match substring message 0 (message.length - 1) with
      | .ok _ => ⟨s, .blockAdd myUser otherUser, []⟩
      | .error _ => ⟨s, .idle, []⟩
    else ⟨s, .answer (str "1112"), []⟩
  | .blockAdd myUser otherUser =>
    ⟨s.modifyUser myUser (User.addBlockingUser otherUser), .blockOwnTest myUser otherUser, []⟩
  | .blockOwnTest myUser otherUser =>
    if otherUser ∈ (s.user myUser).followers then ⟨s, .blockOwnRemove myUser otherUser, []⟩
    else ⟨s, .blockOtherTest myUser otherUser, []⟩
  | .blockOwnRemove myUser otherUser =>
    ⟨s.modifyUser myUser (User.removeFollower otherUser), .blockOtherTest myUser otherUser, []⟩
  | .blockOtherTest myUser otherUser =>
    if myUser ∈ (s.user otherUser).followers then ⟨s, .blockOtherRemove myUser otherUser, []⟩
    else ⟨s, .answer (str "1012"), []⟩
  | .blockOtherRemove myUser otherUser =>
    ⟨s.modifyUser otherUser (User.removeFollower myUser), .answer (str "1012"), []⟩

end Steps

/-! ### The machine -/

/-- The store and what the handler of each connection does. -/
structure GraphHandlers where
  server : Server
  task : ℤ → GraphTask

namespace GraphHandlers

/-- No handler has anything to do. -/
def resting (s : Server) : GraphHandlers := ⟨s, fun _ ↦ .idle⟩

/-- The handler of a connection has this task. -/
def assign (σ : GraphHandlers) (connectionId : ℤ) (task : GraphTask) : GraphHandlers :=
  { σ with task := fun c ↦ if c = connectionId then task else σ.task c }

/-- What the next step of a handler does. -/
def stepOf (σ : GraphHandlers) (env : Surroundings) (connectionId : ℤ) : GraphTaskStep :=
  graphTaskStep env connectionId σ.server (σ.task connectionId)

end GraphHandlers

/-- One event and what it sends. A handler takes up a frame when it has nothing else to do. -/
def graphHandlersStep (σ : GraphHandlers) : HandlerEvent → GraphHandlers × List (ℤ × JString)
  | .accept => ({ σ with server := σ.server.accept }, [])
  | .request connectionId message =>
    if connectionId ∈ σ.server.connectionsMap ∧ σ.task connectionId = .idle then
      (σ.assign connectionId (startGraphTask message), [])
    else (σ, [])
  | .step env connectionId =>
    (({ σ with server := (σ.stepOf env connectionId).server }).assign connectionId
      (σ.stepOf env connectionId).task, (σ.stepOf env connectionId).sent)

/-- The handlers, beginning with this state. -/
def graphHandlersMachine (σ : GraphHandlers) :
    LabelledMachine GraphHandlers HandlerEvent (List (ℤ × JString)) where
  init := σ
  step := graphHandlersStep

end SplNet
