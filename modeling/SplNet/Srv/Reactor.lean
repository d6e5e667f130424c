import SplNet.Foundations.LabelledRun
import SplNet.Api.MessageEncoderDecoderImpl

/-!
# The selection loop

`Reactor.serve` with the part of `NonBlockingConnectionHandler` that reaches the selector: accepting
and registering a connection, closing a channel, `select`, sending, and running a queued task. A
send looks the key up **when it is called** and the task uses that key when it is run, so what
matters is what happens to the key in between.

The steps come in any order, but for the two halves of `handleAccept`, between which the selector
thread does nothing else. Sending is the only step of another thread. After an exception has escaped
`serve` the selector thread makes no further step.
-/

namespace SplNet

open Java

/-- The interest sets in use: `OP_READ` and `OP_READ | OP_WRITE`. -/
inductive InterestOps
  | read
  | readWrite
deriving DecidableEq

/-- The key of a channel. -/
inductive KeyState
  /-- The channel has not been registered with the selector yet. -/
  | unregistered
  | registered (ops : InterestOps)
  /-- The channel has been closed; the selector has not noticed yet. -/
  | cancelled
  | deregistered
deriving DecidableEq

/-- `keyFor` finds a key, that is, does not return null. -/
def KeyState.isFound : KeyState → Bool
  | .unregistered => false
  | .registered _ => true
  | .cancelled => true
  | .deregistered => false

/-- `key.isValid()`. -/
def KeyState.isValid : KeyState → Bool
  | .registered _ => true
  | _ => false

/-- What `select` does to the keys of closed channels. -/
def KeyState.deregister : KeyState → KeyState
  | .cancelled => .deregistered
  | k => k

/-- A queued task: the key it has captured (the one of this channel, or null) and the interest set
it will set. -/
structure SelectorTask where
  key : Option ℤ
  ops : InterestOps
deriving DecidableEq

/-- What can be thrown by a queued task. -/
inductive TaskException
  | nullPointer
  | cancelledKey
deriving DecidableEq

/-- The reactor. -/
structure Reactor where
  /-- The connections that have a handler; closing one does not remove it. -/
  connectionsMap : List ℤ
  /-- The counter that numbers connections. -/
  connectionId : ℤ
  /-- The key of each connection's channel. -/
  key : ℤ → KeyState
  /-- The connection `handleAccept` has put into the map and not yet registered. -/
  accepting : Option ℤ
  selectorTasks : List SelectorTask
  /-- The exception that has ended `serve`. -/
  thrown : Option TaskException

namespace Reactor

def init : Reactor where
  connectionsMap := []
  connectionId := 0
  key := fun _ ↦ .unregistered
  accepting := none
  selectorTasks := []
  thrown := none

/-- The selector thread is in its loop, and not inside `handleAccept`. -/
def looping (s : Reactor) : Bool := s.thrown.isNone && s.accepting.isNone

/-- The key of one channel changes. -/
def setKey (s : Reactor) (connectionId : ℤ) (k : KeyState) : Reactor :=
  { s with key := fun c ↦ if c = connectionId then k else s.key c }

/-- `updateInterestedOps`, called by another thread: the task that is added. -/
def updateInterestedOps (s : Reactor) (connectionId : ℤ) (ops : InterestOps) : Reactor :=
  { s with selectorTasks := s.selectorTasks ++
      [⟨if (s.key connectionId).isFound then some connectionId else none, ops⟩] }

/-- `ConnectionsImpl.send` down to the reactor: the handler encodes the message and asks for
`OP_READ | OP_WRITE`. -/
def send (s : Reactor) (connectionId : ℤ) (msg : JString) : Reactor :=
  if connectionId ∈ s.connectionsMap then
    match encode msg with
    | .ok _ => s.updateInterestedOps connectionId .readWrite
    | .error _ => s
  else s

/-- `key.interestOps(ops)` in a task. -/
def runTask (s : Reactor) (t : SelectorTask) : Reactor :=
  match t.key with
  | none => { s with thrown := some .nullPointer }
  | some c =>
    if (s.key c).isValid then s.setKey c (.registered t.ops)
    else { s with thrown := some .cancelledKey }

end Reactor

/-- The steps. -/
inductive ReactorEvent
  /-- `handleAccept` up to the `put` into `connectionsMap`. -/
  | accept
  /-- `handleAccept` registers the channel. -/
  | register
  /-- `continueRead` reads `-1` and closes the channel. -/
  | close (connectionId : ℤ)
  | select
  /-- A request sends a message to a connection. -/
  | send (connectionId : ℤ) (msg : JString)
  /-- `runSelectionThreadTasks` runs the first queued task. -/
  | runTask

/-- One step. -/
def reactorStep (s : Reactor) : ReactorEvent → Reactor
  | .accept =>
    if s.looping then
      { s with
        connectionsMap := s.connectionsMap.insert s.connectionId
        connectionId := s.connectionId + 1
        accepting := some s.connectionId }
    else s
  | .register =>
    match s.accepting with
    | some c => { s.setKey c (.registered .read) with accepting := none }
    | none => s
  | .close c => if s.looping ∧ (s.key c).isValid then s.setKey c .cancelled else s
  | .select => if s.looping then { s with key := fun c ↦ (s.key c).deregister } else s
  | .send c msg => s.send c msg
  | .runTask =>
    match s.selectorTasks with
    | [] => s
    | t :: ts => if s.looping then { s with selectorTasks := ts }.runTask t else s

/-- The reactor as a machine. -/
def reactorMachine : LabelledMachine Reactor ReactorEvent Unit where
  init := Reactor.init
  step s e := (reactorStep s e, ())

@[simp] theorem reactorMachine_init : reactorMachine.init = Reactor.init := rfl

@[simp] theorem reactorMachine_next (s : Reactor) (e : ReactorEvent) :
    reactorMachine.next s e = reactorStep s e := rfl

end SplNet
