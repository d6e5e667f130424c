import SplNet.Srv.Reactor

/-!
# The write path of one connection

`NonBlockingConnectionHandler.send` and `continueWrite` with the selection loop around them, for one
connection, with every access to shared data a step of its own. Any number of threads send: a send
adds the encoded message to `writeQueue` and then has a task set the interest `OP_READ | OP_WRITE`.
The selector thread runs all queued tasks, and when the channel is writable and `OP_WRITE` is in the
interest set it writes, any part of a buffer at a time, until a buffer is left over or the queue is
empty; in the second case it looks at the queue once more and sets the interest `OP_READ`.

Only the selector thread takes buffers from the queue, so the buffer it has peeked at stays the
first one until it is removed. The protocol never asks to terminate, and no write fails.
-/

namespace SplNet

open Java

/-- What the selector thread does next. -/
inductive SelectorPc
  | select
  /-- `runSelectionThreadTasks`. -/
  | tasks
  /-- `handleReadWrite`, behind the reading. -/
  | key
  /-- The test of the `while` loop of `continueWrite`. -/
  | loopTest
  | peek
  | write
  | hasRemaining
  | remove
  /-- The `if` behind the loop. -/
  | isEmpty
  /-- `updateInterestedOps(chan, OP_READ)`. -/
  | setRead
deriving DecidableEq

/-- The connection and the threads that use it. -/
structure WritePath (τ : Type*) where
  /-- The unwritten bytes of each buffer. -/
  writeQueue : List (List UInt8)
  /-- The bytes the channel has taken. -/
  written : List UInt8
  interest : InterestOps
  /-- The queued tasks of this channel: the interest each will set. -/
  selectorTasks : List InterestOps
  /-- The threads that have added a buffer and not yet the task. -/
  sending : List τ
  pc : SelectorPc

/-- One step of a thread. -/
inductive WriteEvent (τ : Type*)
  /-- A thread begins to send: `writeQueue.add(encode(msg))`. -/
  | add (t : τ) (msg : JString)
  /-- The thread goes on: `updateInterestedOps(chan, OP_READ | OP_WRITE)`. -/
  | enqueue (t : τ)
  /-- The selector thread goes on. The channel is writable or not, and takes at most so many bytes
  if it is written to. -/
  | selector (writable : Bool) (limit : ℕ)

namespace WritePath

variable {τ : Type*}

def init : WritePath τ where
  writeQueue := []
  written := []
  interest := .read
  selectorTasks := []
  sending := []
  pc := .select

/-- The selector thread moves on. -/
def goto (s : WritePath τ) (pc : SelectorPc) : WritePath τ := { s with pc := pc }

/-- `chan.write(top)`: the channel takes some of the bytes of the first buffer. -/
def writeTop (s : WritePath τ) (limit : ℕ) : WritePath τ :=
  match s.writeQueue with
  | top :: rest =>
    { s with writeQueue := top.drop limit :: rest, written := s.written ++ top.take limit }
  | [] => s

/-- One step of the selector thread. -/
def selectorStep (s : WritePath τ) (writable : Bool) (limit : ℕ) : WritePath τ :=
  match s.pc with
  | .select => s.goto .tasks
  | .tasks =>
    match s.selectorTasks with
    | ops :: rest => { s with interest := ops, selectorTasks := rest }
    | [] => s.goto .key
  | .key => s.goto (if writable ∧ s.interest = .readWrite then .loopTest else .select)
  | .loopTest => s.goto (if s.writeQueue = [] then .isEmpty else .peek)
  | .peek => s.goto .write
  | .write => (s.writeTop limit).goto .hasRemaining
  | .hasRemaining => s.goto (if s.writeQueue.head? = some [] then .remove else .select)
  | .remove => { s with writeQueue := s.writeQueue.tail, pc := .loopTest }
  | .isEmpty => s.goto (if s.writeQueue = [] then .setRead else .select)
  | .setRead => { s with interest := .read, pc := .select }

end WritePath

section Machine

variable {τ : Type*} [DecidableEq τ]

/-- One step, and the bytes it has added to the queue. -/
def writeStep (s : WritePath τ) : WriteEvent τ → WritePath τ × List UInt8
  | .add t msg =>
    if t ∈ s.sending then (s, [])
    else
      match encode msg with
      | .ok bytes =>
        ({ s with writeQueue := s.writeQueue ++ [bytes], sending := t :: s.sending }, bytes)
      | .error _ => (s, [])
  | .enqueue t =>
    if t ∈ s.sending then
      ({ s with sending := s.sending.erase t
                selectorTasks := s.selectorTasks ++ [.readWrite] }, [])
    else (s, [])
  | .selector writable limit => (s.selectorStep writable limit, [])

variable (τ) in
/-- The write path as a machine. -/
def writeMachine : LabelledMachine (WritePath τ) (WriteEvent τ) (List UInt8) where
  init := WritePath.init
  step := writeStep

@[simp] theorem writeMachine_init : (writeMachine τ).init = WritePath.init := rfl

@[simp] theorem writeMachine_next (s : WritePath τ) (e : WriteEvent τ) :
    (writeMachine τ).next s e = (writeStep s e).1 := rfl

@[simp] theorem writeMachine_output (s : WritePath τ) (e : WriteEvent τ) :
    (writeMachine τ).output s e = (writeStep s e).2 := rfl

end Machine

end SplNet
