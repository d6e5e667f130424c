import SplNet.Api.Spec.Frames
import SplNet.Srv.BaseServer

/-!
# Handlers that run concurrently

In both modes frames of different connections are processed by different threads, which share the
store and take no lock. Here REGISTER, LOGIN and POST are carried out in steps, one for each access
to shared data; a frame of any other kind is one step. What a thread has still to do for its frame
is a `HandlerTask`, and a run interleaves the steps of all threads in any order.

The surroundings may differ from one step to the next. A search through a map is one step, and the
follower loop of POST visits the users that were registered when it began. The iterator of a queue
fetches the next entry before it hands out the current one, so the replay loop of LOGIN knows
whether it goes on before it sends.

**A handler that runs alone** does to the store, and sends, exactly what `process` does
(`alone_process`).
-/

namespace SplNet

open Java

/-- The opcodes that are carried out in steps. -/
def steppedOpCodes : List JString := [str "01", str "02", str "05"]

/-- A frame that is carried out in one step. -/
structure WholeFrame where
  optCode : JString
  text : JString
  whole : optCode ∉ steppedOpCodes
deriving DecidableEq

/-- What is left of a POST behind the current user: the users the follower loop has still to visit,
and the mentioned ones. -/
structure PostLoop where
  myUser : UserRef
  message : JString
  users : List UserRef
  otherUsers : List UserRef
deriving DecidableEq

/-- What is left of the replay loop of a LOGIN behind the current entry. -/
structure ReplayLoop where
  user : UserRef
  /-- The place of `nextItem` in the queue. -/
  index : ℕ
  /-- The entry the iterator has fetched already. -/
  nextItem : Option JString
  senderName : JString
  limit : ℕ
deriving DecidableEq

/-- What a handler does next. -/
inductive HandlerTask
  | idle
  | frame (f : WholeFrame)
  /-- Send the last message. -/
  | answer (msg : JString)
  | registerScan (username password birthday : JString)
  | registerPut (username password birthday : JString)
  | registerReply (username : JString) (user : UserRef)
  | loginScan (username password captcha : JString)
  | loginCheck (username password captcha : JString) (user : UserRef)
  | loginPut (username : JString) (user : UserRef)
  | loginActivate (user : UserRef)
  | loginSetConnId (user : UserRef)
  | loginReply (user : UserRef)
  /-- The test whether the queue is empty. -/
  | replayTest (user : UserRef)
  | replayIterator (user : UserRef)
  | replayNext (loop : ReplayLoop)
  | replayConnId (content : JString) (loop : ReplayLoop)
  | replaySend (connId : ℤ) (content : JString) (loop : ReplayLoop)
  | postFind (message : JString)
  | postMentions (myUser : UserRef) (message : JString)
  | postIterator (myUser : UserRef) (message : JString) (otherUsers : List UserRef)
  | postNext (loop : PostLoop)
  | postTest (user : UserRef) (loop : PostLoop)
  | postAppend (user : UserRef) (loop : PostLoop)
  | postConnId (user : UserRef) (loop : PostLoop)
  | postSend (connId : ℤ) (user : UserRef) (loop : PostLoop)
deriving DecidableEq

/-- What one step of a handler does: the store it leaves, the task it goes on with, and the messages
it sends. -/
structure TaskStep where
  server : Server
  task : HandlerTask
  sent : List (ℤ × JString)

namespace TaskStep

variable (s : Server)

/-- A step that only reads. -/
def goOn (task : HandlerTask) : TaskStep := ⟨s, task, []⟩

/-- A step that sends, and is the last one when the send throws. -/
def send (connectionId : ℤ) (msg : JString) (task : HandlerTask) : TaskStep :=
  ⟨s, if (s.send connectionId msg).thrown = none then task else .idle,
    (s.send connectionId msg).sent⟩

@[simp] theorem goOn_server (task : HandlerTask) : (goOn s task).server = s := rfl
@[simp] theorem goOn_task (task : HandlerTask) : (goOn s task).task = task := rfl
@[simp] theorem goOn_sent (task : HandlerTask) : (goOn s task).sent = [] := rfl

@[simp] theorem send_server (connectionId : ℤ) (msg : JString) (task : HandlerTask) :
    (send s connectionId msg task).server = s := rfl

@[simp] theorem send_sent (connectionId : ℤ) (msg : JString) (task : HandlerTask) :
    (send s connectionId msg task).sent = (s.send connectionId msg).sent := rfl

theorem send_eq_of_sendable {msg : JString} (h : Sendable msg) (connectionId : ℤ)
    (task : HandlerTask) :
    send s connectionId msg task = ⟨s, task, s.delivery connectionId msg⟩ := by
  rw [send, h.send_eq]
  rfl

end TaskStep

/-- The task a frame begins. -/
def startTask (message : JString) : HandlerTask :=
  match substring message 0 2, substringFrom message 2 with
  | .ok optCode, .ok text =>
    if h₁ : optCode = str "01" then
      match split text nul with
      | username :: password :: birthday :: _ => .registerScan username password birthday
      | _ => .idle
    else if h₂ : optCode = str "02" then
      match split text nul with
      | username :: password :: captcha :: _ => .loginScan username password captcha
      | _ => .idle
    else if h₅ : optCode = str "05" then
      match substring text 0 (text.length - 1) with
      | .ok message => .postFind message
      | .error _ => .idle
    else .frame ⟨optCode, text, by simp [steppedOpCodes, h₁, h₂, h₅]⟩
  | _, _ => .idle

section Steps

variable (env : Surroundings) (connectionId : ℤ) (s : Server)

open TaskStep

/-- `it.next()` in the replay loop: the iterator hands out the entry it holds and fetches the one
behind it. -/
def replayEntry (loop : ReplayLoop) (post : JString) : TaskStep :=
  let (senderName, limit) := replayScan loop.senderName loop.limit 0 post
  match substringFrom post limit with
  | .ok content =>
    goOn s (.replayConnId content
      { loop with
        index := loop.index + 1
        nextItem := (s.user loop.user).awaitingPosts[loop.index + 1]?
        senderName := senderName
        limit := limit })
  | .error _ => goOn s .idle

/-- The head of the follower loop of POST, and of the loop over the mentioned users behind it. -/
def postVisit (loop : PostLoop) : HandlerTask :=
  match loop.users, loop.otherUsers with
  | r :: users, _ =>
    if loop.myUser ∈ (s.user r).followers then .postTest r { loop with users := users }
    else .postNext { loop with users := users }
  | [], r :: otherUsers => .postTest r { loop with otherUsers := otherUsers }
  | [], [] => .answer (str "1005")

/-- One step of the handler of a connection. -/
def taskStep : HandlerTask → TaskStep
  | .idle => goOn s .idle
  | .frame f =>
    ⟨(dispatch env connectionId s f.optCode f.text).server, .idle,
      (dispatch env connectionId s f.optCode f.text).sent⟩
  | .answer msg => send s connectionId msg .idle
  | .registerScan username password birthday =>
    if (env.users s).any fun r ↦ contains (s.user r).username username then
      goOn s (.answer (str "1101"))
    else goOn s (.registerPut username password birthday)
  | .registerPut username password birthday =>
    ⟨s.putUser username (User.new username password birthday),
      .registerReply username s.nextUser, []⟩
  | .registerReply _ _ => send s connectionId (str "1001") .idle
  | .loginScan username password captcha =>
    match env.findContaining s username with
    | some user => goOn s (.loginCheck username password captcha user)
    | none => goOn s (.answer (str "1102"))
  | .loginCheck username password captcha user =>
    if (s.user user).password = password ∧ captcha = str "1" ∧
        (s.user user).isActivated = false then goOn s (.loginPut username user)
    else goOn s (.answer (str "1102"))
  | .loginPut username user => ⟨s.putActiveUser username user, .loginActivate user, []⟩
  | .loginActivate user => ⟨s.modifyUser user User.activate, .loginSetConnId user, []⟩
  | .loginSetConnId user =>
    ⟨s.modifyUser user (User.setConnId connectionId), .loginReply user, []⟩
  | .loginReply user => send s connectionId (str "1002") (.replayTest user)
  | .replayTest user =>
    if (s.user user).awaitingPosts = [] then goOn s .idle else goOn s (.replayIterator user)
  | .replayIterator user => goOn s (.replayNext ⟨user, 0, (s.user user).awaitingPosts[0]?, [], 0⟩)
  | .replayNext loop =>
    match loop.nextItem with
    | some post => replayEntry s loop post
    | none => goOn s .idle
  | .replayConnId content loop => goOn s (.replaySend (s.user loop.user).connId content loop)
  | .replaySend connId content loop =>
    send s connId (notification (str "091") loop.senderName content) (.replayNext loop)
  | .postFind message =>
    match env.findActive s connectionId with
    | some myUser => goOn s (.postMentions myUser message)
    | none => goOn s (.answer (str "1105"))
  | .postMentions myUser message =>
    goOn s (.postIterator myUser message
      (dropFollowers s myUser (mentionedUsers env s message)))
  | .postIterator myUser message otherUsers =>
    goOn s (.postNext ⟨myUser, message, env.users s, otherUsers⟩)
  | .postNext loop => goOn s (postVisit s loop)
  | .postTest user loop =>
    if (s.user user).isActivated = false then goOn s (.postAppend user loop)
    else goOn s (.postConnId user loop)
  | .postAppend user loop =>
    ⟨s.modifyUser user
        (User.addAwaitingPost ((s.user loop.myUser).username ++ [space] ++ loop.message)),
      .postNext loop, []⟩
  | .postConnId user loop => goOn s (.postSend (s.user user).connId user loop)
  | .postSend connId _ loop =>
    send s connId (notification (str "091") (s.user loop.myUser).username loop.message)
      (.postNext loop)

end Steps

/-! ### The machine -/

/-- The store and what the handler of each connection does. -/
structure Handlers where
  server : Server
  task : ℤ → HandlerTask

/-- What can happen. -/
inductive HandlerEvent
  /-- A connection is accepted. -/
  | accept
  /-- The handler of a connection takes up a frame. -/
  | request (connectionId : ℤ) (message : JString)
  /-- The handler of a connection goes on. -/
  | step (env : Surroundings) (connectionId : ℤ)

namespace Handlers

/-- No handler has anything to do. -/
def resting (s : Server) : Handlers := ⟨s, fun _ ↦ .idle⟩

/-- The handler of a connection has this task. -/
def assign (σ : Handlers) (connectionId : ℤ) (task : HandlerTask) : Handlers :=
  { σ with task := fun c ↦ if c = connectionId then task else σ.task c }

/-- What the next step of a handler does. -/
def stepOf (σ : Handlers) (env : Surroundings) (connectionId : ℤ) : TaskStep :=
  taskStep env connectionId σ.server (σ.task connectionId)

end Handlers

/-- One event and what it sends. A handler takes up a frame when it has nothing else to do. -/
def handlersStep (σ : Handlers) : HandlerEvent → Handlers × List (ℤ × JString)
  | .accept => ({ σ with server := σ.server.accept }, [])
  | .request connectionId message =>
    if connectionId ∈ σ.server.connectionsMap ∧ σ.task connectionId = .idle then
      (σ.assign connectionId (startTask message), [])
    else (σ, [])
  | .step env connectionId =>
    (({ σ with server := (σ.stepOf env connectionId).server }).assign connectionId
      (σ.stepOf env connectionId).task, (σ.stepOf env connectionId).sent)

/-- The handlers, beginning with this state. -/
def handlersMachine (σ : Handlers) :
    LabelledMachine Handlers HandlerEvent (List (ℤ × JString)) where
  init := σ
  step := handlersStep

section Machine

variable (σ₀ σ : Handlers) (env : Surroundings) (c d : ℤ) (message : JString)

@[simp] theorem next_accept_server :
    ((handlersMachine σ₀).next σ .accept).server = σ.server.accept := rfl

@[simp] theorem next_accept_task : ((handlersMachine σ₀).next σ .accept).task = σ.task := rfl

@[simp] theorem next_step_server :
    ((handlersMachine σ₀).next σ (.step env c)).server = (σ.stepOf env c).server := rfl

@[simp] theorem next_step_task :
    ((handlersMachine σ₀).next σ (.step env c)).task d =
      if d = c then (σ.stepOf env c).task else σ.task d := rfl

@[simp] theorem next_request_server :
    ((handlersMachine σ₀).next σ (.request c message)).server = σ.server := by
  show (handlersStep σ (.request c message)).1.server = _
  rw [handlersStep]
  split <;> rfl

/-- A frame that is not taken up changes nothing. -/
theorem next_request_task :
    ((handlersMachine σ₀).next σ (.request c message)).task d =
      if d = c ∧ c ∈ σ.server.connectionsMap ∧ σ.task c = .idle then startTask message
      else σ.task d := by
  show (handlersStep σ (.request c message)).1.task d = _
  by_cases h : c ∈ σ.server.connectionsMap ∧ σ.task c = .idle
  · rw [handlersStep, if_pos h]
    simp only [and_iff_left h]
    rfl
  · rw [handlersStep, if_neg h, if_neg fun h' ↦ h h'.2]

end Machine

end SplNet
