import SplNet.Srv.History

/-!
# The lifetime of a connection

The server together with its connection handlers. A connection is opened by `accept` and ends when
its stream does: `ConnectionHandlerImpl.run` leaves its loop and its `try` closes the socket, and
`continueRead` closes the channel. An exception of `process` ends the thread of the connection and
its socket with it; in the reactor it ends only the task, and a task that was submitted before the
channel was closed still runs. `connectionsMap` keeps every handler for ever, and nothing tells the
store that a connection has ended: `disconnect` is empty and never called.

Each step is one step of the server or none, so the store is always in a state of the server machine
(`Service.reachable_server`).
-/

namespace SplNet

open Java LabelledMachine

/-- The store, the connections whose socket is open, and the connections of the read tasks that were
submitted to the pool and have not ended. -/
structure Service where
  server : Server
  openConnections : List ℤ
  readTasks : List ℤ

/-- What can happen to the server and its handlers. -/
inductive ServiceEvent
  | accept
  /-- The reactor reads bytes from a channel and submits a task. -/
  | continueRead (connectionId : ℤ)
  /-- A handler passes a complete frame to the protocol. -/
  | frame (env : Surroundings) (connectionId : ℤ) (message : JString)
  /-- A read task of the reactor has processed all its bytes. -/
  | complete (connectionId : ℤ)
  /-- End of stream, or an I/O error. -/
  | close (connectionId : ℤ)

namespace Service

/-- The handler of the connection can process a frame: its thread is running, or a task of it is. -/
def CanProcess (mode : ServerMode) (w : Service) (connectionId : ℤ) : Prop :=
  match mode with
  | .threadPerClient => connectionId ∈ w.openConnections
  | .reactor => connectionId ∈ w.readTasks

instance (mode : ServerMode) (w : Service) (connectionId : ℤ) :
    Decidable (w.CanProcess mode connectionId) :=
  match mode with
  | .threadPerClient => inferInstanceAs (Decidable (_ ∈ _))
  | .reactor => inferInstanceAs (Decidable (_ ∈ _))

/-- The socket is closed. -/
def closeSocket (w : Service) (connectionId : ℤ) : Service :=
  { w with openConnections := w.openConnections.filter (· ≠ connectionId) }

/-- What an exception of `process` ends. -/
def unwind (mode : ServerMode) (w : Service) (connectionId : ℤ) : Service :=
  match mode with
  | .threadPerClient => w.closeSocket connectionId
  | .reactor => { w with readTasks := w.readTasks.erase connectionId }

@[simp] theorem closeSocket_server (w : Service) (connectionId : ℤ) :
    (w.closeSocket connectionId).server = w.server := rfl

@[simp] theorem unwind_server (mode : ServerMode) (w : Service) (connectionId : ℤ) :
    (w.unwind mode connectionId).server = w.server := by
  cases mode <;> rfl

theorem mem_closeSocket {w : Service} {c d : ℤ} :
    d ∈ (w.closeSocket c).openConnections ↔ d ∈ w.openConnections ∧ d ≠ c := by
  simp [closeSocket]

end Service

/-- One event. What is not possible does nothing. -/
def serviceStep (mode : ServerMode) (w : Service) : ServiceEvent → Service × Outcome
  | .accept =>
    ({ w with
        server := w.server.accept
        openConnections := w.server.connectionId :: w.openConnections }, .done w.server.accept)
  | .continueRead connectionId =>
    -- a channel may have several tasks waiting; the pool runs them one at a time
    if mode = .reactor ∧ connectionId ∈ w.openConnections then
      ({ w with readTasks := connectionId :: w.readTasks }, .done w.server)
    else (w, .done w.server)
  | .frame env connectionId message =>
    if w.CanProcess mode connectionId then
      let o := process env connectionId w.server message
      let w := { w with server := o.server }
      (if o.thrown = none then w else w.unwind mode connectionId, o)
    else (w, .done w.server)
  | .complete connectionId =>
    ({ w with readTasks := w.readTasks.erase connectionId }, .done w.server)
  | .close connectionId => (w.closeSocket connectionId, .done w.server)

/-- The server and its handlers. -/
def serviceMachine (mode : ServerMode) : LabelledMachine Service ServiceEvent Outcome where
  init := ⟨Server.init mode, [], []⟩
  step := serviceStep mode

section Steps

variable {mode : ServerMode} {w : Service} {env : Surroundings} {c : ℤ} {message : JString}

theorem next_frame_of_canProcess (h : w.CanProcess mode c) :
    (serviceMachine mode).next w (.frame env c message) =
      if (process env c w.server message).thrown = none then
        { w with server := (process env c w.server message).server }
      else
        { w with server := (process env c w.server message).server }.unwind mode c := by
  simp only [LabelledMachine.next, serviceMachine, serviceStep, if_pos h]

theorem next_frame_of_not_canProcess (h : ¬ w.CanProcess mode c) :
    (serviceMachine mode).next w (.frame env c message) = w := by
  simp only [LabelledMachine.next, serviceMachine, serviceStep, if_neg h]

theorem next_frame_server (h : w.CanProcess mode c) :
    ((serviceMachine mode).next w (.frame env c message)).server =
      (process env c w.server message).server := by
  rw [next_frame_of_canProcess h]
  split
  · rfl
  · rw [Service.unwind_server]

theorem next_continueRead_eq (mode : ServerMode) (w : Service) (c : ℤ) :
    ((serviceMachine mode).next w (.continueRead c)).server = w.server ∧
      ((serviceMachine mode).next w (.continueRead c)).openConnections = w.openConnections := by
  simp only [LabelledMachine.next, serviceMachine, serviceStep]
  split <;> exact ⟨rfl, rfl⟩

end Steps

/-! ### The store inside -/

/-- Open connections and read tasks belong to handlers. -/
structure Service.Linked (w : Service) : Prop where
  openConnections : ∀ c ∈ w.openConnections, c ∈ w.server.connectionsMap
  readTasks : ∀ c ∈ w.readTasks, c ∈ w.server.connectionsMap

namespace Service

variable {mode : ServerMode} {w : Service}

theorem Linked.mem_of_canProcess (h : w.Linked) {c : ℤ} (hc : w.CanProcess mode c) :
    c ∈ w.server.connectionsMap := by
  cases mode with
  | threadPerClient => exact h.openConnections c hc
  | reactor => exact h.readTasks c hc

theorem linked_next (h : w.Linked) (e : ServiceEvent) :
    ((serviceMachine mode).next w e).Linked := by
  cases e with
  | accept =>
    refine ⟨fun c hc ↦ ?_, fun c hc ↦ List.mem_insert_of_mem (h.readTasks c hc)⟩
    rcases List.mem_cons.1 hc with rfl | hc
    · exact List.mem_insert_self
    · exact List.mem_insert_of_mem (h.openConnections c hc)
  | continueRead c =>
    simp only [LabelledMachine.next, serviceMachine, serviceStep]
    split
    case isTrue hopen =>
      refine ⟨h.openConnections, fun d hd ↦ ?_⟩
      rcases List.mem_cons.1 hd with rfl | hd
      · exact h.openConnections d hopen.2
      · exact h.readTasks d hd
    case isFalse => exact h
  | frame env c message =>
    rcases Classical.em (w.CanProcess mode c) with hc | hc
    · have heffect := effect_process env (h.mem_of_canProcess hc) message
      have hstore :
          ({ w with server := (process env c w.server message).server } : Service).Linked :=
        ⟨fun d hd ↦ heffect.mem_connectionsMap (h.openConnections d hd),
          fun d hd ↦ heffect.mem_connectionsMap (h.readTasks d hd)⟩
      rw [next_frame_of_canProcess hc]
      split
      · exact hstore
      · cases mode with
        | threadPerClient =>
          exact ⟨fun d hd ↦ hstore.openConnections d (mem_closeSocket.1 hd).1, hstore.readTasks⟩
        | reactor =>
          exact ⟨hstore.openConnections, fun d hd ↦ hstore.readTasks d (List.mem_of_mem_erase hd)⟩
    · rw [next_frame_of_not_canProcess hc]
      exact h
  | complete c =>
    exact ⟨h.openConnections, fun d hd ↦ h.readTasks d (List.mem_of_mem_erase hd)⟩
  | close c =>
    exact ⟨fun d hd ↦ h.openConnections d (mem_closeSocket.1 hd).1, h.readTasks⟩

theorem linked_init (mode : ServerMode) : (serviceMachine mode).init.Linked where
  openConnections _ hc := absurd hc List.not_mem_nil
  readTasks _ hc := absurd hc List.not_mem_nil

theorem linked_of_reachable (h : (serviceMachine mode).Reachable w) : w.Linked :=
  h.invariant (linked_init mode) fun _ e _ hw ↦ linked_next hw e

/-- **The store is in a state of the server machine.** -/
theorem reachable_server (h : (serviceMachine mode).Reachable w) :
    (serverMachine mode).Reachable w.server := by
  refine h.component (f := Service.server) rfl fun w e hw ↦ ?_
  cases e with
  | accept => exact Or.inr ⟨.accept, rfl⟩
  | continueRead c => exact Or.inl (next_continueRead_eq mode w c).1
  | frame env c message =>
    rcases Classical.em (w.CanProcess mode c) with hc | hc
    · have hmem := (linked_of_reachable hw).mem_of_canProcess hc
      refine Or.inr ⟨.request env c message, ?_⟩
      rw [next_frame_server hc, next_request_of_mem mode _ hmem]
    · rw [next_frame_of_not_canProcess hc]
      exact Or.inl rfl
  | complete c => exact Or.inl rfl
  | close c => exact Or.inl rfl

theorem coherent_server (h : (serviceMachine mode).Reachable w) : Coherent w.server :=
  coherent_of_reachable (reachable_server h)

end Service

end SplNet
