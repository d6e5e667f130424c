import SplNet.Foundations.ConcurrentMap
import SplNet.Api.MessageEncoderDecoderImpl
import SplNet.Api.User

/-!
# The shared store

The singleton `ConnectionsImpl` together with the `User` objects it refers to and the connection
counter of the server. One call of the protocol is an `Outcome`: the state it leaves, the messages
it handed to connection handlers, and the exception that ended it, if any. What was done before an
exception stays done, which is what `Outcome.andThen` says.

Keys of the two user maps are strings, but `remove` takes any object. A `User` equals no string, so
removing by a `User` key removes nothing (`removeActiveUser_user`).

Connection numbers are unbounded: the Java counter wraps only after `2 ^ 31` connections.
-/

namespace SplNet

open Java

/-- An object passed where a key of a user map is expected. -/
inductive JObject
  | string (s : JString)
  | user (r : UserRef)
deriving DecidableEq

/-- The state shared by all connections. -/
structure Server where
  /-- The `User` objects. -/
  user : UserRef → User
  /-- The next unused reference. -/
  nextUser : UserRef
  usersMap : ConcurrentMap JString UserRef
  activeUsersMap : ConcurrentMap JString UserRef
  /-- The keys of `connectionsMap`: the connections that have a handler. -/
  connectionsMap : List ℤ
  filteredWords : List JString
  /-- The counter that numbers connections. -/
  connectionId : ℤ

namespace Server

/-- The user is a value of `UsersMap`. -/
def Registered (s : Server) (r : UserRef) : Prop := ∃ k, (k, r) ∈ s.usersMap.entries

theorem registered_iff {s : Server} {r : UserRef} :
    s.Registered r ↔ r ∈ s.usersMap.entries.map Prod.snd := by
  simp [Registered]

instance (s : Server) (r : UserRef) : Decidable (s.Registered r) :=
  decidable_of_iff _ registered_iff.symm

/-- A statement about all registered users is decided along the entries of the map. -/
instance (s : Server) (p : UserRef → Prop) [DecidablePred p] :
    Decidable (∀ r, s.Registered r → p r) :=
  decidable_of_iff (∀ r ∈ s.usersMap.entries.map Prod.snd, p r)
    (forall_congr' fun _ ↦ imp_congr_left registered_iff.symm)

/-- Run a method of one user. -/
def modifyUser (s : Server) (r : UserRef) (f : User → User) : Server :=
  { s with user := fun r' ↦ if r' = r then f (s.user r) else s.user r' }

/-- Create a user and `put` it into `UsersMap`. -/
def putUser (s : Server) (username : JString) (u : User) : Server :=
  { s with
    user := fun r ↦ if r = s.nextUser then u else s.user r
    nextUser := s.nextUser + 1
    usersMap := s.usersMap.put username s.nextUser }

/-- `getActiveUsersMap().put(username, user)`. -/
def putActiveUser (s : Server) (username : JString) (r : UserRef) : Server :=
  { s with activeUsersMap := s.activeUsersMap.put username r }

/-- `getActiveUsersMap().remove(key)`. -/
def removeActiveUser (s : Server) (key : JObject) : Server :=
  { s with activeUsersMap := s.activeUsersMap.filterKeys fun k ↦ key ≠ .string k }

/-- A new connection: its handler is put under the counter, which advances. -/
def accept (s : Server) : Server :=
  { s with
    connectionsMap := s.connectionsMap.insert s.connectionId
    connectionId := s.connectionId + 1 }

/-! ### What the updates leave alone -/

section Updates

variable (s : Server) (r r' : UserRef) (f : User → User)

@[simp] theorem modifyUser_user :
    (s.modifyUser r f).user r' = if r' = r then f (s.user r) else s.user r' := rfl

@[simp] theorem modifyUser_nextUser : (s.modifyUser r f).nextUser = s.nextUser := rfl
@[simp] theorem modifyUser_usersMap : (s.modifyUser r f).usersMap = s.usersMap := rfl
@[simp] theorem modifyUser_activeUsersMap :
    (s.modifyUser r f).activeUsersMap = s.activeUsersMap := rfl
@[simp] theorem modifyUser_connectionsMap :
    (s.modifyUser r f).connectionsMap = s.connectionsMap := rfl
@[simp] theorem modifyUser_connectionId : (s.modifyUser r f).connectionId = s.connectionId := rfl
@[simp] theorem modifyUser_filteredWords :
    (s.modifyUser r f).filteredWords = s.filteredWords := rfl

theorem modifyUser_modifyUser (g : User → User) :
    (s.modifyUser r f).modifyUser r g = s.modifyUser r (g ∘ f) := by
  have huser : ((s.modifyUser r f).modifyUser r g).user = (s.modifyUser r (g ∘ f)).user := by
    funext r'
    simp only [modifyUser_user, if_true, Function.comp_apply]
    split <;> rfl
  exact congrArg (fun user ↦ ({ s with user := user } : Server)) huser

/-- **Removing by a user object removes nothing**: no key equals it. -/
@[simp] theorem removeActiveUser_user : s.removeActiveUser (.user r) = s := by
  rw [removeActiveUser, ConcurrentMap.filterKeys_eq_self]
  intro k
  simp

end Updates

end Server

/-! ### Outcomes -/

/-- What one call does: the state it leaves, the messages handed to connection handlers in order,
and the exception that ended it. -/
structure Outcome where
  server : Server
  sent : List (ℤ × JString)
  thrown : Option JException

namespace Outcome

/-- Nothing more happens. -/
def done (s : Server) : Outcome := ⟨s, [], none⟩

/-- An exception is thrown. -/
def throws (s : Server) (e : JException) : Outcome := ⟨s, [], some e⟩

/-- Go on unless an exception was thrown. -/
def andThen (o : Outcome) (f : Server → Outcome) : Outcome :=
  match o.thrown with
  | some _ => o
  | none => ⟨(f o.server).server, o.sent ++ (f o.server).sent, (f o.server).thrown⟩

/-- Run a loop body over a list. -/
def forEach {α : Type*} (f : Server → α → Outcome) (s : Server) : List α → Outcome
  | [] => done s
  | x :: xs => (f s x).andThen fun s ↦ forEach f s xs

@[simp] theorem andThen_of_none (s : Server) (sent : List (ℤ × JString)) (f : Server → Outcome) :
    (Outcome.mk s sent none).andThen f = ⟨(f s).server, sent ++ (f s).sent, (f s).thrown⟩ := rfl

@[simp] theorem andThen_of_some (s : Server) (sent : List (ℤ × JString)) (e : JException)
    (f : Server → Outcome) : (Outcome.mk s sent (some e)).andThen f = ⟨s, sent, some e⟩ := rfl

@[simp] theorem andThen_done (o : Outcome) : o.andThen done = o := by
  rcases o with ⟨s, sent, - | e⟩
  · rw [andThen_of_none, done, List.append_nil]
  · rfl

theorem andThen_assoc (o : Outcome) (f g : Server → Outcome) :
    (o.andThen f).andThen g = o.andThen fun s ↦ (f s).andThen g := by
  rcases o with ⟨s, sent, - | e⟩
  · simp only [andThen_of_none]
    rcases f s with ⟨s', sent', - | e⟩
    · simp only [andThen_of_none, List.append_assoc]
    · rfl
  · rfl

end Outcome

namespace Server

/-- `ConnectionsImpl.send`: the handler of the connection, when there is one, encodes the message
and writes it. -/
def send (s : Server) (connectionId : ℤ) (msg : JString) : Outcome :=
  if connectionId ∈ s.connectionsMap then
    match encode msg with
    | .ok _ => ⟨s, [(connectionId, msg)], none⟩
    | .error e => ⟨s, [], some e⟩
  else ⟨s, [], none⟩

/-- What reaches a connection: nothing without a handler. -/
def delivery (s : Server) (connectionId : ℤ) (msg : JString) : List (ℤ × JString) :=
  if connectionId ∈ s.connectionsMap then [(connectionId, msg)] else []

/-- Sending an encodable message never throws. -/
theorem send_of_encode {s : Server} {connectionId : ℤ} {msg : JString} {bytes : List UInt8}
    (h : encode msg = .ok bytes) :
    s.send connectionId msg = ⟨s, s.delivery connectionId msg, none⟩ := by
  rw [send, delivery, h]
  split <;> rfl

theorem mem_delivery {s : Server} {connectionId d : ℤ} {msg m : JString} :
    (d, m) ∈ s.delivery connectionId msg ↔
      d = connectionId ∧ m = msg ∧ connectionId ∈ s.connectionsMap := by
  rw [delivery]
  split
  case isTrue h => simp [h]
  case isFalse h => simp [h]

theorem delivery_of_mem {s : Server} {connectionId : ℤ} {msg : JString}
    (h : connectionId ∈ s.connectionsMap) : s.delivery connectionId msg = [(connectionId, msg)] :=
  if_pos h

/-- Messages to an accepted connection all reach it. -/
theorem flatMap_delivery_of_mem {s : Server} {connectionId : ℤ}
    (h : connectionId ∈ s.connectionsMap)
    (msgs : List JString) :
    msgs.flatMap (s.delivery connectionId) = msgs.map fun msg ↦ (connectionId, msg) := by
  have hdelivery : s.delivery connectionId = fun msg ↦ [(connectionId, msg)] :=
    funext fun _ ↦ delivery_of_mem h
  rw [hdelivery, List.map_eq_flatMap]

/-- A send changes no state. -/
@[simp] theorem send_server (s : Server) (connectionId : ℤ) (msg : JString) :
    (s.send connectionId msg).server = s := by
  rw [send]
  split
  · split <;> rfl
  · rfl

end Server

end SplNet
