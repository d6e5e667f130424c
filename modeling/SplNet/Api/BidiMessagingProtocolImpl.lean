import SplNet.Foundations.IteratorSearch
import SplNet.Api.ConnectionsImpl

/-!
# Processing one frame

`BidiMessagingProtocolImpl.process`, one definition for each opcode. What a call reads besides the
frame and the store is collected in `Surroundings`: the iteration order of the two user maps, the
current year, and the word boundaries of the regular expressions. Nothing is assumed of them, and
they may differ from one call to the next.

A search loop that sets a flag and stops at the first match is `List.find?`. The loops of PM and
LOGSTAT have no flag, and use whatever the loop variable holds afterwards
(`IteratorSearch.loopVariable`).

The counter `howMuchPostIPost` is only ever incremented, and is left out.
-/

namespace SplNet

open Java IteratorSearch

/-- What a call reads from outside the store. -/
structure Surroundings where
  usersOrder : IterationOrder JString UserRef
  activeOrder : IterationOrder JString UserRef
  /-- The current year. -/
  year : ℤ
  wordBoundary : WordBoundary

namespace Surroundings

variable (env : Surroundings) (s : Server)

/-- `getUsersMap().values()` in iteration order. -/
def users : List UserRef := env.usersOrder.values s.usersMap

/-- `getActiveUsersMap().values()` in iteration order. -/
def activeUsers : List UserRef := env.activeOrder.values s.activeUsersMap

/-- The search for the first active user stored with this connection. -/
def findActive (connectionId : ℤ) : Option UserRef :=
  (env.activeUsers s).find? fun r ↦ (s.user r).connId = connectionId

/-- The search for the first user whose name contains the text (REGISTER, LOGIN). -/
def findContaining (text : JString) : Option UserRef :=
  (env.users s).find? fun r ↦ contains (s.user r).username text

/-- The search for the first user whose name is contained in the text (FOLLOW, BLOCK). -/
def findContained (text : JString) : Option UserRef :=
  (env.users s).find? fun r ↦ contains text (s.user r).username

variable {env s}

theorem mem_users {r : UserRef} : r ∈ env.users s ↔ s.Registered r := IterationOrder.mem_values

theorem mem_activeUsers {r : UserRef} :
    r ∈ env.activeUsers s ↔ ∃ k, (k, r) ∈ s.activeUsersMap.entries :=
  IterationOrder.mem_values

theorem findActive_eq_some {connectionId : ℤ} {r : UserRef}
    (h : env.findActive s connectionId = some r) :
    (∃ k, (k, r) ∈ s.activeUsersMap.entries) ∧ (s.user r).connId = connectionId :=
  ⟨mem_activeUsers.1 (List.mem_of_find?_eq_some h), by simpa using List.find?_some h⟩

theorem findActive_eq_none {connectionId : ℤ} (h : env.findActive s connectionId = none)
    {k : JString} {r : UserRef} (hr : (k, r) ∈ s.activeUsersMap.entries) :
    (s.user r).connId ≠ connectionId := by
  simpa using List.find?_eq_none.1 h r (mem_activeUsers.2 ⟨k, hr⟩)

/-- The search succeeds when some user of the active map has the connection. -/
theorem exists_findActive {connectionId : ℤ} {k : JString} {r : UserRef}
    (hr : (k, r) ∈ s.activeUsersMap.entries) (hconn : (s.user r).connId = connectionId) :
    ∃ r', env.findActive s connectionId = some r' := by
  rcases h : env.findActive s connectionId with - | r'
  · exact absurd hconn (findActive_eq_none h hr)
  · exact ⟨r', rfl⟩

theorem findContaining_eq_some {text : JString} {r : UserRef}
    (h : env.findContaining s text = some r) :
    s.Registered r ∧ contains (s.user r).username text = true :=
  ⟨mem_users.1 (List.mem_of_find?_eq_some h),
    List.find?_some (p := fun r ↦ contains (s.user r).username text) h⟩

theorem findContained_eq_some {text : JString} {r : UserRef}
    (h : env.findContained s text = some r) :
    s.Registered r ∧ contains text (s.user r).username = true :=
  ⟨mem_users.1 (List.mem_of_find?_eq_some h),
    List.find?_some (p := fun r ↦ contains text (s.user r).username) h⟩

end Surroundings

/-- A notification: its kind, the author, the content, both ended by `\0`. -/
def notification (kind author content : JString) : JString :=
  kind ++ author ++ [nul] ++ content ++ [nul]

section Commands

variable (env : Surroundings) (connectionId : ℤ) (s : Server)

/-- Opcode 01. The user created for a refused registration is dropped at once. -/
def processRegister (message : JString) : Outcome :=
  match split message nul with
  | username :: password :: birthday :: _ =>
    -- the loop looks for the new name inside the registered ones
    if (env.users s).any fun r ↦ contains (s.user r).username username then
      s.send connectionId (str "1101")
    else (s.putUser username (User.new username password birthday)).send connectionId (str "1001")
  | _ => .throws s .arrayIndexOutOfBounds

/-- The loop over the characters of one queued post: it appends the characters before the first
blank to `senderName` and sets `limit` behind that blank. -/
def replayScan (senderName : JString) (limit : ℕ) (i : ℕ) : JString → JString × ℕ
  | [] => (senderName, limit)
  | c :: cs =>
    if c ≠ space then replayScan (senderName ++ [c]) limit (i + 1) cs else (senderName, i + 1)

/-- The loop over the queued posts. `senderName` and `limit` live outside it. -/
def replay (senderName : JString) (limit : ℕ) (s : Server) : List JString → Outcome
  | [] => .done s
  | post :: posts =>
    -- a post without a blank is cut at the limit of the post before it
    let (senderName, limit) := replayScan senderName limit 0 post
    match substringFrom post limit with
    | .ok content =>
      (s.send connectionId (notification (str "091") senderName content)).andThen fun s ↦
        replay senderName limit s posts
    | .error e => .throws s e

/-- An accepted LOGIN, up to the acknowledgement: `put`, `activate`, `setConnId`. -/
def startSession (username : JString) (r : UserRef) : Server :=
  (s.putActiveUser username r).modifyUser r fun u ↦ u.activate.setConnId connectionId

/-- Opcode 02. -/
def processLogin (message : JString) : Outcome :=
  match split message nul with
  | username :: password :: captcha :: _ =>
    match env.findContaining s username with
    | some user =>
      if (s.user user).password = password ∧ captcha = str "1" ∧
          (s.user user).isActivated = false then
        ((startSession connectionId s username user).send connectionId (str "1002")).andThen fun s ↦
          replay connectionId [] 0 s (s.user user).awaitingPosts
      else s.send connectionId (str "1102")
    | none => s.send connectionId (str "1102")
  | _ => .throws s .arrayIndexOutOfBounds

/-- Opcode 03. -/
def processLogout : Outcome :=
  match env.findActive s connectionId with
  | some myUser =>
    ((s.modifyUser myUser User.deActivate).removeActiveUser (.user myUser)).send connectionId
      (str "1003")
  | none => s.send connectionId (str "1103")

/-- Opcode 04. When a target is found, only the first active user of the connection can cause an
answer, and only while it is activated. -/
def processFollow : JString → Outcome
  | [] => .throws s .stringIndexOutOfBounds
  | action :: message =>
    match env.findContained s message with
    | some otherUser =>
      match env.findActive s connectionId with
      | some myUser =>
        if (s.user myUser).isActivated then
          if action = char '0' ∧ otherUser ∉ (s.user myUser).followers ∧
              myUser ∉ (s.user otherUser).blockingUsers then
            (s.modifyUser myUser fun u ↦ (u.addFollower otherUser).incrementFollowing).send
              connectionId (str "100400" ++ message ++ [nul])
          else if action = char '1' ∧ otherUser ∈ (s.user myUser).followers then
            (s.modifyUser myUser fun u ↦ (u.removeFollower otherUser).decreaseFollowing).send
              connectionId (str "100401" ++ message ++ [nul])
          else s.send connectionId (str "1104")
        else .done s
      | none => .done s
    | none => s.send connectionId (str "1104")

/-- The mention scanner. `none` looks for an `'@'`; `some userName` collects a name, and ends it at
a blank, which is skipped, or at the last character of the post, which is not part of the name. -/
def mentionScan : Option JString → JString → List JString
  | _, [] => []
  | none, c :: cs => if c = char '@' then mentionScan (some []) cs else mentionScan none cs
  | some userName, c :: cs =>
    -- the name ends here, at a blank or at the last character, and is looked up
    if c = space ∨ cs = [] then userName :: mentionScan none cs
    else mentionScan (some (userName ++ [c])) cs

/-- The names mentioned in a post. -/
def mentions (message : JString) : List JString := mentionScan none message

/-- The users queued by the mention scanner, once for each mention that is a part of their name. -/
def mentionedUsers (message : JString) : List UserRef :=
  (mentions message).flatMap fun userName ↦
    (env.users s).filter fun r ↦ contains (s.user r).username userName

/-- The loop that removes followers from the queue it iterates over: each visited element that
follows the author drops its first occurrence. -/
def dropFollowers (myUser : UserRef) (otherUsers : List UserRef) : List UserRef :=
  otherUsers.foldl
    (fun queue r ↦ if myUser ∈ (s.user r).followers then queue.erase r else queue) otherUsers

/-- One delivery of a post: queued for an inactive user, sent to an active one. -/
def deliverPost (author message : JString) (s : Server) (r : UserRef) : Outcome :=
  if (s.user r).isActivated = false then
    .done (s.modifyUser r (User.addAwaitingPost (author ++ [space] ++ message)))
  else s.send (s.user r).connId (notification (str "091") author message)

/-- Opcode 05. -/
def processPost (message : JString) : Outcome :=
  match substring message 0 (message.length - 1) with
  | .ok message =>
    match env.findActive s connectionId with
    | some myUser =>
      let author := (s.user myUser).username
      let otherUsers := dropFollowers s myUser (mentionedUsers env s message)
      let followers := (env.users s).filter fun r ↦ myUser ∈ (s.user r).followers
      (Outcome.forEach (deliverPost author message) s followers).andThen fun s ↦
        (Outcome.forEach (deliverPost author message) s otherUsers).andThen fun s ↦
          s.send connectionId (str "1005")
    | none => s.send connectionId (str "1105")
  | .error e => .throws s e

/-- The search loops of PM and LOGSTAT over the active users. -/
def sessionVariable : Option UserRef :=
  loopVariable (fun r ↦ (s.user r).connId = connectionId) none (env.activeUsers s)

/-- The search loop of PM over all users. -/
def recipientVariable (message : JString) : Option UserRef :=
  loopVariable (fun r ↦ contains message (s.user r).username) none (env.users s)

/-- The filter loop of PM. -/
def filterWords (message : JString) : JString :=
  s.filteredWords.foldl
    (fun message w ↦ replaceAllWord env.wordBoundary w (str "<filtered>") message) message

/-- Opcode 06. -/
def processPm (message : JString) : Outcome :=
  match substring message 0 (message.length - 1) with
  | .ok message =>
    match sessionVariable env connectionId s, recipientVariable env s message with
    | some myUser, some otherUser =>
      -- both are set as soon as the maps are not empty, whether or not the searches succeeded
      if otherUser ∉ (s.user myUser).followers ∨ myUser ∈ (s.user otherUser).blockingUsers then
        s.send connectionId (str "1106")
      else
        match substringFrom (filterWords env s message)
            ((s.user otherUser).username.length + 1) with
        | .ok content =>
          (s.send (s.user otherUser).connId
              (notification (str "090") (s.user myUser).username content)).andThen fun s ↦
            s.send connectionId (str "1006")
        | .error e => .throws s e
    | _, _ => s.send connectionId (str "1106")
  | .error e => .throws s e

/-- The acknowledgement LOGSTAT sends for one user. -/
def statMessage (r : UserRef) : Except JException JString := do
  let yearText ← substringFrom (s.user r).birthday 6
  let yearsToInt ← parseInt yearText
  -- `int` arithmetic wraps around
  let age := (env.year - yearsToInt - 1).bmod 0x100000000
  let numFollowing := (s.user r).followers.length
  let numFollowers := (s.user r).following.toInt
  let numOfPosts := (s.user r).awaitingPosts.length
  return str "1007" ++ decimal age ++ [space] ++ decimal numFollowing ++ [space] ++
    decimal numFollowers ++ [space] ++ decimal numOfPosts

/-- The body of the LOGSTAT loop. -/
def statUser (myUser : UserRef) (s : Server) (r : UserRef) : Outcome :=
  if myUser ∉ (s.user r).blockingUsers then
    match statMessage env s r with
    | .ok msg => s.send connectionId msg
    | .error e => .throws s e
  else s.send connectionId (str "1107")

/-- Opcode 07. Without any active user nothing is answered. -/
def processLogstat : Outcome :=
  match sessionVariable env connectionId s with
  | some myUser => Outcome.forEach (statUser env connectionId myUser) s (env.activeUsers s)
  | none => .done s

/-- Opcode 08. The loop casts the **keys** of the active map to `User`; they are strings, so the
first one throws, and the loop body is never reached. -/
def processStat : Outcome :=
  match env.activeOrder.keys s.activeUsersMap with
  | [] => s.send connectionId (str "1108")
  | _ :: _ => .throws s .classCast

/-- An accepted BLOCK, up to the acknowledgement. The two users may be the same. -/
def blockUser (myUser otherUser : UserRef) : Server :=
  let s := s.modifyUser myUser (User.addBlockingUser otherUser)
  let s := if otherUser ∈ (s.user myUser).followers then
    s.modifyUser myUser (User.removeFollower otherUser) else s
  if myUser ∈ (s.user otherUser).followers then
    s.modifyUser otherUser (User.removeFollower myUser) else s

/-- Opcode 12. -/
def processBlock (message : JString) : Outcome :=
  match env.findActive s connectionId, env.findContained s message with
  | some myUser, some otherUser =>
    if otherUser ∉ (s.user myUser).blockingUsers then
      -- the shortened text is not used, but cutting an empty one throws
      match substring message 0 (message.length - 1) with
      | .ok _ => (blockUser s myUser otherUser).send connectionId (str "1012")
      | .error e => .throws s e
    else s.send connectionId (str "1112")
  | _, _ => s.send connectionId (str "1112")

/-- The opcode dispatch. Other opcodes are ignored. -/
def dispatch (optCode message : JString) : Outcome :=
  if optCode = str "01" then processRegister env connectionId s message
  else if optCode = str "02" then processLogin env connectionId s message
  else if optCode = str "03" then processLogout env connectionId s
  else if optCode = str "04" then processFollow env connectionId s message
  else if optCode = str "05" then processPost env connectionId s message
  else if optCode = str "06" then processPm env connectionId s message
  else if optCode = str "07" then processLogstat env connectionId s
  else if optCode = str "08" then processStat env connectionId s
  else if optCode = str "12" then processBlock env connectionId s message
  else .done s

/-- `BidiMessagingProtocolImpl.process`. -/
def process (message : JString) : Outcome :=
  match substring message 0 2, substringFrom message 2 with
  | .ok optCode, .ok message => dispatch env connectionId s optCode message
  | .error e, _ => .throws s e
  | _, .error e => .throws s e

end Commands

end SplNet
