import SplNet.Foundations.LoopRun
import SplNet.Client.ConnectionHandler

/-!
# The socket thread of the client

`readFromSocketThread::run` with `decoder` and the reads below it, on a stream of bytes that ends:
what each of them does when a read fails. `return NULL` in a function whose result is a
`std::string` calls `std::string(NULL)`, which throws (`ClientException.stringFromNull`); nothing
catches it. The loop of `getFrameAscii` does not look at the result of its read and appends whatever
its local `ch` holds, which is an arbitrary byte before the first read that succeeds.

The loops are run for a number of iterations, and a computation that does not finish within it has
no result. Strings can get arbitrarily long. The other thread changes `logoutSent` and
`logoutFailed` only, which the loop does not read but behind the text `ACK 03`.
-/

namespace SplNet.Client

/-- One call of `getFrameAscii`. -/
structure FrameRead where
  delimiter : UInt8
  /-- The bytes that are still to come when it is called. -/
  stream : List UInt8
  returned : Bool
deriving DecidableEq

/-- What the socket thread works on. -/
structure SocketState where
  /-- The bytes that are still to come. Behind them every read fails. -/
  stream : List UInt8
  flags : Flags
  /-- What the local `ch` of the later calls of `getFrameAscii` holds at first. -/
  garbage : ℕ → UInt8
  /-- The calls of `getFrameAscii` that have returned. -/
  frameReads : List FrameRead
  /-- `close` has been called. -/
  closed : Bool

/-- What the socket thread can raise. -/
inductive ClientException
  | stringFromNull
deriving DecidableEq

/-- A computation of the socket thread. It has no result if it does not finish. -/
abbrev Socket := StateT SocketState (ExceptT ClientException Option)

namespace Socket

/-- The computation has not finished. -/
def unfinished {α : Type} : Socket α := fun _ ↦ ExceptT.mk none

/-- `return NULL`. -/
def returnNull {α : Type} : Socket α := throw .stringFromNull

/-- `getBytes`; `none` is `false`. A read that fails has taken what there was. -/
def getBytes (bytesToRead : ℕ) : Socket (Option (List UInt8)) := fun st ↦
  match Client.getBytes bytesToRead st.stream with
  | some (bytes, stream) => pure (some bytes, { st with stream := stream })
  | none => pure (none, { st with stream := [] })

/-- `if(!getBytes(bytes, bytesToRead)) return NULL`. -/
def read (bytesToRead : ℕ) : Socket (List UInt8) := do
  match ← getBytes bytesToRead with
  | some bytes => return bytes
  | none => returnNull

/-- The locals of `getFrameAscii` and the stream. -/
structure FrameLocals where
  frame : List UInt8
  ch : UInt8
  stream : List UInt8

/-- One iteration of the loop of `getFrameAscii`. -/
def frameBody (delimiter : UInt8) (l : FrameLocals) : FrameLocals ⊕ List UInt8 × List UInt8 :=
  -- a read that fails leaves `ch` as it was
  let ch := l.stream.headD l.ch
  let frame := l.frame ++ [ch]
  if delimiter ≠ ch then .inl ⟨frame, ch, l.stream.tail⟩ else .inr (frame, l.stream.tail)

/-- `getFrameAscii`. -/
def getFrameAscii (iterations : ℕ) (delimiter : UInt8) : Socket (Bool × List UInt8) := fun st ↦
  match Loop.run (frameBody delimiter) iterations ⟨[], st.garbage 0, st.stream⟩ with
  | some (frame, stream) =>
    pure ((true, frame), { st with
      stream := stream
      garbage := fun n ↦ st.garbage (n + 1)
      frameReads := st.frameReads ++ [⟨delimiter, st.stream, true⟩] })
  | none => unfinished st

/-- `if(!getFrameAscii(frame, '\0')) return NULL`. -/
def readFrame (iterations : ℕ) : Socket (List UInt8) := do
  match ← getFrameAscii iterations 0 with
  | (true, frame) => return frame
  | (false, _) => returnNull

def notificationDecoder (iterations : ℕ) : Socket (List UInt8) := do
  let stat ← read 1
  let kind := if stat = ascii "1" then ascii "Public " else ascii "PM "
  let postingUser ← readFrame iterations
  let content ← readFrame iterations
  return kind ++ (postingUser.dropLast ++ ascii " ") ++ content.dropLast

/-- `terminate = true`. -/
def setTerminate : Socket Unit :=
  modify fun st ↦ { st with flags := { st.flags with terminate := true } }

/-- `logoutFailed = true`. -/
def setLogoutFailed : Socket Unit :=
  modify fun st ↦ { st with flags := { st.flags with logoutFailed := true } }

def ackDecoder (iterations : ℕ) : Socket (List UInt8) := do
  let messageOpcode ← read 2
  let answer := messageOpcode ++ ascii " "
  if messageOpcode = ascii "03" then setTerminate
  if messageOpcode = ascii "04" then
    let messageOpcode ← read 2
    let userName ← readFrame iterations
    let _ ← read 1
    return answer ++ messageOpcode ++ ascii " " ++ userName.dropLast
  else if messageOpcode = ascii "07" ∨ messageOpcode = ascii "08" then
    let age ← read 2
    let numOfPosts ← read 2
    let numOfFollowers ← read 2
    let numOfFollowing ← read 2
    return answer ++ toDecimal (bytesToShort age) ++ ascii " " ++
      toDecimal (bytesToShort numOfPosts) ++ ascii " " ++
      toDecimal (bytesToShort numOfFollowers) ++ ascii " " ++
      toDecimal (bytesToShort numOfFollowing)
  else return answer

def errorDecoder : Socket (List UInt8) := do
  let arg ← read 2
  if arg = ascii "03" then setLogoutFailed
  return arg

/-- `decoder`. -/
def decoder (iterations : ℕ) : Socket (List UInt8) := do
  let opCode ← read 2
  if opCode = ascii "09" then
    let answer ← notificationDecoder iterations
    let _ ← read 1
    return ascii "NOTIFICATION " ++ answer
  else if opCode = ascii "10" then
    let answer ← ackDecoder iterations
    let _ ← read 1
    return ascii "ACK " ++ answer
  else if opCode = ascii "11" then
    let answer ← errorDecoder
    let _ ← read 1
    return ascii "ERROR " ++ answer
  else returnNull

/-- What `run` does behind the text `ACK 03`: it waits for one of the flags, and closes. -/
def afterLogout : Socket Unit := do
  let st : SocketState ← get
  if st.flags.terminate then set { st with closed := true }
  else if st.flags.logoutSent then return
  else unfinished

/-- `readFromSocketThread::run`. -/
def run : ℕ → Socket Unit
  | 0 => unfinished
  | iterations + 1 => do
    let st : SocketState ← get
    if st.flags.terminate then return
    let ans ← decoder iterations
    if ans = [] then return
    if ans = ascii "ACK 03" then afterLogout
    run iterations

end Socket

end SplNet.Client
