import SplNet.Api.MessageEncoderDecoderImpl

/-!
# The client's encoder and decoder

`connectionHandler` of the C++ client: `Encoder`, which turns a command line into the bytes of a
frame, and `decoder`, which reads one message from the socket. Text is a list of bytes.

A read takes the stream of bytes that is still to come and returns what is left of it. `none` is a
read that never ends or that ends with the connection, and the `return NULL` of an unknown message.
Where the source appends an array of two characters to a string, the two characters are appended.
-/

namespace SplNet.Client

/-- An ASCII literal. -/
def ascii (s : String) : List UInt8 := s.toList.map fun c ↦ UInt8.ofNat c.toNat

/-- The character `' '`. -/
def blank : UInt8 := 0x20

/-- The flags of a `connectionHandler`. -/
structure Flags where
  terminate : Bool
  logoutSent : Bool
  logoutFailed : Bool
deriving DecidableEq

/-! ### `Encoder` -/

/-- The line up to its first blank. -/
def opCode (msg : List UInt8) : List UInt8 := msg.takeWhile (· ≠ blank)

/-- The line behind its first blank. -/
def arguments (msg : List UInt8) : List UInt8 := (msg.dropWhile (· ≠ blank)).tail

/-- Blanks become `\0`. -/
def blanksToNuls (s : List UInt8) : List UInt8 := s.map fun c ↦ if c = blank then 0 else c

/-- Blanks are dropped. -/
def dropBlanks (s : List UInt8) : List UInt8 := s.filter (· ≠ blank)

/-- The bytes `Encoder` returns; a line without a known command has none. -/
def encodedLine (msg : List UInt8) : List UInt8 :=
  if opCode msg = ascii "REGISTER" then
    ascii "01" ++ blanksToNuls (arguments msg) ++ [0] ++ ascii ";"
  else if opCode msg = ascii "LOGIN" then ascii "02" ++ blanksToNuls (arguments msg) ++ ascii ";"
  else if opCode msg = ascii "LOGOUT" then ascii "03" ++ ascii ";"
  else if opCode msg = ascii "FOLLOW" then
    ascii "04" ++ dropBlanks (arguments msg) ++ [0] ++ ascii ";"
  else if opCode msg = ascii "POST" then ascii "05" ++ arguments msg ++ [0] ++ ascii ";"
  else if opCode msg = ascii "PM" then ascii "06" ++ arguments msg ++ [0] ++ ascii ";"
  else if opCode msg = ascii "LOGSTAT" then ascii "07" ++ ascii ";"
  else if opCode msg = ascii "STAT" then ascii "08" ++ arguments msg ++ [0] ++ ascii ";"
  else if opCode msg = ascii "BLOCK" then ascii "12" ++ arguments msg ++ [0] ++ ascii ";"
  else []

/-- `Encoder`. -/
def encoder (flags : Flags) (msg : List UInt8) : Flags × List UInt8 :=
  (if opCode msg = ascii "LOGOUT" then { flags with logoutSent := true } else flags,
    encodedLine msg)

/-! ### `decoder` -/

/-- `getBytes`: a fixed number of bytes. -/
def getBytes (bytesToRead : ℕ) (stream : List UInt8) : Option (List UInt8 × List UInt8) :=
  if bytesToRead ≤ stream.length then
    some (stream.take bytesToRead, stream.drop bytesToRead)
  else none

/-- `getFrameAscii`: the bytes up to the delimiter, which is included. -/
def getFrameAscii (delimiter : UInt8) : List UInt8 → Option (List UInt8 × List UInt8)
  | [] => none
  | ch :: stream =>
    if delimiter = ch then some ([ch], stream)
    else (getFrameAscii delimiter stream).map fun (frame, stream) ↦ (ch :: frame, stream)

/-- `bytesToShort`. -/
def bytesToShort (bytesArr : List UInt8) : ℤ :=
  (((bytesArr.headD 0).toNat * 0x100 + (bytesArr.tail.headD 0).toNat : ℕ) : ℤ).bmod 0x10000

/-- `std::to_string`. -/
def toDecimal (n : ℤ) : List UInt8 := ascii (toString n)

def notificationDecoder (stream : List UInt8) : Option (List UInt8 × List UInt8) := do
  let (stat, stream) ← getBytes 1 stream
  let kind := if stat = ascii "1" then ascii "Public " else ascii "PM "
  let (postingUser, stream) ← getFrameAscii 0 stream
  let (content, stream) ← getFrameAscii 0 stream
  return (kind ++ (postingUser.dropLast ++ ascii " ") ++ content.dropLast, stream)

def ackDecoder (flags : Flags) (stream : List UInt8) :
    Option (Flags × List UInt8 × List UInt8) := do
  let (messageOpcode, stream) ← getBytes 2 stream
  let answer := messageOpcode ++ ascii " "
  let flags := if messageOpcode = ascii "03" then { flags with terminate := true } else flags
  if messageOpcode = ascii "04" then
    let (messageOpcode, stream) ← getBytes 2 stream
    let (userName, stream) ← getFrameAscii 0 stream
    let (_, stream) ← getBytes 1 stream
    return (flags, answer ++ messageOpcode ++ ascii " " ++ userName.dropLast, stream)
  else if messageOpcode = ascii "07" ∨ messageOpcode = ascii "08" then
    let (age, stream) ← getBytes 2 stream
    let (numOfPosts, stream) ← getBytes 2 stream
    let (numOfFollowers, stream) ← getBytes 2 stream
    let (numOfFollowing, stream) ← getBytes 2 stream
    return (flags, answer ++ toDecimal (bytesToShort age) ++ ascii " " ++
      toDecimal (bytesToShort numOfPosts) ++ ascii " " ++
      toDecimal (bytesToShort numOfFollowers) ++ ascii " " ++
      toDecimal (bytesToShort numOfFollowing), stream)
  else return (flags, answer, stream)

def errorDecoder (flags : Flags) (stream : List UInt8) :
    Option (Flags × List UInt8 × List UInt8) := do
  let (arg, stream) ← getBytes 2 stream
  return (if arg = ascii "03" then { flags with logoutFailed := true } else flags, arg, stream)

/-- `decoder`: one message, and the byte behind it. -/
def decoder (flags : Flags) (stream : List UInt8) :
    Option (Flags × List UInt8 × List UInt8) := do
  let (opCode, stream) ← getBytes 2 stream
  if opCode = ascii "09" then
    let (answer, stream) ← notificationDecoder stream
    let (_, stream) ← getBytes 1 stream
    return (flags, ascii "NOTIFICATION " ++ answer, stream)
  else if opCode = ascii "10" then
    let (flags, answer, stream) ← ackDecoder flags stream
    let (_, stream) ← getBytes 1 stream
    return (flags, ascii "ACK " ++ answer, stream)
  else if opCode = ascii "11" then
    let (flags, answer, stream) ← errorDecoder flags stream
    let (_, stream) ← getBytes 1 stream
    return (flags, ascii "ERROR " ++ answer, stream)
  else none

/-- Messages read one after the other: the texts, and the stream behind each of them. -/
def decodeMessages (flags : Flags) : ℕ → List UInt8 → Option (List (List UInt8 × List UInt8))
  | 0, _ => some []
  | n + 1, stream => do
    let (flags, text, stream) ← decoder flags stream
    let rest ← decodeMessages flags n stream
    return (text, stream) :: rest

end SplNet.Client
