import SplNet.Foundations.LoopRun
import SplNet.Srv.WritePath

/-!
# One call of `continueWrite`

`NonBlockingConnectionHandler.continueWrite` on a channel that may fail. No other thread sends
meanwhile. A write takes some of the remaining bytes of the first buffer, all or none of them
included, or throws an `IOException`, which the loop catches: it closes the channel and goes on. A
write to a closed channel throws.
-/

namespace SplNet

/-- What a write to an open channel does. -/
inductive WriteResult
  /-- At most so many bytes are taken. -/
  | transfers (limit : ℕ)
  | ioException
deriving DecidableEq

/-- What a call of `continueWrite` works on. -/
structure WriteCall where
  /-- The remaining bytes of each buffer. -/
  writeQueue : List (List UInt8)
  isOpen : Bool
  /-- What the writes to come do as long as the channel is open. -/
  channel : ℕ → WriteResult

/-- How a call returns. -/
inductive WriteReturn
  /-- The first buffer has bytes left. -/
  | hasRemaining (s : WriteCall)
  /-- Everything is written, and the protocol terminates the connection. -/
  | close (s : WriteCall)
  /-- Everything is written: `updateInterestedOps(chan, OP_READ)`. -/
  | setRead (s : WriteCall)

namespace WriteCall

/-- What the `n`-th write to come does. -/
def write (s : WriteCall) (n : ℕ) : WriteResult := if s.isOpen then s.channel n else .ioException

/-- The state behind the next write. -/
def goOn (s : WriteCall) (writeQueue : List (List UInt8)) (isOpen : Bool) : WriteCall where
  writeQueue := writeQueue
  isOpen := isOpen
  channel := fun n ↦ s.channel (n + 1)

/-- `close`. -/
def close (s : WriteCall) : WriteCall := { s with isOpen := false }

/-- One iteration of the `while` loop, and what is behind it. -/
def body (shouldTerminate : Bool) (s : WriteCall) : WriteCall ⊕ WriteReturn :=
  match s.writeQueue with
  | [] => .inr (if shouldTerminate then .close s.close else .setRead s)
  | top :: rest =>
    match s.write 0 with
    | .transfers limit =>
      if top.drop limit ≠ [] then .inr (.hasRemaining (s.goOn (top.drop limit :: rest) s.isOpen))
      else .inl (s.goOn rest s.isOpen)
    | .ioException => .inl (s.goOn (top :: rest) false)

/-- `continueWrite` returns after finitely many iterations. -/
def Returns (shouldTerminate : Bool) (s : WriteCall) : Prop :=
  ∃ r, Loop.Ends (body shouldTerminate) s r

/-- The first `n` buffers are written by one write each. -/
def WritesWhole (s : WriteCall) (n : ℕ) : Prop :=
  ∀ i, ∀ top, i < n → s.writeQueue[i]? = some top →
    ∃ limit, s.write i = .transfers limit ∧ top.length ≤ limit

/-- The write for a buffer that is reached throws. -/
def Fails (s : WriteCall) : Prop :=
  ∃ n, n < s.writeQueue.length ∧ s.WritesWhole n ∧ s.write n = .ioException

end WriteCall

end SplNet
