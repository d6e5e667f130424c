import SplNet.Api.MessageEncoderDecoderImpl
import SplNet.Srv.ActorThreadPool

/-!
# The two read paths

`NonBlockingConnectionHandler.continueRead` with the selector thread before it and the workers of
the pool behind it, for any number of connections: the selector thread leases a buffer, reads into
it and submits a task, or sees the end of the stream; a worker decodes the bytes of the buffer one
by one, gives each message to the protocol, and releases the buffer, also when the decoder throws.
The buffers are shared by all connections.

`handlerRun` is the read path of a thread per client, `ConnectionHandlerImpl.run`: one byte after
the other, until the stream ends or the decoder throws.

`process` returns normally and never asks to terminate, so it has no part in either.
-/

namespace SplNet

open Java

/-- A `ByteBuffer`. -/
abbrev BufferId := ℕ

/-- `BUFFER_ALLOCATION_SIZE`. -/
def bufferAllocationSize : ℕ := 1 <<< 13

/-- The handlers of all connections, the buffers and the pool. -/
structure ReadPath (γ : Type*) where
  pool : ActorThreadPool γ BufferId
  /-- The bytes between the position and the limit of a buffer. -/
  remaining : BufferId → List UInt8
  /-- `BUFFER_POOL`. -/
  bufferPool : List BufferId
  /-- The next buffer that is allocated. -/
  nextBuffer : BufferId
  /-- The call of `continueRead` the selector thread is in, with the buffer it has leased. -/
  reading : Option (γ × BufferId)
  closed : γ → Bool
  encdec : γ → Decoder

/-- The steps. -/
inductive ReadEvent (γ : Type*)
  /-- The selector thread calls `continueRead`, which leases a buffer. -/
  | lease (c : γ)
  /-- `chan.read` has read these bytes, possibly none; the task is submitted. -/
  | read (bytes : List UInt8)
  /-- `chan.read` has returned `-1` or failed. -/
  | endOfStream
  /-- A worker starts the task of a buffer. -/
  | start (c : γ) (buf : BufferId)
  /-- One turn of the loop of the task. -/
  | decode (c : γ) (buf : BufferId)
  /-- The loop is over, and the `finally` clause releases the buffer. -/
  | release (c : γ) (buf : BufferId)
  | complete (c : γ) (buf : BufferId)

/-- What a step has done, for the record. -/
inductive ReadRecord (γ : Type*)
  | received (c : γ) (bytes : List UInt8)
  /-- Bytes are taken from a buffer, and possibly a message is passed to `process`. -/
  | decoded (c : γ) (bytes : List UInt8) (message : Option JString)
  | other

namespace ReadPath

variable {γ : Type*} [DecidableEq γ]

def init : ReadPath γ where
  pool := ActorThreadPool.init
  remaining := fun _ ↦ []
  bufferPool := []
  nextBuffer := 0
  reading := none
  closed := fun _ ↦ false
  encdec := fun _ ↦ Decoder.new

/-- `leaseBuffer`. -/
def leaseBuffer (s : ReadPath γ) : BufferId × ReadPath γ :=
  match s.bufferPool with
  | buf :: rest => (buf, { s with bufferPool := rest })
  | [] => (s.nextBuffer, { s with nextBuffer := s.nextBuffer + 1 })

omit [DecidableEq γ] in
theorem leaseBuffer_of_nil {s : ReadPath γ} (h : s.bufferPool = []) :
    s.leaseBuffer = (s.nextBuffer, { s with nextBuffer := s.nextBuffer + 1 }) := by
  simp only [leaseBuffer, h]

omit [DecidableEq γ] in
theorem leaseBuffer_of_cons {s : ReadPath γ} {buf : BufferId} {rest : List BufferId}
    (h : s.bufferPool = buf :: rest) : s.leaseBuffer = (buf, { s with bufferPool := rest }) := by
  simp only [leaseBuffer, h]

/-- `releaseBuffer`. -/
def releaseBuffer (s : ReadPath γ) (buf : BufferId) : ReadPath γ :=
  { s with bufferPool := s.bufferPool ++ [buf] }

/-- The bytes of a buffer change. -/
def setRemaining (s : ReadPath γ) (buf : BufferId) (bytes : List UInt8) : ReadPath γ :=
  { s with remaining := fun b ↦ if b = buf then bytes else s.remaining b }

/-- The pool makes a step. -/
def inPool (s : ReadPath γ) (workers : ℕ) (e : PoolEvent γ BufferId) : ReadPath γ :=
  { s with pool := (poolStep workers s.pool e).1 }

/-- One turn of the loop of a task. -/
def decodeByte (s : ReadPath γ) (c : γ) (buf : BufferId) : ReadPath γ × ReadRecord γ :=
  match s.remaining buf with
  | [] => (s, .other)
  | b :: rest =>
    match (s.encdec c).decodeNextByte b with
    | some (d, message) =>
      ({ s.setRemaining buf rest with encdec := fun c' ↦ if c' = c then d else s.encdec c' },
        .decoded c [b] message)
    -- an exception: the rest of the buffer is never looked at
    | none => (s.setRemaining buf [], .decoded c (b :: rest) none)

section DecodeByte

variable {s : ReadPath γ} {c : γ} {buf : BufferId}

theorem decodeByte_of_nil (h : s.remaining buf = []) : s.decodeByte c buf = (s, .other) := by
  simp only [decodeByte, h]

theorem decodeByte_of_some {b : UInt8} {rest : List UInt8} (h : s.remaining buf = b :: rest)
    {d : Decoder} {message : Option JString}
    (hdecode : (s.encdec c).decodeNextByte b = some (d, message)) :
    s.decodeByte c buf =
      ({ s.setRemaining buf rest with encdec := fun c' ↦ if c' = c then d else s.encdec c' },
        .decoded c [b] message) := by
  simp only [decodeByte, h, hdecode]

theorem decodeByte_of_none {b : UInt8} {rest : List UInt8} (h : s.remaining buf = b :: rest)
    (hdecode : (s.encdec c).decodeNextByte b = none) :
    s.decodeByte c buf = (s.setRemaining buf [], .decoded c (b :: rest) none) := by
  simp only [decodeByte, h, hdecode]

end DecodeByte

end ReadPath

section Machine

variable {γ : Type*} [DecidableEq γ]

/-- One step, with the given number of workers. -/
def readStep (workers : ℕ) (s : ReadPath γ) : ReadEvent γ → ReadPath γ × ReadRecord γ
  | .lease c =>
    if s.reading = none ∧ s.closed c = false then
      ({ s.leaseBuffer.2 with reading := some (c, s.leaseBuffer.1) }, .other)
    else (s, .other)
  | .read bytes =>
    match s.reading with
    | some (c, buf) =>
      if bytes.length ≤ bufferAllocationSize then
        ({ (s.setRemaining buf bytes).inPool workers (.submit c buf) with reading := none },
          .received c bytes)
      else (s, .other)
    | none => (s, .other)
  | .endOfStream =>
    match s.reading with
    | some (c, buf) =>
      ({ s.releaseBuffer buf with
          reading := none
          closed := fun c' ↦ if c' = c then true else s.closed c' }, .other)
    | none => (s, .other)
  | .start c buf => (s.inPool workers (.start c buf), .other)
  | .decode c buf => if (c, buf) ∈ s.pool.running then s.decodeByte c buf else (s, .other)
  | .release c buf =>
    if (c, buf) ∈ s.pool.running ∧ s.remaining buf = [] then
      ((s.releaseBuffer buf).inPool workers (.finish c buf true), .other)
    else (s, .other)
  | .complete c buf => (s.inPool workers (.complete c buf), .other)

/-- The read path as a machine. -/
def readMachine (γ : Type*) [DecidableEq γ] (workers : ℕ) :
    LabelledMachine (ReadPath γ) (ReadEvent γ) (ReadRecord γ) where
  init := ReadPath.init
  step := readStep workers

end Machine

/-- The messages `ConnectionHandlerImpl.run` passes to `process` for the bytes of a stream. -/
def handlerRun (encdec : Decoder) : List UInt8 → List JString
  | [] => []
  | b :: bytes =>
    match encdec.decodeNextByte b with
    | some (d, message) => message.toList ++ handlerRun d bytes
    -- the exception ends the thread
    | none => []

end SplNet
