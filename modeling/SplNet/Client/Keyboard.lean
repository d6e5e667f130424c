import SplNet.Client.LogoutWait

/-!
# Lines from the keyboard

`readFromKeyBoardThread::run` reads its lines with `cin.getline(buf, bufsize)`. A line that does not
fit into the buffer is cut, and sets the fail bit of the stream; so does the end of the input. From
then on every `getline` leaves an empty line in the buffer and takes nothing from the stream, and
the loop goes on with empty lines, for which `Encoder` has no bytes.

Here the two threads of `LogoutClient` are put together with the stream they read from, and
`getline` is described by what it makes of the pieces between the newlines
(`Stdin.getline_of_good`).
-/

namespace SplNet.Client

def newline : UInt8 := 0x0A

/-- `const short bufsize = 1024`. -/
def bufsize : ℕ := 1024

/-- `std::cin`: what it has still to deliver, and whether it is good. -/
structure Stdin where
  input : List UInt8
  good : Bool
deriving DecidableEq

/-- The loop of `getline` with room for some characters: the characters it stores, and the stream it
leaves. The newline is taken from the stream and not stored. -/
def getlineLoop : ℕ → List UInt8 → List UInt8 × Stdin
  | _, [] => ([], ⟨[], false⟩)
  | 0, c :: cs => if c = newline then ([], ⟨cs, true⟩) else ([], ⟨c :: cs, false⟩)
  | room + 1, c :: cs =>
    if c = newline then ([], ⟨cs, true⟩)
    else (c :: (getlineLoop room cs).1, (getlineLoop room cs).2)

namespace Stdin

/-- `std::cin.getline(buf, bufsize)` and then `std::string line(buf)`, which ends at the first
`\0`. -/
def getline (s : Stdin) : List UInt8 × Stdin :=
  if s.good then
    ((getlineLoop (bufsize - 1) s.input).1.takeWhile (· ≠ 0), (getlineLoop (bufsize - 1) s.input).2)
  else ([], s)

/-- What is between the newlines of a good stream. -/
def pieces (s : Stdin) : List (List UInt8) := if s.good then s.input.splitOn newline else []

end Stdin

/-- The client and its standard input. -/
structure KeyboardClient where
  stdin : Stdin
  client : LogoutClient

/-- What can happen. The lines are not events of their own: the keyboard thread reads them. -/
inductive KeyboardEvent
  | keyboard
  | socket
  | answer (accepted : Bool)
  | sendOther (m : ServerMessage)
    (quiet : m ≠ ServerMessage.logoutAck ∧ m ≠ ServerMessage.logoutError)

/-- The line a step has read, and the bytes it has sent. -/
structure KeyboardRecord where
  lines : List (List UInt8)
  bytes : List UInt8

namespace KeyboardClient

/-- A step of the two threads and the server that reads and sends nothing. -/
def quietly (w : KeyboardClient) (e : LogoutEvent) : KeyboardClient × KeyboardRecord :=
  (⟨w.stdin, (logoutStep w.client e).1⟩, ⟨[], []⟩)

/-- One step. -/
def step (w : KeyboardClient) : KeyboardEvent → KeyboardClient × KeyboardRecord
  | .keyboard =>
    match w.client.keyboard with
    | .getline =>
      (⟨w.stdin.getline.2, (logoutStep w.client (.typed w.stdin.getline.1)).1⟩,
        ⟨[w.stdin.getline.1], []⟩)
    | .sendBytes line => (⟨w.stdin, (logoutStep w.client .keyboard).1⟩, ⟨[], encodedLine line⟩)
    | _ => w.quietly .keyboard
  | .socket => w.quietly .socket
  | .answer accepted => w.quietly (.answer accepted)
  | .sendOther m quiet => w.quietly (.sendOther m quiet)

/-- The line that is read and not yet sent. -/
def unsent (w : KeyboardClient) : List (List UInt8) :=
  match w.client.keyboard with
  | .encoder line => [line]
  | .sendBytes line => [line]
  | _ => []

end KeyboardClient

/-- The client, beginning with this input. -/
def keyboardMachine (input : List UInt8) :
    LabelledMachine KeyboardClient KeyboardEvent KeyboardRecord where
  init := ⟨⟨input, true⟩, .init⟩
  step := KeyboardClient.step

/-! ### `getline` -/

/-- The lines that are typed in these pieces: each one up to its first `\0`. A piece that does not
fit into the buffer is cut, and is the last one. -/
def typedLines : List (List UInt8) → List (List UInt8)
  | [] => []
  | p :: ps =>
    if p.length < bufsize then p.takeWhile (· ≠ 0) :: typedLines ps
    else [(p.take (bufsize - 1)).takeWhile (· ≠ 0)]

/-- `getline` stores the first piece, or as much of it as there is room for, and then fails. -/
theorem getlineLoop_spec (room : ℕ) {input p : List UInt8} {ps : List (List UInt8)}
    (h : input.splitOn newline = p :: ps) :
    (getlineLoop room input).1 = p.take room ∧
      (p.length ≤ room → (getlineLoop room input).2.pieces = ps) ∧
      (room < p.length → (getlineLoop room input).2.good = false) := by
  induction input generalizing room p with
  | nil =>
    obtain ⟨rfl, rfl⟩ := List.cons.inj ((List.splitOn_nil newline).symm.trans h)
    refine ⟨?_, fun _ ↦ ?_, fun hlt ↦ absurd hlt (Nat.not_lt_zero _)⟩
    · rw [getlineLoop, List.take_nil]
    · rw [getlineLoop]
      rfl
  | cons c cs ih =>
    rw [List.splitOn_cons_eq_if_modifyHead] at h
    rcases eq_or_ne c newline with rfl | hc
    · rw [if_pos (beq_self_eq_true newline)] at h
      obtain ⟨rfl, rfl⟩ := List.cons.inj h
      have hloop : getlineLoop room (newline :: cs) = ([], ⟨cs, true⟩) := by
        cases room <;> exact if_pos rfl
      rw [hloop]
      exact ⟨List.take_nil.symm, fun _ ↦ rfl, fun hlt ↦ absurd hlt (Nat.not_lt_zero _)⟩
    · rw [if_neg (by simpa using hc)] at h
      rcases hpieces : cs.splitOn newline with - | ⟨q, qs⟩
      · exact absurd hpieces (List.splitOn_ne_nil newline cs)
      rw [hpieces] at h
      obtain ⟨rfl, rfl⟩ := List.cons.inj h
      cases room with
      | zero =>
        rw [getlineLoop, if_neg hc]
        exact ⟨rfl, fun hle ↦ absurd hle (Nat.not_succ_le_zero _), fun _ ↦ rfl⟩
      | succ room =>
        obtain ⟨hstored, hfits, hcut⟩ := ih room hpieces
        rw [getlineLoop, if_neg hc]
        refine ⟨?_, fun hle ↦ hfits (Nat.le_of_succ_le_succ hle),
          fun hlt ↦ hcut (Nat.lt_of_succ_lt_succ hlt)⟩
        rw [hstored]
        rfl

namespace Stdin

variable {s : Stdin}

theorem typedLines_of_not_good (h : s.good = false) : typedLines s.pieces = [] := by
  rw [pieces, h]
  rfl

/-- A stream that is not good gives empty lines for ever. -/
theorem getline_of_not_good (h : s.good = false) : s.getline = ([], s) := by
  rw [getline, h]
  rfl

/-- **A good stream gives the first typed line**, and leaves the others. -/
theorem getline_of_good (h : s.good = true) :
    typedLines s.pieces = s.getline.1 :: typedLines s.getline.2.pieces := by
  rcases hpieces : s.input.splitOn newline with - | ⟨p, ps⟩
  · exact absurd hpieces (List.splitOn_ne_nil newline s.input)
  obtain ⟨hstored, hfits, hcut⟩ := getlineLoop_spec (bufsize - 1) hpieces
  rw [pieces, getline, if_pos h, if_pos h, hpieces, typedLines]
  show _ = (getlineLoop (bufsize - 1) s.input).1.takeWhile (· ≠ 0) ::
    typedLines (getlineLoop (bufsize - 1) s.input).2.pieces
  rw [hstored]
  split
  case isTrue hlt =>
    have hle : p.length ≤ bufsize - 1 := Nat.le_sub_one_of_lt hlt
    rw [List.take_of_length_le hle, hfits hle]
  case isFalse hge =>
    have hlt : bufsize - 1 < p.length :=
      Nat.lt_of_lt_of_le (by decide) (Nat.not_lt.1 hge)
    rw [typedLines_of_not_good (hcut hlt)]

end Stdin

end SplNet.Client
