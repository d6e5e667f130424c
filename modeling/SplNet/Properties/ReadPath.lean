import SplNet.Foundations.Ownership
import SplNet.Properties.ActorPool
import SplNet.Srv.ReadPath

/-!
# The reactor reads like a thread per client

**A buffer is in one place at a time**: in `BUFFER_POOL`, in the hands of the selector thread, or
with one task that has not ended (`ReadInvariant.exclusive`). So what a task finds in its buffer is
what was read for it, and with the order the pool keeps, the bytes of a connection are decoded in
the order in which they came (`ReadStep.bytes`). One decoder sees them all, as in a thread of its
own.
-/

namespace SplNet

open LabelledMachine

/-- Where a buffer can be. -/
inductive BufferPlace (γ : Type*)
  | pool
  | selector
  /-- With the unfinished tasks of a connection. -/
  | tasks (c : γ)
deriving DecidableEq

section Records

variable {γ : Type*} [DecidableEq γ]

namespace ReadRecord

/-- The bytes the record says were read from the connection. -/
def receivedOf (c : γ) : ReadRecord γ → List UInt8
  | .received c' bytes => if c' = c then bytes else []
  | _ => []

/-- The bytes taken from the buffers of the connection. -/
def consumedOf (c : γ) : ReadRecord γ → List UInt8
  | .decoded c' bytes _ => if c' = c then bytes else []
  | _ => []

/-- The message passed to the protocol of the connection. -/
def processedOf (c : γ) : ReadRecord γ → List JString
  | .decoded c' _ message => if c' = c then message.toList else []
  | _ => []

end ReadRecord

namespace ReadPath

variable (s : ReadPath γ)

/-- The buffers in a place. -/
def holds : BufferPlace γ → List BufferId
  | .pool => s.bufferPool
  | .selector => (s.reading.map Prod.snd).toList
  | .tasks c => s.pool.unfinished c

/-- The bytes of a connection that have been read and not decoded. -/
def pendingBytes (c : γ) : List UInt8 := (s.pool.unfinished c).flatMap s.remaining

end ReadPath

/-- **The invariant.** -/
structure ReadInvariant (s : ReadPath γ) : Prop where
  pool : ∀ c, PoolInvariant s.pool c
  exclusive : Exclusive s.holds
  allocated : ∀ p, ∀ buf ∈ s.holds p, buf < s.nextBuffer

/-- What a step does: it keeps the invariant, the bytes of every connection come in at the end and
are taken out at the front, and its decoder decodes what is taken out. -/
structure ReadStep (s : ReadPath γ) (x : ReadPath γ × ReadRecord γ) : Prop where
  invariant : ReadInvariant x.1
  bytes : ∀ c, s.pendingBytes c ++ x.2.receivedOf c = x.2.consumedOf c ++ x.1.pendingBytes c
  decoded : ∀ c d ms, (s.encdec c).decodeBytes (x.2.consumedOf c) = some (d, ms) →
    x.1.encdec c = d ∧ x.2.processedOf c = ms

end Records

section Steps

variable {γ : Type*} [DecidableEq γ] {s : ReadPath γ} {workers : ℕ}

/-- A step that no connection notices. -/
theorem ReadStep.of_quiet {s' : ReadPath γ} (hinv : ReadInvariant s')
    (hencdec : s'.encdec = s.encdec) (hpending : ∀ c, s'.pendingBytes c = s.pendingBytes c) :
    ReadStep s (s', .other) where
  invariant := hinv
  bytes c := by
    rw [hpending]
    exact List.append_nil _
  decoded c d ms h := by
    obtain ⟨rfl, rfl⟩ := Prod.mk.inj (Option.some.inj h)
    exact ⟨congrFun hencdec c, rfl⟩

/-- Bytes in a buffer of nobody are nobody's bytes. -/
theorem pendingBytes_setRemaining {buf : BufferId} {c : γ} (h : buf ∉ s.pool.unfinished c)
    (bytes : List UInt8) : (s.setRemaining buf bytes).pendingBytes c = s.pendingBytes c := by
  refine List.flatMap_congr fun b hb ↦ if_neg ?_
  rintro rfl
  exact h hb

/-- A running task is the first unfinished one. -/
theorem unfinished_of_running (h : ReadInvariant s) {c : γ} {buf : BufferId}
    (hrunning : (c, buf) ∈ s.pool.running) :
    s.pool.unfinished c = buf :: s.pool.notStarted c := by
  have hlen := (h.pool c).length_le
  obtain ⟨htasks, -⟩ := tasksOf_erase_self hrunning (by omega)
  rw [ActorThreadPool.unfinished, htasks, List.singleton_append]

/-- What the pool does with its tasks, apart from submitting and finishing, moves no buffer. -/
theorem inPool_step (h : ReadInvariant s) {e : PoolEvent γ BufferId}
    (hunfinished : ∀ c, (poolStep workers s.pool e).1.unfinished c = s.pool.unfinished c) :
    ReadStep s (s.inPool workers e, .other) := by
  have hholds : (s.inPool workers e).holds = s.holds := by
    funext p
    cases p with
    | pool => rfl
    | selector => rfl
    | tasks c => exact hunfinished c
  refine .of_quiet ⟨fun c ↦ (poolStep_spec (h.pool c) e).invariant, ?_, ?_⟩ rfl fun c ↦ ?_
  · rw [hholds]
    exact h.exclusive
  · rw [hholds]
    exact h.allocated
  · exact congrArg (List.flatMap s.remaining) (hunfinished c)

/-- A step that hands a buffer over keeps the invariant. -/
theorem ReadInvariant.move {s' : ReadPath γ} (h : ReadInvariant s) (p q : BufferPlace γ)
    (buf : BufferId) (hpool : ∀ c, PoolInvariant s'.pool c) (hnext : s'.nextBuffer = s.nextBuffer)
    (hmove : HandedOver s.holds s'.holds p q buf) :
    ReadInvariant s' where
  pool := hpool
  exclusive := h.exclusive.move hmove
  allocated r b hb := by
    obtain ⟨r', hr'⟩ := hmove.exists_mem hb
    rw [hnext]
    exact h.allocated r' b hr'

theorem lease_step (h : ReadInvariant s) (hreading : s.reading = none) (c : γ) :
    ReadStep s ({ s.leaseBuffer.2 with reading := some (c, s.leaseBuffer.1) }, .other) := by
  have hselector : s.holds .selector = [] := by rw [ReadPath.holds, hreading]; rfl
  rcases hpool : s.bufferPool with - | ⟨buf, rest⟩
  · -- a new buffer
    rw [ReadPath.leaseBuffer_of_nil hpool]
    have hnew : ∀ p, s.nextBuffer ∉ s.holds p := fun p hp ↦ Nat.lt_irrefl _ (h.allocated p _ hp)
    have hput : PutInto s.holds (ReadPath.holds { s with
        nextBuffer := s.nextBuffer + 1, reading := some (c, s.nextBuffer) }) .selector
          s.nextBuffer := by
      refine ⟨?_, fun p hp ↦ ?_⟩
      · rw [hselector]
        exact List.Perm.refl _
      · cases p with
        | pool => rfl
        | selector => exact absurd rfl hp
        | tasks c => rfl
    refine .of_quiet ⟨h.pool, h.exclusive.add hput hnew, fun p b hb ↦ ?_⟩ rfl fun c ↦ rfl
    rcases hput.mem hb with hb | ⟨rfl, -⟩
    · exact Nat.lt_succ_of_lt (h.allocated p b hb)
    · exact Nat.lt_succ_self _
  · rw [ReadPath.leaseBuffer_of_cons hpool]
    refine .of_quiet (h.move .pool .selector buf h.pool rfl ⟨nofun, ?_, ?_,
      fun p hp hp' ↦ ?_⟩) rfl fun c ↦ rfl
    · show s.bufferPool.Perm (buf :: rest)
      rw [hpool]
    · rw [hselector]
      exact List.Perm.refl _
    · cases p with
      | pool => exact absurd rfl hp
      | selector => exact absurd rfl hp'
      | tasks c => rfl

theorem read_step (h : ReadInvariant s) {c : γ} {buf : BufferId}
    (hreading : s.reading = some (c, buf))
    (bytes : List UInt8) :
    ReadStep s ({ (s.setRemaining buf bytes).inPool workers (.submit c buf) with reading := none },
      .received c bytes) := by
  have hselector : s.holds .selector = [buf] := by rw [ReadPath.holds, hreading]; rfl
  have hnotMem : ∀ c', buf ∉ s.pool.unfinished c' := by
    intro c' hmem
    have hplace : BufferPlace.selector = .tasks c' :=
      h.exclusive.place_unique (by rw [hselector]; exact List.mem_cons_self) hmem
    nomatch hplace
  have hunfinished : ∀ c', (poolStep workers s.pool (.submit c buf)).1.unfinished c' =
      s.pool.unfinished c' ++ if c = c' then [buf] else [] :=
    fun c' ↦ unfinished_submit (h.pool c') c buf
  constructor
  · refine h.move .selector (.tasks c) buf
      (fun c' ↦ (poolStep_spec (h.pool c') _).invariant) rfl ⟨nofun, ?_, ?_, fun p hp hp' ↦ ?_⟩
    · rw [hselector]
      exact List.Perm.refl _
    · show ((poolStep workers s.pool (.submit c buf)).1.unfinished c).Perm _
      rw [hunfinished, if_pos rfl]
      exact List.perm_append_singleton _ _
    · cases p with
      | pool => rfl
      | selector => exact absurd rfl hp
      | tasks c' =>
        show (poolStep workers s.pool (.submit c buf)).1.unfinished c' = _
        have hne : c ≠ c' := fun heq ↦ hp' (congrArg _ heq.symm)
        rw [hunfinished, if_neg hne, List.append_nil]
        rfl
  · intro c'
    show s.pendingBytes c' ++ (if c = c' then bytes else []) =
      [] ++ ((poolStep workers s.pool (.submit c buf)).1.unfinished c').flatMap
        (s.setRemaining buf bytes).remaining
    rw [hunfinished, List.flatMap_append, List.nil_append,
      ← pendingBytes_setRemaining (hnotMem c') bytes]
    refine congrArg _ ?_
    split
    · rw [List.flatMap_singleton]
      exact (if_pos rfl).symm
    · rfl
  · intro c' d ms hdecode
    obtain ⟨rfl, rfl⟩ := Prod.mk.inj (Option.some.inj hdecode)
    exact ⟨rfl, rfl⟩

theorem endOfStream_step (h : ReadInvariant s) {c : γ} {buf : BufferId}
    (hreading : s.reading = some (c, buf)) :
    ReadStep s ({ s.releaseBuffer buf with
      reading := none
      closed := fun c' ↦ if c' = c then true else s.closed c' }, .other) := by
  have hselector : s.holds .selector = [buf] := by rw [ReadPath.holds, hreading]; rfl
  refine .of_quiet (h.move .selector .pool buf h.pool rfl ⟨nofun, ?_, ?_,
    fun p hp hp' ↦ ?_⟩) rfl fun c ↦ rfl
  · rw [hselector]
    exact List.Perm.refl _
  · exact List.perm_append_singleton _ _
  · cases p with
    | pool => exact absurd rfl hp'
    | selector => exact absurd rfl hp
    | tasks c => rfl

theorem release_step (h : ReadInvariant s) {c : γ} {buf : BufferId}
    (hrunning : (c, buf) ∈ s.pool.running) (hempty : s.remaining buf = []) :
    ReadStep s ((s.releaseBuffer buf).inPool workers (.finish c buf true), .other) := by
  have hunfinished : ∀ c', s.pool.unfinished c' = (if c = c' then [buf] else []) ++
      (poolStep workers s.pool (.finish c buf true)).1.unfinished c' :=
    fun c' ↦ unfinished_finish (h.pool c') hrunning true
  refine .of_quiet (h.move (.tasks c) .pool buf
    (fun c' ↦ (poolStep_spec (h.pool c') _).invariant) rfl ⟨nofun, ?_, ?_, fun p hp hp' ↦ ?_⟩)
    rfl fun c' ↦ ?_
  · show (s.pool.unfinished c).Perm _
    rw [hunfinished, if_pos rfl]
    exact List.Perm.refl _
  · exact List.perm_append_singleton _ _
  · cases p with
    | pool => exact absurd rfl hp'
    | selector => rfl
    | tasks c' =>
      show _ = s.pool.unfinished c'
      have hne : c ≠ c' := fun heq ↦ hp (congrArg _ heq.symm)
      rw [hunfinished c', if_neg hne]
      rfl
  · -- the buffer has no bytes left
    have htask : (if c = c' then [buf] else []).flatMap s.remaining = [] := by
      split
      · rw [List.flatMap_singleton, hempty]
      · rfl
    rw [ReadPath.pendingBytes, ReadPath.pendingBytes, hunfinished c', List.flatMap_append, htask,
      List.nil_append]
    rfl

/-- Bytes leave the front of the buffer of a running task. -/
theorem pendingBytes_of_running (h : ReadInvariant s) {c : γ} {buf : BufferId}
    (hrunning : (c, buf) ∈ s.pool.running) {taken rest : List UInt8}
    (hbytes : s.remaining buf = taken ++ rest) (c' : γ) :
    s.pendingBytes c' = (if c = c' then taken else []) ++
      (s.setRemaining buf rest).pendingBytes c' := by
  have hfirst := unfinished_of_running h hrunning
  have hmem : buf ∈ s.pool.unfinished c := hfirst ▸ List.mem_cons_self
  rcases eq_or_ne c c' with rfl | hne
  · have hnotMem : buf ∉ s.pool.notStarted c := by
      have hnodup : (s.pool.unfinished c).Nodup := h.exclusive.nodup (.tasks c)
      rw [hfirst, List.nodup_cons] at hnodup
      exact hnodup.1
    have hlater : (s.pool.notStarted c).flatMap (s.setRemaining buf rest).remaining =
        (s.pool.notStarted c).flatMap s.remaining := by
      refine List.flatMap_congr fun b hb ↦ if_neg ?_
      rintro rfl
      exact hnotMem hb
    have hself : (s.setRemaining buf rest).remaining buf = rest := if_pos rfl
    rw [if_pos rfl, ReadPath.pendingBytes, ReadPath.pendingBytes, hfirst, List.flatMap_cons, hbytes]
    show _ = taken ++ (s.pool.unfinished c).flatMap (s.setRemaining buf rest).remaining
    rw [hfirst, List.flatMap_cons, hself, hlater, List.append_assoc]
  · have hnotMem : buf ∉ s.pool.unfinished c' := by
      intro hmem'
      have hplace : BufferPlace.tasks c = .tasks c' := h.exclusive.place_unique hmem hmem'
      exact hne (BufferPlace.tasks.inj hplace)
    rw [if_neg hne, List.nil_append, pendingBytes_setRemaining hnotMem]

/-- A task takes bytes from its buffer. -/
theorem taken_step (h : ReadInvariant s) {c : γ} {buf : BufferId}
    (hrunning : (c, buf) ∈ s.pool.running) (taken : List UInt8) {rest : List UInt8}
    (hbytes : s.remaining buf = taken ++ rest) (encdec : γ → Decoder) {message : Option JString}
    (hother : ∀ c', c ≠ c' → encdec c' = s.encdec c')
    (hdecode : ∀ d ms, (s.encdec c).decodeBytes taken = some (d, ms) →
      encdec c = d ∧ message.toList = ms) :
    ReadStep s ({ s.setRemaining buf rest with encdec := encdec }, .decoded c taken message) where
  invariant := ⟨h.pool, h.exclusive, h.allocated⟩
  bytes c' := by
    show s.pendingBytes c' ++ [] = (if c = c' then taken else []) ++
      (s.setRemaining buf rest).pendingBytes c'
    rw [List.append_nil]
    exact pendingBytes_of_running h hrunning hbytes c'
  decoded c' d ms hsome := by
    rcases eq_or_ne c c' with rfl | hne
    · have hconsumed : (ReadRecord.decoded c taken message).consumedOf c = taken := if_pos rfl
      have hprocessed : (ReadRecord.decoded c taken message).processedOf c = message.toList :=
        if_pos rfl
      rw [hconsumed] at hsome
      rw [hprocessed]
      exact hdecode d ms hsome
    · have hconsumed : (ReadRecord.decoded c taken message).consumedOf c' = [] := if_neg hne
      rw [hconsumed] at hsome
      obtain ⟨rfl, rfl⟩ := Prod.mk.inj (Option.some.inj hsome)
      exact ⟨hother c' hne, if_neg hne⟩

theorem decode_step (h : ReadInvariant s) {c : γ} {buf : BufferId}
    (hrunning : (c, buf) ∈ s.pool.running) : ReadStep s (s.decodeByte c buf) := by
  rcases hremaining : s.remaining buf with - | ⟨b, rest⟩
  · rw [ReadPath.decodeByte_of_nil hremaining]
    exact .of_quiet h rfl fun _ ↦ rfl
  rcases hdecode : (s.encdec c).decodeNextByte b with - | ⟨d, message⟩
  · -- an exception: the whole rest is taken
    rw [ReadPath.decodeByte_of_none hremaining hdecode]
    refine taken_step h hrunning _ (by rw [hremaining, List.append_nil]) s.encdec
      (fun _ _ ↦ rfl) fun d ms hsome ↦ ?_
    rw [Decoder.decodeBytes, hdecode] at hsome
    exact absurd hsome (by simp)
  · rw [ReadPath.decodeByte_of_some hremaining hdecode]
    refine taken_step h hrunning [b] hremaining _ (fun c' hne ↦ if_neg hne.symm)
      fun d' ms hsome ↦ ?_
    rw [Decoder.decodeBytes_singleton hdecode] at hsome
    obtain ⟨rfl, rfl⟩ := Prod.mk.inj (Option.some.inj hsome)
    exact ⟨if_pos rfl, rfl⟩

/-- **The step lemma.** -/
theorem readStep_spec (h : ReadInvariant s) (e : ReadEvent γ) :
    ReadStep s (readStep workers s e) := by
  have hidle : ReadStep s (s, .other) := .of_quiet h rfl fun _ ↦ rfl
  cases e with
  | lease c =>
    rw [readStep]
    split
    case isTrue hcond => exact lease_step h hcond.1 c
    case isFalse => exact hidle
  | read bytes =>
    rw [readStep]
    split
    case h_1 c buf hreading =>
      split
      · exact read_step h hreading bytes
      · exact hidle
    case h_2 => exact hidle
  | endOfStream =>
    rw [readStep]
    split
    case h_1 c buf hreading => exact endOfStream_step h hreading
    case h_2 => exact hidle
  | start c buf => exact inPool_step h fun c' ↦ unfinished_start (h.pool c') c buf
  | decode c buf =>
    rw [readStep]
    split
    case isTrue hrunning => exact decode_step h hrunning
    case isFalse => exact hidle
  | release c buf =>
    rw [readStep]
    split
    case isTrue hcond => exact release_step h hcond.1 hcond.2
    case isFalse => exact hidle
  | complete c buf => exact inPool_step h fun c' ↦ unfinished_complete (h.pool c') c buf

end Steps

/-! ### All runs -/

section Runs

variable {γ : Type*} [DecidableEq γ]

theorem readInvariant_init : ReadInvariant (ReadPath.init : ReadPath γ) where
  pool _ := poolInvariant_init
  exclusive := by
    have hholds : (ReadPath.init : ReadPath γ).holds = fun _ ↦ [] := by
      funext p
      cases p <;> rfl
    rw [hholds]
    exact Exclusive.empty
  allocated p buf hbuf := by cases p <;> exact absurd hbuf List.not_mem_nil

theorem readInvariant_of_reachable {workers : ℕ} {s : ReadPath γ}
    (h : (readMachine γ workers).Reachable s) : ReadInvariant s := by
  refine h.invariant (P := ReadInvariant) readInvariant_init fun s e _ hs ↦ ?_
  exact (readStep_spec hs e).invariant

variable (workers : ℕ) (es : List (ReadEvent γ)) (c : γ)

/-- The bytes read from a connection in a run. -/
def receivedBytes : List UInt8 :=
  ((readMachine γ workers).outputs es).flatMap (ReadRecord.receivedOf c)

/-- The bytes taken from its buffers. -/
def consumedBytes : List UInt8 :=
  ((readMachine γ workers).outputs es).flatMap (ReadRecord.consumedOf c)

/-- The messages passed to its protocol. -/
def processedMessages : List JString :=
  ((readMachine γ workers).outputs es).flatMap (ReadRecord.processedOf c)

/-- Every byte is decoded, or still in a buffer of an unfinished task. -/
theorem receivedBytes_eq :
    receivedBytes workers es c =
      consumedBytes workers es c ++ ((readMachine γ workers).stateAfter es).pendingBytes c :=
  fifo_accounted (M := readMachine γ workers) (f := (·.pendingBytes c)) rfl
    (fun _ e hs ↦ (readStep_spec (readInvariant_of_reachable hs) e).bytes c) es

/-- One decoder has seen all bytes. -/
theorem decoded_run {d : Decoder} {ms : List JString}
    (h : Decoder.new.decodeBytes (consumedBytes workers es c) = some (d, ms)) :
    ((readMachine γ workers).stateAfter es).encdec c = d ∧ processedMessages workers es c = ms := by
  induction es using List.reverseRecOn generalizing d ms with
  | nil =>
    obtain ⟨rfl, rfl⟩ := Prod.mk.inj (Option.some.inj h)
    exact ⟨rfl, rfl⟩
  | append_singleton es e ih =>
    rw [consumedBytes, outputs_concat, List.flatMap_append, List.flatMap_singleton] at h
    obtain ⟨d₁, ms₁, ms₂, hbefore, hlast, rfl⟩ := Decoder.exists_decodeBytes_append h
    obtain ⟨rfl, hprocessed⟩ := ih hbefore
    have hinv := readInvariant_of_reachable ((readMachine γ workers).reachable_stateAfter es)
    have hstep : ReadStep _ (readStep workers _ e) := readStep_spec hinv e
    obtain ⟨hencdec, hmessages⟩ := hstep.decoded c d ms₂ hlast
    rw [stateAfter_concat, processedMessages, outputs_concat, List.flatMap_append,
      List.flatMap_singleton]
    exact ⟨hencdec, congrArg₂ _ hprocessed hmessages⟩

/-- What `run` does with bytes that can be decoded. -/
theorem handlerRun_append {d d' : Decoder} {xs : List UInt8} {ms : List JString}
    (h : d.decodeBytes xs = some (d', ms)) (ys : List UInt8) :
    handlerRun d (xs ++ ys) = ms ++ handlerRun d' ys := by
  induction xs generalizing d ms with
  | nil =>
    obtain ⟨rfl, rfl⟩ := Prod.mk.inj (Option.some.inj h)
    rfl
  | cons b xs ih =>
    obtain ⟨d₁, message, ms', hb, hrest, rfl⟩ := Decoder.decodeBytes_cons_eq_some h
    simp only [List.cons_append, handlerRun, hb, ih hrest, List.append_assoc]

/-- The connection is read as by a thread of its own, seen after the steps `es`: the messages passed
to the protocol are the first ones `run` passes for the bytes that were read, and all of them once
no task is left. -/
structure ReadsLikeRun : Prop where
  in_order : processedMessages workers es c <+: handlerRun Decoder.new (receivedBytes workers es c)
  complete : ((readMachine γ workers).stateAfter es).pool.unfinished c = [] →
    processedMessages workers es c = handlerRun Decoder.new (receivedBytes workers es c)

/-- What holds of the read path of the reactor after the steps `es`. -/
structure ReadPathCorrect : Prop where
  /-- No buffer is with two unfinished tasks, or with one and in `BUFFER_POOL`. -/
  exclusive : Exclusive ((readMachine γ workers).stateAfter es).holds
  /-- A stream without a frame over the limit is read like by a thread per client. -/
  messages : ∀ c, Decoder.FramesFit (receivedBytes workers es c) → ReadsLikeRun workers es c

/-- **The reactor reads like a thread per client**, for any number of connections and workers, any
reads and any interleaving. -/
theorem reactor_reads_like_run : ReadPathCorrect workers es where
  exclusive :=
    (readInvariant_of_reachable ((readMachine γ workers).reachable_stateAfter es)).exclusive
  messages c hfit := by
    have haccounted := receivedBytes_eq workers es c
    obtain ⟨d, ms, hdecode⟩ := Decoder.decodeBytes_of_framesFit hfit
    rw [haccounted] at hdecode
    obtain ⟨d', ms', -, hconsumed, -, -⟩ := Decoder.exists_decodeBytes_append hdecode
    obtain ⟨-, hprocessed⟩ := decoded_run workers es c hconsumed
    have hrun := handlerRun_append hconsumed
      (((readMachine γ workers).stateAfter es).pendingBytes c)
    rw [← haccounted] at hrun
    constructor
    · rw [hprocessed, hrun]
      exact List.prefix_append _ _
    · intro hunfinished
      rw [hprocessed, hrun, ReadPath.pendingBytes, hunfinished]
      exact (List.append_nil _).symm

end Runs

/-! ### A frame over the limit -/

section LongFrame

/-- The messages of one task, and the decoder behind it: an exception ends the task only. -/
def runTask (d : Decoder) : List UInt8 → Decoder × List JString
  | [] => (d, [])
  | b :: bytes =>
    match d.decodeNextByte b with
    | some (d', message) => ((runTask d' bytes).1, message.toList ++ (runTask d' bytes).2)
    | none => (d, [])

/-- One connection and one worker; the only buffer has these bytes. -/
def withBuffer (d : Decoder) (bytes : List UInt8) : ReadPath Unit :=
  { ReadPath.init with
    remaining := fun b ↦ if b = 0 then bytes else []
    nextBuffer := 1
    encdec := fun _ ↦ d }

/-- Between two reads. -/
def resting (d : Decoder) : ReadPath Unit := { withBuffer d [] with bufferPool := [0] }

/-- The worker is in the task of the buffer. -/
def working (d : Decoder) (bytes : List UInt8) : ReadPath Unit :=
  { withBuffer d bytes with pool := ⟨fun _ ↦ [], [()], [], [((), 0)], []⟩ }

/-- The events lead from one state to another, with these bytes read and these messages passed
on. -/
structure Leads (s : ReadPath Unit) (es : List (ReadEvent Unit)) (s' : ReadPath Unit)
    (bytes : List UInt8) (messages : List JString) : Prop where
  state : es.foldl (readMachine Unit 1).next s = s'
  received : ((readMachine Unit 1).outputsFrom s es).flatMap (ReadRecord.receivedOf ()) = bytes
  processed :
    ((readMachine Unit 1).outputsFrom s es).flatMap (ReadRecord.processedOf ()) = messages

section Leads

variable {s s' s'' : ReadPath Unit} {es es' : List (ReadEvent Unit)} {bytes bytes' : List UInt8}
  {messages messages' : List JString}

theorem Leads.refl (s : ReadPath Unit) : Leads s [] s [] [] := ⟨rfl, rfl, rfl⟩

theorem Leads.append (h : Leads s es s' bytes messages) (h' : Leads s' es' s'' bytes' messages') :
    Leads s (es ++ es') s'' (bytes ++ bytes') (messages ++ messages') := by
  constructor
  · rw [List.foldl_append, h.state, h'.state]
  · rw [outputsFrom_append, List.flatMap_append, h.received, h.state, h'.received]
  · rw [outputsFrom_append, List.flatMap_append, h.processed, h.state, h'.processed]

theorem Leads.single {e : ReadEvent Unit} {r : ReadRecord Unit} (h : readStep 1 s e = (s', r)) :
    Leads s [e] s' (r.receivedOf ()) (r.processedOf ()) := by
  have hnext : (readMachine Unit 1).next s e = s' := congrArg Prod.fst h
  have houtput : (readMachine Unit 1).output s e = r := congrArg Prod.snd h
  refine ⟨hnext, ?_, ?_⟩
  · rw [outputsFrom, outputsFrom, houtput, List.flatMap_singleton]
  · rw [outputsFrom, outputsFrom, houtput, List.flatMap_singleton]

end Leads

theorem setRemaining_working (d : Decoder) (bytes rest : List UInt8) :
    (working d bytes).setRemaining 0 rest = working d rest := by
  have hremaining : (fun b : BufferId ↦ if b = 0 then rest else if b = 0 then bytes else []) =
      fun b ↦ if b = 0 then rest else [] := by
    funext b
    split <;> rfl
  exact congrArg (fun f ↦ { working d rest with remaining := f }) hremaining

/-- The turns of the loop of one task. -/
theorem leads_decode (d : Decoder) {bytes : List UInt8} {n : ℕ} (hn : bytes.length ≤ n) :
    Leads (working d bytes) (List.replicate n (.decode () 0)) (working (runTask d bytes).1 [])
      [] (runTask d bytes).2 := by
  have hrunning : ∀ d bytes, readStep 1 (working d bytes) (.decode () 0) =
      (working d bytes).decodeByte () 0 := by
    intro d bytes
    rw [readStep, if_pos]
    show ((), 0) ∈ [((), 0)]
    exact List.mem_cons_self
  induction n generalizing d bytes with
  | zero =>
    obtain rfl := List.eq_nil_of_length_eq_zero (Nat.le_zero.1 hn)
    exact .refl _
  | succ n ih =>
    rw [List.replicate_succ]
    rcases bytes with - | ⟨b, bytes⟩
    · have hstep : readStep 1 (working d []) (.decode () 0) = (working d [], .other) := by
        rw [hrunning]
        exact ReadPath.decodeByte_of_nil rfl
      exact (Leads.single hstep).append (ih d (Nat.zero_le n))
    · rw [List.length_cons, Nat.succ_le_succ_iff] at hn
      rcases hdecode : d.decodeNextByte b with - | ⟨d', message⟩
      · -- the exception empties the buffer
        have hstep : readStep 1 (working d (b :: bytes)) (.decode () 0) =
            (working d [], .decoded () (b :: bytes) none) := by
          rw [hrunning, ReadPath.decodeByte_of_none rfl hdecode, setRemaining_working]
        have htask : runTask d (b :: bytes) = (d, []) := by simp only [runTask, hdecode]
        rw [htask]
        exact (Leads.single hstep).append (ih d (Nat.zero_le n))
      · have hstep : readStep 1 (working d (b :: bytes)) (.decode () 0) =
            (working d' bytes, .decoded () [b] message) := by
          rw [hrunning, ReadPath.decodeByte_of_some rfl hdecode, setRemaining_working]
          rfl
        have htask : runTask d (b :: bytes) =
            ((runTask d' bytes).1, message.toList ++ (runTask d' bytes).2) := by
          simp only [runTask, hdecode]
        rw [htask]
        exact (Leads.single hstep).append (ih d' hn)

/-- One read and its task. -/
def readEvents (bytes : List UInt8) : List (ReadEvent Unit) :=
  [.lease (), .read bytes, .start () 0] ++ List.replicate bytes.length (.decode () 0) ++
    [.release () 0, .complete () 0]

theorem leads_readEvents (d : Decoder) (bytes : List UInt8)
    (hlen : bytes.length ≤ bufferAllocationSize) :
    Leads (resting d) (readEvents bytes) (resting (runTask d bytes).1) bytes
      (runTask d bytes).2 := by
  have hlease : readStep 1 (resting d) (.lease ()) =
      ({ withBuffer d [] with reading := some ((), 0) }, .other) := rfl
  have hread : readStep 1 { withBuffer d [] with reading := some ((), 0) } (.read bytes) =
      ({ withBuffer d bytes with pool := ⟨fun _ ↦ [], [()], [((), 0)], [], []⟩ },
        .received () bytes) := by
    have hbuffer := congrArg ReadPath.remaining (setRemaining_working d [] bytes)
    simp only [readStep, if_pos hlen]
    refine Prod.ext ?_ rfl
    exact congrArg (fun f ↦ { withBuffer d bytes with
      pool := ⟨fun _ ↦ [], [()], [((), 0)], [], []⟩, remaining := f }) hbuffer
  have hstart : readStep 1 { withBuffer d bytes with pool := ⟨fun _ ↦ [], [()], [((), 0)], [], []⟩ }
      (.start () 0) = (working d bytes, .other) := rfl
  have hrelease : readStep 1 (working (runTask d bytes).1 []) (.release () 0) =
      ({ withBuffer (runTask d bytes).1 [] with
          pool := ⟨fun _ ↦ [], [()], [], [], [((), 0)]⟩, bufferPool := [0] }, .other) := rfl
  have hcomplete : readStep 1 { withBuffer (runTask d bytes).1 [] with
      pool := ⟨fun _ ↦ [], [()], [], [], [((), 0)]⟩, bufferPool := [0] } (.complete () 0) =
        (resting (runTask d bytes).1, .other) := rfl
  have hbefore := ((Leads.single hlease).append (Leads.single hread)).append (Leads.single hstart)
  have hafter := (Leads.single hrelease).append (Leads.single hcomplete)
  have hall := (hbefore.append (leads_decode d le_rfl)).append hafter
  simpa [readEvents, ReadRecord.receivedOf, ReadRecord.processedOf] using hall

theorem runTask_of_decodeBytes {d d' : Decoder} {bytes : List UInt8} {ms : List JString}
    (h : d.decodeBytes bytes = some (d', ms)) : runTask d bytes = (d', ms) := by
  induction bytes generalizing d ms with
  | nil => exact Option.some.inj h
  | cons b bytes ih =>
    obtain ⟨d₁, message, ms', hb, hrest, rfl⟩ := Decoder.decodeBytes_cons_eq_some h
    simp only [runTask, hb, ih hrest]

/-- Letters that fit are read without a message. -/
theorem leads_letters {k : ℕ} (hk : k ≤ bufferAllocationSize) {n : ℕ}
    (hn : n * k ≤ Decoder.frameLimit) :
    ∃ es d, Leads (resting Decoder.new) es (resting d) (List.replicate (n * k) 0x61) [] ∧
      Decoder.new.decodeBytes (List.replicate (n * k) 0x61) = some (d, []) ∧ d.WellSized ∧
        d.bytes = List.replicate (n * k) 0x61 := by
  induction n with
  | zero =>
    rw [Nat.zero_mul]
    exact ⟨[], Decoder.new, .refl _, rfl, Decoder.wellSized_new, rfl⟩
  | succ n ih =>
    rw [Nat.succ_mul] at hn ⊢
    obtain ⟨es, d, hleads, hdecode, hsize, hbytes⟩ := ih (by omega)
    have hletters : Decoder.semicolon ∉ List.replicate k 0x61 := by
      intro hmem
      exact absurd (List.eq_of_mem_replicate hmem) (by decide)
    obtain ⟨d', hchunk, hsize', hbytes'⟩ :=
      Decoder.decodeBytes_of_not_mem hsize hletters
        (by rw [hbytes, List.length_replicate, List.length_replicate]; omega)
    have hread := leads_readEvents d (List.replicate k 0x61)
      (by rw [List.length_replicate]; exact hk)
    rw [runTask_of_decodeBytes hchunk] at hread
    rw [← List.replicate_append_replicate]
    refine ⟨_, d', hleads.append hread, Decoder.decodeBytes_append hdecode hchunk, hsize', ?_⟩
    rw [hbytes', hbytes]

/-- The first read allocates the buffer. -/
theorem leads_first :
    Leads (readMachine Unit 1).init (readEvents []) (resting Decoder.new) [] [] :=
  ⟨rfl, rfl, rfl⟩

/-- Behind a frame that is too long by one byte the reactor still passes a message on; the thread of
`run` has died. -/
theorem exists_diverging {n k : ℕ} (hk : k ≤ bufferAllocationSize)
    (hn : n * k = Decoder.frameLimit) :
    ∃ es : List (ReadEvent Unit), ∃ message, processedMessages 1 es () = [message] ∧
      handlerRun Decoder.new (receivedBytes 1 es ()) = [] := by
  obtain ⟨es, d, hleads, hdecode, hsize, hbytes⟩ := leads_letters hk hn.le
  have hfull : d.decodeNextByte 0x61 = none := by
    have hpush := (Decoder.pushByte_eq hsize 0x61).2
      (by rw [hbytes, List.length_replicate, hn])
    rw [Decoder.decodeNextByte, if_neg (by decide), hpush]
    rfl
  have hdropped : runTask d [0x61] = (d, []) := by simp only [runTask, hfull]
  have hpopped : runTask d [Decoder.semicolon] =
      ({ d with bytes := [] }, [Java.utf8Decode d.bytes]) := rfl
  have hone := leads_readEvents d [0x61] (by decide)
  have hlast := leads_readEvents d [Decoder.semicolon] (by decide)
  rw [hdropped] at hone
  rw [hpopped] at hlast
  have hall := ((leads_first.append hleads).append hone).append hlast
  refine ⟨_, _, hall.processed, ?_⟩
  have hreceived := hall.received
  rw [receivedBytes, outputs, hreceived, List.nil_append, List.append_assoc,
    handlerRun_append hdecode]
  simp only [List.singleton_append, handlerRun, hfull, List.append_nil]

/-- **The two read paths part after a frame of `1 << 30` letters and one more.** -/
theorem long_frame_diverges :
    ¬ ∀ es : List (ReadEvent Unit),
      processedMessages 1 es () <+: handlerRun Decoder.new (receivedBytes 1 es ()) := by
  intro h
  obtain ⟨es, message, hprocessed, hrun⟩ :=
    exists_diverging (n := 0x20000) (k := 0x2000) (by decide) (by decide)
  have hbefore := h es
  rw [hprocessed, hrun, List.prefix_nil] at hbefore
  exact absurd hbefore (List.cons_ne_nil message [])

end LongFrame

end SplNet
