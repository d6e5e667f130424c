import SplNet.Srv.WritePath

/-!
# Nothing that is sent is lost or stranded

The bytes in the channel and in the queue are the encodings of the messages whose sends have begun
(`addedMessages`), in that order: every step of the selector thread only moves bytes from the queue
to the channel. And the selector thread never goes to sleep over a queue that nobody will wake it
for. The critical moment is the last one of `continueWrite`: between its look at the empty queue and
its resetting the interest to `OP_READ`, whatever enters the queue comes from a sender that **has
not added its task yet, or whose task is still queued**, since the selector thread runs no tasks
there (`WriteInvariant.late`).
-/

namespace SplNet

open Java LabelledMachine

/-- The selector thread is inside `continueWrite`. -/
def SelectorPc.inContinueWrite : SelectorPc → Bool
  | .select => false
  | .tasks => false
  | .key => false
  | _ => true

/-- The selector thread has found a buffer and not yet decided about it. -/
def SelectorPc.hasBuffer : SelectorPc → Bool
  | .peek => true
  | .write => true
  | .hasRemaining => true
  | _ => false

section Invariant

variable {τ : Type*}

/-- The interest will be set to `OP_READ | OP_WRITE`: by a queued task, or by one that a sender is
about to add. -/
def WritePath.WriteComing (s : WritePath τ) : Prop :=
  .readWrite ∈ s.selectorTasks ∨ s.sending ≠ []

/-- **The invariant of the write path.** -/
structure WriteInvariant (s : WritePath τ) : Prop where
  tasks : ∀ ops ∈ s.selectorTasks, ops = .readWrite
  interest : s.pc.inContinueWrite = true → s.interest = .readWrite
  nonempty : s.pc.hasBuffer = true → s.writeQueue ≠ []
  /-- A buffer is removed when all of it is written. -/
  spent : s.pc = .remove → s.writeQueue.head? = some []
  /-- What has entered the queue since the last look at it has its task coming. -/
  late : s.pc = .setRead → s.writeQueue ≠ [] → s.WriteComing
  awake : s.writeQueue ≠ [] → s.interest = .readWrite ∨ s.WriteComing

theorem writeInvariant_init : WriteInvariant (WritePath.init : WritePath τ) where
  tasks _ h := absurd h List.not_mem_nil
  interest h := absurd h Bool.false_ne_true
  nonempty h := absurd h Bool.false_ne_true
  spent h := absurd h (by simp [WritePath.init])
  late h := absurd h (by simp [WritePath.init])
  awake h := absurd rfl h

variable {s : WritePath τ}

/-- Nothing is required of the selector thread outside `continueWrite`. -/
theorem WriteInvariant.goto_outside (h : WriteInvariant s) {pc : SelectorPc}
    (hpc : pc.inContinueWrite = false) : WriteInvariant (s.goto pc) where
  tasks := h.tasks
  interest hin := absurd (hpc.symm.trans hin) Bool.false_ne_true
  nonempty hin := by cases pc <;> simp [WritePath.goto, SelectorPc.hasBuffer,
    SelectorPc.inContinueWrite] at hin hpc
  spent hin := by cases pc <;> simp [WritePath.goto, SelectorPc.inContinueWrite] at hin hpc
  late hin := by cases pc <;> simp [WritePath.goto, SelectorPc.inContinueWrite] at hin hpc
  awake := h.awake

theorem WriteInvariant.goto_inside (h : WriteInvariant s) {pc : SelectorPc}
    (hinterest : s.interest = .readWrite) (hnonempty : pc.hasBuffer = true → s.writeQueue ≠ [])
    (hspent : pc = .remove → s.writeQueue.head? = some [])
    (hlate : pc = .setRead → s.writeQueue = []) : WriteInvariant (s.goto pc) :=
  ⟨h.tasks, fun _ ↦ hinterest, hnonempty, hspent, fun hpc hne ↦ absurd (hlate hpc) hne, h.awake⟩

theorem writeTop_eq {top : List UInt8} {rest : List (List UInt8)} (h : s.writeQueue = top :: rest)
    (limit : ℕ) : s.writeTop limit =
      { s with writeQueue := top.drop limit :: rest, written := s.written ++ top.take limit } := by
  rw [WritePath.writeTop, h]

theorem writeInvariant_selectorStep (h : WriteInvariant s) (writable : Bool) (limit : ℕ) :
    WriteInvariant (s.selectorStep writable limit) := by
  rcases hpc : s.pc
  case select =>
    rw [WritePath.selectorStep, hpc]
    exact h.goto_outside rfl
  case tasks =>
    rcases htasks : s.selectorTasks with - | ⟨ops, rest⟩
    · simp only [WritePath.selectorStep, hpc, htasks]
      exact h.goto_outside rfl
    · -- a task that is run sets the interest the others would set
      have hops := h.tasks ops (htasks ▸ List.mem_cons_self)
      simp only [WritePath.selectorStep, hpc, htasks]
      exact ⟨fun ops' h' ↦ h.tasks ops' (htasks ▸ List.mem_cons_of_mem ops h'), fun _ ↦ hops,
        by simp [SelectorPc.hasBuffer], by simp, by simp, fun _ ↦ Or.inl hops⟩
  case key =>
    simp only [WritePath.selectorStep, hpc]
    split
    case isTrue hready =>
      exact h.goto_inside hready.2 (by simp [SelectorPc.hasBuffer]) (by simp) (by simp)
    case isFalse => exact h.goto_outside rfl
  all_goals
    have hinterest : s.interest = .readWrite := h.interest (hpc ▸ rfl)
    simp only [WritePath.selectorStep, hpc]
  case loopTest =>
    split
    case isTrue =>
      exact h.goto_inside hinterest (by simp [SelectorPc.hasBuffer]) (by simp) (by simp)
    case isFalse hne => exact h.goto_inside hinterest (fun _ ↦ hne) (by simp) (by simp)
  case peek =>
    exact h.goto_inside hinterest (fun _ ↦ h.nonempty (hpc ▸ rfl)) (by simp) (by simp)
  case write =>
    obtain ⟨top, rest, hqueue⟩ := List.exists_cons_of_ne_nil (h.nonempty (hpc ▸ rfl))
    rw [writeTop_eq hqueue]
    exact ⟨h.tasks, fun _ ↦ hinterest, fun _ ↦ List.cons_ne_nil _ _, by simp [WritePath.goto],
      by simp [WritePath.goto], fun _ ↦ Or.inl hinterest⟩
  case hasRemaining =>
    split
    case isTrue hhead =>
      exact h.goto_inside hinterest (by simp [SelectorPc.hasBuffer]) (fun _ ↦ hhead) (by simp)
    case isFalse => exact h.goto_outside rfl
  case remove =>
    exact ⟨h.tasks, fun _ ↦ hinterest, by simp [SelectorPc.hasBuffer], by simp, by simp,
      fun _ ↦ Or.inl hinterest⟩
  case isEmpty =>
    split
    case isTrue hnil =>
      exact h.goto_inside hinterest (by simp [SelectorPc.hasBuffer]) (by simp) (fun _ ↦ hnil)
    case isFalse => exact h.goto_outside rfl
  case setRead =>
    exact ⟨h.tasks, by simp [SelectorPc.inContinueWrite], by simp [SelectorPc.hasBuffer], by simp,
      by simp, fun hne ↦ Or.inr (h.late hpc hne)⟩

/-! ### Senders -/

theorem writeInvariant_add (h : WriteInvariant s) (t : τ) (bytes : List UInt8) :
    WriteInvariant { s with writeQueue := s.writeQueue ++ [bytes], sending := t :: s.sending } where
  tasks := h.tasks
  interest := h.interest
  nonempty _ := by simp
  spent hpc := by
    have hhead := h.spent hpc
    rcases hqueue : s.writeQueue with - | ⟨top, rest⟩
    · rw [hqueue] at hhead
      exact absurd hhead (by simp)
    · rw [hqueue] at hhead
      exact hhead
  late _ _ := Or.inr (List.cons_ne_nil t s.sending)
  awake _ := Or.inr (Or.inr (List.cons_ne_nil t s.sending))

/-! ### The bytes -/

/-- The bytes in the channel and behind it. -/
def WritePath.bytes (s : WritePath τ) : List UInt8 := s.written ++ s.writeQueue.flatten

/-- The selector thread only moves bytes from the queue to the channel. -/
theorem bytes_selectorStep (h : WriteInvariant s) (writable : Bool) (limit : ℕ) :
    (s.selectorStep writable limit).bytes = s.bytes := by
  rcases hpc : s.pc
  case tasks =>
    rcases htasks : s.selectorTasks with - | ⟨ops, rest⟩
    all_goals
      simp only [WritePath.selectorStep, hpc, htasks]
      rfl
  case write =>
    obtain ⟨top, rest, hqueue⟩ := List.exists_cons_of_ne_nil (h.nonempty (hpc ▸ rfl))
    simp only [WritePath.selectorStep, hpc, writeTop_eq hqueue, WritePath.bytes, WritePath.goto,
      hqueue, List.flatten_cons]
    rw [List.append_assoc, ← List.append_assoc (top.take limit), List.take_append_drop]
  case remove =>
    have hhead := h.spent hpc
    rcases hqueue : s.writeQueue with - | ⟨top, rest⟩
    · rw [hqueue] at hhead
      exact absurd hhead (by simp)
    · rw [hqueue, List.head?_cons, Option.some.injEq] at hhead
      simp [WritePath.selectorStep, hpc, WritePath.bytes, hqueue, hhead]
  all_goals
    simp only [WritePath.selectorStep, hpc]
    rfl

end Invariant

/-! ### Runs -/

section Runs

variable {τ : Type*} [DecidableEq τ] {s : WritePath τ}

theorem writeInvariant_enqueue (h : WriteInvariant s) (t : τ) :
    WriteInvariant { s with sending := s.sending.erase t
                            selectorTasks := s.selectorTasks ++ [.readWrite] } where
  tasks ops hops := by
    rcases List.mem_append.1 hops with hold | hnew
    · exact h.tasks ops hold
    · exact List.mem_singleton.1 hnew
  interest := h.interest
  nonempty := h.nonempty
  spent := h.spent
  late _ _ := Or.inl (List.mem_append_right _ (List.mem_singleton_self _))
  awake _ := Or.inr (Or.inl (List.mem_append_right _ (List.mem_singleton_self _)))

/-- **The step lemma**: the invariant is kept, and the bytes grow by what the step has added. -/
theorem writeStep_spec (h : WriteInvariant s) (e : WriteEvent τ) :
    WriteInvariant (writeStep s e).1 ∧ (writeStep s e).1.bytes = s.bytes ++ (writeStep s e).2 := by
  cases e with
  | add t msg =>
    rw [writeStep]
    split
    case isTrue => exact ⟨h, (List.append_nil _).symm⟩
    case isFalse =>
      rcases encode msg with e | bytes
      · exact ⟨h, (List.append_nil _).symm⟩
      · refine ⟨writeInvariant_add h t bytes, ?_⟩
        simp [WritePath.bytes]
  | enqueue t =>
    rw [writeStep]
    split
    case isTrue => exact ⟨writeInvariant_enqueue h t, (List.append_nil _).symm⟩
    case isFalse => exact ⟨h, (List.append_nil _).symm⟩
  | selector writable limit =>
    refine ⟨writeInvariant_selectorStep h writable limit, ?_⟩
    rw [writeStep, bytes_selectorStep h, List.append_nil]

/-- The messages of the sends that have begun, in the order of their first steps. A thread in the
middle of a send begins no other one, and a message that cannot be encoded is not added. -/
def addedMessages (sending : List τ) : List (WriteEvent τ) → List JString
  | [] => []
  | .add t msg :: es =>
    if t ∈ sending then addedMessages sending es
    else
      match encode msg with
      | .ok _ => msg :: addedMessages (t :: sending) es
      | .error _ => addedMessages sending es
  | .enqueue t :: es => addedMessages (sending.erase t) es
  | .selector _ _ :: es => addedMessages sending es

omit [DecidableEq τ] in
theorem sending_selectorStep (s : WritePath τ) (writable : Bool) (limit : ℕ) :
    (s.selectorStep writable limit).sending = s.sending := by
  rw [WritePath.selectorStep]
  split
  case h_2 => split <;> rfl
  case h_6 =>
    show (s.writeTop limit).sending = s.sending
    rw [WritePath.writeTop]
    split <;> rfl
  all_goals rfl

/-- What a step adds is the encoding of the message whose send it begins. -/
theorem exists_added (s : WritePath τ) (e : WriteEvent τ) (es : List (WriteEvent τ)) :
    ∃ messages encodings, addedMessages s.sending (e :: es) =
        messages ++ addedMessages (writeStep s e).1.sending es ∧
      messages.mapM encode = .ok encodings ∧ (writeStep s e).2 = encodings.flatten := by
  cases e with
  | add t msg =>
    rw [addedMessages, writeStep]
    split
    case isTrue => exact ⟨[], [], rfl, rfl, rfl⟩
    case isFalse =>
      rcases hencode : encode msg with e | bytes
      · exact ⟨[], [], rfl, rfl, rfl⟩
      · refine ⟨[msg], [bytes], rfl, ?_, (List.append_nil bytes).symm⟩
        rw [List.mapM_cons, hencode]
        rfl
  | enqueue t =>
    rw [addedMessages, writeStep]
    split
    case isTrue => exact ⟨[], [], rfl, rfl, rfl⟩
    case isFalse hnot =>
      rw [List.erase_of_not_mem hnot]
      exact ⟨[], [], rfl, rfl, rfl⟩
  | selector writable limit =>
    refine ⟨[], [], ?_, rfl, rfl⟩
    rw [addedMessages, writeStep, sending_selectorStep]
    rfl

/-- **The run lemma**, from any state that keeps the invariant. -/
theorem exists_encodings (h : WriteInvariant s) (es : List (WriteEvent τ)) :
    ∃ encodings, (addedMessages s.sending es).mapM encode = .ok encodings ∧
      (es.foldl (writeMachine τ).next s).bytes = s.bytes ++ encodings.flatten := by
  induction es generalizing s with
  | nil => exact ⟨[], rfl, (List.append_nil _).symm⟩
  | cons e es ih =>
    obtain ⟨hinvariant, hbytes⟩ := writeStep_spec h e
    obtain ⟨later, hlater, hrun⟩ := ih hinvariant
    obtain ⟨messages, encodings, hmessages, hencode, hadded⟩ := exists_added s e es
    refine ⟨encodings ++ later, ?_, ?_⟩
    · rw [hmessages, List.mapM_append, hencode, hlater]
      rfl
    · rw [List.foldl_cons, writeMachine_next, hrun, hbytes, hadded, List.flatten_append,
        List.append_assoc]

theorem writeInvariant_of_reachable (h : (writeMachine τ).Reachable s) : WriteInvariant s := by
  refine h.invariant (P := WriteInvariant) writeInvariant_init fun s e _ hs ↦ ?_
  exact (writeStep_spec hs e).1

/-- **Nothing is lost, nothing is stranded.** After any steps of any number of senders and of the
selector thread, the bytes written and the bytes queued are the encodings of the messages whose sends
have begun, in the order in which they were added; and if the selector thread is about to select over
a queue that is not empty, then `OP_WRITE` is in the interest set, or the task that puts it there is
queued, or a sender is about to queue it. -/
theorem write_path (es : List (WriteEvent τ)) :
    (∃ encodings, (addedMessages [] es).mapM encode = .ok encodings ∧
      ((writeMachine τ).stateAfter es).written ++
        ((writeMachine τ).stateAfter es).writeQueue.flatten = encodings.flatten) ∧
      (((writeMachine τ).stateAfter es).pc = .select →
        ((writeMachine τ).stateAfter es).writeQueue ≠ [] →
          ((writeMachine τ).stateAfter es).interest = .readWrite ∨
            .readWrite ∈ ((writeMachine τ).stateAfter es).selectorTasks ∨
              ∃ t, t ∈ ((writeMachine τ).stateAfter es).sending) := by
  have hinvariant := writeInvariant_of_reachable ((writeMachine τ).reachable_stateAfter es)
  constructor
  · exact exists_encodings writeInvariant_init es
  · intro _ hqueue
    rcases hinvariant.awake hqueue with h | h | h
    · exact Or.inl h
    · exact Or.inr (Or.inl h)
    · exact Or.inr (Or.inr (List.exists_mem_of_ne_nil _ h))

end Runs

end SplNet
