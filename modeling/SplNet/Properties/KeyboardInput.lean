import SplNet.Client.Keyboard

/-!
# What is typed is what is sent

In every run of the client, whatever the socket thread and the server do meanwhile, the bytes it
sends are the encodings of the lines that were typed, each one once and in order
(`typed_lines_are_sent`). A line of `bufsize` characters or more is cut, and nothing that was typed
behind it is ever read.
-/

namespace SplNet.Client

/-- What one step reads: nothing, or the next line. -/
theorem keyboardStep_lines (w : KeyboardClient) (e : KeyboardEvent) :
    (w.step e).1.stdin = w.stdin ∧ (w.step e).2.lines = [] ∨
      (w.step e).1.stdin = w.stdin.getline.2 ∧ (w.step e).2.lines = [w.stdin.getline.1] := by
  cases e with
  | keyboard =>
    rw [KeyboardClient.step]
    split
    · exact Or.inr ⟨rfl, rfl⟩
    · exact Or.inl ⟨rfl, rfl⟩
    · exact Or.inl ⟨rfl, rfl⟩
  | _ => exact Or.inl ⟨rfl, rfl⟩

/-- A step of the socket thread or the server leaves the keyboard thread where it is. -/
theorem keyboard_eq_of_quiet {s : LogoutClient} {e : LogoutEvent} (hkeyboard : e ≠ .keyboard)
    (htyped : ∀ line, e ≠ .typed line) : (logoutStep s e).1.keyboard = s.keyboard := by
  cases e with
  | typed line => exact absurd rfl (htyped line)
  | keyboard => exact absurd rfl hkeyboard
  | socket =>
    show s.socketStep.keyboard = _
    rw [LogoutClient.socketStep]
    split
    · rfl
    · split <;> rfl
    · rfl
  | answer accepted =>
    rw [logoutStep]
    split <;> rfl
  | sendOther m quiet => rfl

/-- What is read is what is sent and then what is not yet sent. -/
theorem keyboardStep_bytes (w : KeyboardClient) (e : KeyboardEvent) :
    w.unsent.flatMap encodedLine ++ (w.step e).2.lines.flatMap encodedLine =
      (w.step e).2.bytes ++ (w.step e).1.unsent.flatMap encodedLine := by
  have hquiet : ∀ e', (logoutStep w.client e').1.keyboard = w.client.keyboard →
      w.unsent.flatMap encodedLine ++ (w.quietly e').2.lines.flatMap encodedLine =
        (w.quietly e').2.bytes ++ (w.quietly e').1.unsent.flatMap encodedLine := by
    intro e' hkeyboard
    have hunsent : (w.quietly e').1.unsent = w.unsent := by
      show KeyboardClient.unsent ⟨w.stdin, (logoutStep w.client e').1⟩ = _
      rw [KeyboardClient.unsent, KeyboardClient.unsent, hkeyboard]
    rw [hunsent]
    exact List.append_nil _
  have hnot : ∀ {e' : LogoutEvent}, e' ≠ .keyboard → (∀ line, e' ≠ .typed line) → _ :=
    fun hkeyboard htyped ↦ hquiet _ (keyboard_eq_of_quiet hkeyboard htyped)
  cases e with
  | socket => exact hnot LogoutEvent.noConfusion fun _ ↦ LogoutEvent.noConfusion
  | answer accepted => exact hnot LogoutEvent.noConfusion fun _ ↦ LogoutEvent.noConfusion
  | sendOther m quiet => exact hnot LogoutEvent.noConfusion fun _ ↦ LogoutEvent.noConfusion
  | keyboard =>
    obtain ⟨stdin, flags, point, socket, sent, toServer, toClient, decoded⟩ := w
    cases point with
    | getline => rfl
    | encoder line => exact List.append_nil _
    | sendBytes line =>
      show [line].flatMap encodedLine ++ [] = encodedLine line ++ []
      rw [List.flatMap_singleton]
    | testLine line frames | loop | testLogoutSent | testLogoutFailed =>
      simp only [KeyboardClient.step, KeyboardClient.quietly, KeyboardClient.unsent, logoutStep,
        LogoutClient.keyboardStep]
      split_ifs <;> rfl
    | waitTerminate frames | waitLogoutFailed frames =>
      simp only [KeyboardClient.step, KeyboardClient.quietly, KeyboardClient.unsent, logoutStep,
        LogoutClient.keyboardStep]
      split_ifs <;> rfl
    | clearLogoutSent | clearLogoutFailed | ended => rfl

/-- What the keyboard thread has read: typed lines in order, and empty lines behind the last one. -/
theorem read_lines (input : List UInt8) (es : List KeyboardEvent) :
    ∃ typed n, typedLines (input.splitOn newline) =
        typed ++ typedLines ((keyboardMachine input).stateAfter es).stdin.pieces ∧
      (0 < n → ((keyboardMachine input).stateAfter es).stdin.good = false) ∧
      ((keyboardMachine input).outputs es).flatMap KeyboardRecord.lines =
        typed ++ List.replicate n [] := by
  induction es using List.reverseRecOn with
  | nil => exact ⟨[], 0, rfl, fun h ↦ absurd h (Nat.lt_irrefl 0), rfl⟩
  | append_singleton es e ih =>
    obtain ⟨typed, n, htyped, hgood, hlines⟩ := ih
    rw [LabelledMachine.stateAfter_concat, LabelledMachine.outputs_concat, List.flatMap_append,
      List.flatMap_singleton, hlines]
    rcases keyboardStep_lines ((keyboardMachine input).stateAfter es) e with ⟨hstdin, hread⟩ |
      ⟨hstdin, hread⟩
    · refine ⟨typed, n, ?_, fun hn ↦ ?_, ?_⟩
      · exact (congrArg (fun s : Stdin ↦ _ = typed ++ typedLines s.pieces) hstdin).mpr htyped
      · exact (congrArg Stdin.good hstdin).trans (hgood hn)
      · show _ ++ ((keyboardMachine input).stateAfter es |>.step e).2.lines = _
        rw [hread, List.append_nil]
    · rcases hgoodnow : ((keyboardMachine input).stateAfter es).stdin.good with - | -
      · -- the stream has failed, and gives one more empty line
        have hget := Stdin.getline_of_not_good hgoodnow
        refine ⟨typed, n + 1, ?_, fun _ ↦ ?_, ?_⟩
        · refine (congrArg (fun s : Stdin ↦ _ = typed ++ typedLines s.pieces) hstdin).mpr ?_
          rw [hget]
          exact htyped
        · refine (congrArg Stdin.good hstdin).trans ?_
          rw [hget]
          exact hgoodnow
        · show _ ++ ((keyboardMachine input).stateAfter es |>.step e).2.lines = _
          rw [hread, hget, List.append_assoc, List.replicate_succ']
      · have hget := Stdin.getline_of_good hgoodnow
        obtain rfl : n = 0 := by
          refine Nat.eq_zero_of_not_pos fun hn ↦ ?_
          exact absurd ((hgood hn).symm.trans hgoodnow) Bool.false_ne_true
        refine ⟨typed ++ [((keyboardMachine input).stateAfter es).stdin.getline.1], 0, ?_,
          fun h ↦ absurd h (Nat.lt_irrefl 0), ?_⟩
        · refine (congrArg (fun s : Stdin ↦ _ = _ ++ typedLines s.pieces) hstdin).mpr ?_
          rw [htyped, hget, List.append_assoc, List.singleton_append]
        · show _ ++ ((keyboardMachine input).stateAfter es |>.step e).2.lines = _
          rw [hread, List.replicate_zero, List.append_nil, List.append_nil]

/-- The two threads and the server go on as they do in `logoutMachine`. -/
theorem client_reachable (input : List UInt8) (es : List KeyboardEvent) :
    logoutMachine.Reachable ((keyboardMachine input).stateAfter es).client := by
  refine LabelledMachine.Reachable.component (N := keyboardMachine input)
    (f := KeyboardClient.client) rfl (fun w e _ ↦ Or.inr ?_) ⟨es, rfl⟩
  cases e with
  | keyboard =>
    show ∃ e', (w.step .keyboard).1.client = _
    rw [KeyboardClient.step]
    split
    · exact ⟨_, rfl⟩
    · exact ⟨_, rfl⟩
    · exact ⟨_, rfl⟩
  | socket => exact ⟨.socket, rfl⟩
  | answer accepted => exact ⟨.answer accepted, rfl⟩
  | sendOther m quiet => exact ⟨.sendOther m quiet, rfl⟩

/-- **Every typed line is sent once and in order, and nothing else is sent.** -/
theorem typed_lines_are_sent (input : List UInt8) (es : List KeyboardEvent) :
    ∃ typed n, typed <+: typedLines (input.splitOn newline) ∧
      (0 < n → typed = typedLines (input.splitOn newline)) ∧
      ((keyboardMachine input).outputs es).flatMap KeyboardRecord.lines =
        typed ++ List.replicate n [] ∧
      typed.flatMap encodedLine =
        ((keyboardMachine input).outputs es).flatMap KeyboardRecord.bytes ++
          ((keyboardMachine input).stateAfter es).unsent.flatMap encodedLine ∧
      logoutMachine.Reachable ((keyboardMachine input).stateAfter es).client := by
  obtain ⟨typed, n, htyped, hgood, hlines⟩ := read_lines input es
  have hempty : ∀ n, (List.replicate n ([] : List UInt8)).flatMap encodedLine = [] := by
    intro n
    rw [List.flatMap_eq_nil_iff]
    intro line hline
    rw [List.eq_of_mem_replicate hline]
    rfl
  have hbytes := LabelledMachine.fifo_accounted (M := keyboardMachine input)
    (f := fun w ↦ w.unsent.flatMap encodedLine) (i := fun r ↦ r.lines.flatMap encodedLine)
    (o := KeyboardRecord.bytes) rfl (fun w e _ ↦ keyboardStep_bytes w e) es
  refine ⟨typed, n, ?_, fun hn ↦ ?_, hlines, ?_, client_reachable input es⟩
  · rw [htyped]
    exact List.prefix_append _ _
  · rw [htyped, Stdin.typedLines_of_not_good (hgood hn), List.append_nil]
  · rw [← hbytes, ← List.flatMap_assoc, hlines, List.flatMap_append, hempty, List.append_nil]

/-- The input ends behind a newline, and the last line is empty. -/
example : typedLines ((ascii "POST hi\nLOGOUT\n").splitOn newline) =
    [ascii "POST hi", ascii "LOGOUT", []] := by decide

end SplNet.Client
