import SplNet.Client.MessageReader
import SplNet.Properties.EndToEnd
import SplNet.System.Progress

/-!
# Everything is delivered in the end

From every point of a run the system can come to rest without another line (`network_drains`): by
reading bytes, going on with frames and showing messages, in some order, every handler comes to be
idle, every line has reached its handler, and everything that was sent is shown. So nothing the
others do can bring a handler or a client into a position that it does not get out of.

A handler that ends by an exception reads no more, the socket thread of a client does not get over
LOGSTAT, and it ends with the acknowledgement of LOGOUT; the statement says so. Something may still
be sent to a client that has logged out: a PM goes to the connection its user is stored with.
-/

namespace SplNet

open Java Client LabelledMachine

section Delivery

variable {es rest : List NetworkEvent} {c : ℤ}

/-- Deliveries are no lines. -/
theorem not_typed_of_isDelivery (hrest : ∀ e ∈ rest, e.IsDelivery) (c : ℤ) (line : List UInt8) :
    .typed c line ∉ rest :=
  fun hmem ↦ hrest _ hmem

theorem typedLines_append (es : List NetworkEvent) (c : ℤ)
    (hrest : ∀ e ∈ rest, e.IsDelivery) :
    typedLines (es ++ rest) c = typedLines es c := by
  induction rest using List.reverseRecOn with
  | nil => rw [List.append_nil]
  | append_singleton rest e ih =>
    rw [List.forall_mem_append, List.forall_mem_singleton] at hrest
    have hnone : (networkStep (networkMachine.stateAfter (es ++ rest)) e).2.typedOn c =
        [] := by
      refine List.eq_nil_iff_forall_not_mem.2 fun line hline ↦ ?_
      obtain rfl : e = .typed c line := eq_typed_of_mem hline
      exact hrest.2
    show List.flatMap _ (networkMachine.outputs (es ++ (rest ++ [e]))) = _
    rw [← List.append_assoc, outputs_concat, List.flatMap_append, List.flatMap_singleton]
    show typedLines (es ++ rest) c ++
      (networkStep (networkMachine.stateAfter (es ++ rest)) e).2.typedOn c = _
    rw [hnone, List.append_nil, ih hrest.1]

theorem CleanLines.append (h : CleanLines es) (hrest : ∀ e ∈ rest, e.IsDelivery) :
    CleanLines (es ++ rest) := fun c line hmem ↦
  h c line ((List.mem_append.1 hmem).resolve_right (not_typed_of_isDelivery hrest c line))

theorem NoLogstat.append (h : NoLogstat es c) (hrest : ∀ e ∈ rest, e.IsDelivery) :
    NoLogstat (es ++ rest) c := fun line hmem ↦
  h line ((List.mem_append.1 hmem).resolve_right (not_typed_of_isDelivery hrest c line))

/-- What the handlers can do by themselves: each connection is served. -/
theorem handlers_drain (w : Network) (conns : List ℤ) :
    ∃ w', networkMachine.Leads NetworkEvent.IsDelivery w w' ∧ ∀ c ∈ conns, w'.Served c := by
  have hstep : ∀ w₁, ∀ c ∈ conns, True →
      ∃ w₂, networkMachine.Leads NetworkEvent.IsDelivery w₁ w₂ ∧ True ∧ w₂.Served c ∧
        ∀ d, w₁.Served d → w₂.Served d := by
    intro w₁ c _ _
    obtain ⟨w₂, hleads, honly, hserved⟩ := exists_served c w₁
    refine ⟨w₂, hleads, trivial, hserved, fun d hd ↦ ?_⟩
    rcases eq_or_ne d c with rfl | hne
    · exact hserved
    · exact honly.served hne hd
  obtain ⟨w', hleads, -, hserved, -⟩ := exists_settled (P := fun _ ↦ True)
    (Q := fun c (w : Network) ↦ w.Served c) hstep trivial
  exact ⟨w', hleads, hserved⟩

/-- Only messages have been shown, and what is left can be read. -/
structure ShowsOnly (w w' : Network) : Prop where
  handlers : w'.handlers = w.handlers
  toServer : ∀ c, (w'.link c).toServer = (w.link c).toServer
  readable : ∀ c, (w.link c).Readable → (w'.link c).Readable

/-- What the clients can do by themselves: everything that can be read is shown. -/
theorem clients_drain (w : Network) (conns : List ℤ) :
    ∃ w', networkMachine.Leads NetworkEvent.IsDelivery w w' ∧ ShowsOnly w w' ∧
      ∀ c ∈ conns, (w.link c).Readable → (w'.link c).Shown := by
  have hstep : ∀ w₁, ∀ c ∈ conns, ShowsOnly w w₁ →
      ∃ w₂, networkMachine.Leads NetworkEvent.IsDelivery w₁ w₂ ∧ ShowsOnly w w₂ ∧
        ((w.link c).Readable → (w₂.link c).Shown) ∧
        ∀ d, ((w.link d).Readable → (w₁.link d).Shown) →
          (w.link d).Readable → (w₂.link d).Shown := by
    intro w₁ c _ honly
    by_cases hread : (w.link c).Readable
    · obtain ⟨w₂, hleads, hhandlers, hshown, hreadable, hothers, htoServer⟩ :=
        exists_shown (honly.readable c hread)
      refine ⟨w₂, hleads, ⟨hhandlers.trans honly.handlers, fun d ↦ ?_, fun d hd ↦ ?_⟩,
        fun _ ↦ hshown, fun d hd hreadd ↦ ?_⟩
      all_goals rcases eq_or_ne d c with rfl | hne
      · exact htoServer.trans (honly.toServer d)
      · rw [hothers d hne]
        exact honly.toServer d
      · exact hreadable
      · rw [hothers d hne]
        exact honly.readable d hd
      · exact hshown
      · rw [hothers d hne]
        exact hd hreadd
    · exact ⟨w₁, .refl _ w₁, honly, fun h ↦ absurd h hread, fun _ ↦ id⟩
  obtain ⟨w', hleads, honly, hshown, -⟩ := exists_settled (P := ShowsOnly w)
    (Q := fun c w₁ ↦ (w.link c).Readable → (w₁.link c).Shown) hstep
    ⟨rfl, fun _ ↦ rfl, fun _ ↦ id⟩
  exact ⟨w', hleads, honly, hshown⟩

/-- **The socket thread of a client ends with the acknowledgement of LOGOUT**: that is the last text
it has shown. -/
theorem shown_of_terminate (es : List NetworkEvent) (c : ℤ)
    (hended : ((networkMachine.stateAfter es).link c).flags.terminate = true) :
    (shownTexts es c).getLast? = some (ascii "ACK 03 ") := by
  refine history_along (M := networkMachine)
    (P := fun os w ↦ (w.link c).flags.terminate = true →
      (os.flatMap (·.shownOn c)).getLast? = some (ascii "ACK 03 "))
    (fun h ↦ absurd h Bool.false_ne_true) ?_ (List.prefix_refl es) hended
  intro pre e _ ih hended
  change ((networkStep (networkMachine.stateAfter pre) e).1.link c).flags.terminate = true at hended
  show (List.flatMap _ (_ ++ [(networkStep (networkMachine.stateAfter pre) e).2])).getLast? = _
  rw [List.flatMap_append, List.flatMap_singleton]
  rcases (linkStep_networkStep c (networkMachine.stateAfter pre) e).toClient with
    ⟨hnone, -, hsame⟩ | ⟨text, hone, -, hrunning, hdecode⟩
  · rw [hnone, List.append_nil]
    exact ih (hsame.symm.trans hended)
  · rw [hone, List.getLast?_concat]
    rcases terminate_decoder hdecode hended with hbefore | rfl
    · exact absurd (hbefore.symm.trans hrunning) (by simp)
    · rfl

/-- The connections that were accepted over a run. -/
abbrev connected (es : List NetworkEvent) : List ℤ :=
  (networkMachine.stateAfter es).handlers.server.connectionsMap

/-- **The system can always come to rest.** From every point of a run, events that only read, go on
and show lead to a point where every handler is idle and has taken up the frames of all lines its
client was given, unless it has ended with an exception, and where every client has shown everything
that was sent to it, or else has shown the acknowledgement of LOGOUT last. -/
theorem network_drains (h : CleanLines es) :
    ∃ rest, (∀ e ∈ rest, e.IsDelivery) ∧
      ∀ c ∈ connected es,
        (networkMachine.stateAfter (es ++ rest)).handlers.task c = .idle ∧
        (((networkMachine.stateAfter es).link c).serving = true →
          takenFrames (es ++ rest) c = (typedLines es c).filterMap lineFrame ∨
          ∃ pre e, es <+: pre ∧ Occurs (es ++ rest) pre e ∧
            e.Crashes (networkMachine.stateAfter pre) c) ∧
        (NoLogstat es c → ∃ shown waiting : List Answer,
          sentMessages (es ++ rest) c = (shown ++ waiting).map Answer.message ∧
          shownTexts (es ++ rest) c = shown.map Answer.display ∧
          (waiting = [] ∨ (shownTexts (es ++ rest) c).getLast? = some (ascii "ACK 03 "))) := by
  obtain ⟨w₁, hleads₁, hserved⟩ := handlers_drain (networkMachine.stateAfter es) (connected es)
  obtain ⟨rest₁, hrest₁, rfl⟩ := hleads₁.exists_stateAfter
  obtain ⟨w₂, hleads₂, honly, hshown⟩ :=
    clients_drain (networkMachine.stateAfter (es ++ rest₁)) (connected es)
  obtain ⟨rest₂, hrest₂, rfl⟩ := hleads₂.exists_stateAfter
  rw [List.append_assoc] at honly hshown
  have hrest : ∀ e ∈ rest₁ ++ rest₂, e.IsDelivery := List.forall_mem_append.2 ⟨hrest₁, hrest₂⟩
  refine ⟨rest₁ ++ rest₂, hrest, fun c hc ↦ ⟨?_, fun hserves ↦ ?_, fun hlogstat ↦ ?_⟩⟩
  · rw [honly.handlers]
    exact (hserved c hc).1
  · rw [or_iff_not_imp_right]
    intro hcrash
    have hserving : ((networkMachine.stateAfter (es ++ rest₁)).link c).serving = true := by
      refine persists_along (P := fun w : Network ↦ (w.link c).serving = true) hserves ?_
        (List.prefix_append es rest₁) (List.prefix_refl _)
      intro pre e hpre hocc hserving
      have hlonger : Occurs (es ++ (rest₁ ++ rest₂)) pre e := by
        rw [← List.append_assoc]
        exact hocc.mono (List.prefix_append _ rest₂)
      refine serving_next ?_ (fun hthrows ↦ hcrash ⟨pre, e, hpre, hlonger, hthrows⟩) hserving
      obtain ⟨before, rfl⟩ := hpre
      have hmem : before ++ [e] <+: rest₁ := by
        rw [Occurs, List.append_assoc] at hocc
        exact (List.prefix_append_right_inj es).1 hocc
      exact hrest₁ e (hmem.subset (List.mem_append_right before (List.mem_singleton_self e)))
    rw [← typedLines_append es c hrest]
    exact frames_eq (h.append hrest).semicolon_not_mem
      ((honly.toServer c).trans ((hserved c hc).2 hserving))
  · have hreadable : ((networkMachine.stateAfter (es ++ rest₁)).link c).Readable := by
      obtain ⟨-, waiting, -, -, hbytes, -⟩ :=
        answers_accounted (h.append hrest₁) (hlogstat.append hrest₁)
      exact ⟨waiting, hbytes⟩
    obtain ⟨shown, waiting, hsent, htexts, hbytes, -⟩ :=
      answers_accounted (h.append hrest) (hlogstat.append hrest)
    refine ⟨shown, waiting, hsent, htexts, ?_⟩
    rcases hshown c hc hreadable with hnil | hended
    · exact .inl (eq_nil_of_flatten_bytes (hbytes.symm.trans hnil))
    · exact .inr (shown_of_terminate _ c hended)

theorem network_drains_selfMention :
    ∃ rest, (∀ e ∈ rest, e.IsDelivery) ∧
      ∀ c ∈ connected selfMention,
        (networkMachine.stateAfter (selfMention ++ rest)).handlers.task c = .idle ∧
        (((networkMachine.stateAfter selfMention).link c).serving = true →
          takenFrames (selfMention ++ rest) c = (typedLines selfMention c).filterMap lineFrame ∨
          ∃ pre e, selfMention <+: pre ∧ Occurs (selfMention ++ rest) pre e ∧
            e.Crashes (networkMachine.stateAfter pre) c) ∧
        (NoLogstat selfMention c → ∃ shown waiting : List Answer,
          sentMessages (selfMention ++ rest) c = (shown ++ waiting).map Answer.message ∧
          shownTexts (selfMention ++ rest) c = shown.map Answer.display ∧
          (waiting = [] ∨
            (shownTexts (selfMention ++ rest) c).getLast? = some (ascii "ACK 03 "))) :=
  network_drains cleanLines_selfMention

end Delivery

end SplNet
