import SplNet.Foundations.RunExtension
import SplNet.Srv.GraphHandlersAlone

/-!
# The atomic server inside the interleaved one

There are two models of the server: `serverMachine` processes a frame in one step, the handlers of
`handlersMachine` go through `process` access by access and in any interleaving. The first one is a
part of the second one: handlers that take turns, each finishing its frame before another one takes
one up, do what the atomic server does (`serial_run`). So whatever a run of the atomic server
reaches or sends is reached or sent by the handlers too. The same holds of `graphHandlersMachine`,
where FOLLOW and BLOCK are carried out in steps as well (`graph_serial_run`).
-/

namespace SplNet

open Java LabelledMachine

section CarriesOut

variable {τ : Type}

/-- A machine of handlers that accepts connections and, when no handler is at work, carries out a
frame as `process` does, by some steps of one handler. -/
structure CarriesOut (M : LabelledMachine τ HandlerEvent (List (ℤ × JString)))
    (resting : Server → τ) : Prop where
  accept : ∀ mode s, M.next (resting s) .accept = resting ((serverMachine mode).next s .accept)
  accept_output : ∀ s, M.output (resting s) .accept = []
  request : ∀ env {c : ℤ} {s : Server}, c ∈ s.connectionsMap → ∀ message,
    ∃ n, (HandlerEvent.request c message :: List.replicate n (.step env c)).foldl M.next
          (resting s) = resting (process env c s message).server ∧
      (M.outputsFrom (resting s)
        (.request c message :: List.replicate n (.step env c))).flatten =
          (process env c s message).sent

variable {M : LabelledMachine τ HandlerEvent (List (ℤ × JString))} {resting : Server → τ}

/-- A step of the atomic server, done by handlers that rest before and after it. -/
theorem CarriesOut.exists_serial_steps (h : CarriesOut M resting) (mode : ServerMode) (s : Server)
    (e : Event) :
    ∃ hs, hs.foldl M.next (resting s) = resting ((serverMachine mode).next s e) ∧
      (M.outputsFrom (resting s) hs).flatMap id = ((serverMachine mode).output s e).sent := by
  cases e with
  | accept =>
    refine ⟨[.accept], h.accept mode s, ?_⟩
    rw [outputsFrom, h.accept_output s]
    rfl
  | request env c message =>
    by_cases hmem : c ∈ s.connectionsMap
    · obtain ⟨n, hstate, hsent⟩ := h.request env hmem message
      refine ⟨.request c message :: List.replicate n (.step env c), ?_, ?_⟩
      · rw [next_request_of_mem mode s hmem]
        exact hstate
      · rw [output_request_of_mem mode s hmem, List.flatMap_id]
        exact hsent
    · -- without a handler the frame goes nowhere
      refine ⟨[], ?_, ?_⟩
      · rw [next_request_of_not_mem mode s hmem]
        rfl
      · rw [output_request_of_not_mem mode s hmem]
        rfl

theorem CarriesOut.exists_serial_run (h : CarriesOut M resting) (mode : ServerMode)
    (hinit : resting (Server.init mode) = M.init) (es : List Event) :
    ∃ hs, M.stateAfter hs = resting ((serverMachine mode).stateAfter es) ∧
      (M.outputs hs).flatten = ((serverMachine mode).outputs es).flatMap Outcome.sent := by
  obtain ⟨hs, hstate, houtputs⟩ := exists_run_of_steps (M := M) (N := serverMachine mode)
    resting Outcome.sent id hinit (fun s e _ ↦ h.exists_serial_steps mode s e) es
  rw [List.flatMap_id] at houtputs
  exact ⟨hs, hstate, houtputs⟩

end CarriesOut

theorem carriesOut_handlers (σ : Handlers) : CarriesOut (handlersMachine σ) Handlers.resting where
  accept _ _ := rfl
  accept_output _ := rfl
  request env _ _ hmem message := alone_process env σ hmem message

theorem carriesOut_graphHandlers (σ : GraphHandlers) :
    CarriesOut (graphHandlersMachine σ) GraphHandlers.resting where
  accept _ _ := rfl
  accept_output _ := rfl
  request env _ _ hmem message := graph_alone_process env σ hmem message

/-- **Every run of the atomic server is a run of the handlers**: they reach the same store with no
handler at work, and have sent the same messages to the same connections in the same order. -/
theorem serial_run (mode : ServerMode) (es : List Event) :
    ∃ hs, (handlersMachine (.resting (Server.init mode))).stateAfter hs =
        .resting ((serverMachine mode).stateAfter es) ∧
      ((handlersMachine (.resting (Server.init mode))).outputs hs).flatten =
        ((serverMachine mode).outputs es).flatMap Outcome.sent :=
  (carriesOut_handlers _).exists_serial_run mode rfl es

/-- **Every run of the atomic server is a run of the finest interleaving.** -/
theorem graph_serial_run (mode : ServerMode) (es : List Event) :
    ∃ hs, (graphHandlersMachine (.resting (Server.init mode))).stateAfter hs =
        .resting ((serverMachine mode).stateAfter es) ∧
      ((graphHandlersMachine (.resting (Server.init mode))).outputs hs).flatten =
        ((serverMachine mode).outputs es).flatMap Outcome.sent :=
  (carriesOut_graphHandlers _).exists_serial_run mode rfl es

end SplNet
