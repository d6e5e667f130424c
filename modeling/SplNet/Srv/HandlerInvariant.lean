import SplNet.Srv.HandlerEffect

/-!
# What concurrent handlers keep

`Handlers.Sound` holds in every state the handlers of a started server reach, in any interleaving:
handlers work for accepted connections, references in use are below the next one, a registered user
is stored under its own name, and every queued post has a blank in it. The larger invariant of
frames that are carried out one after the other (`Coherent`) does not hold here: between `activate`
and `setConnId` a user is activated without a connection.
-/

namespace SplNet

open Java

/-- The handlers of a server that has just started. -/
abbrev startedHandlers (mode : ServerMode) :
    LabelledMachine Handlers HandlerEvent (List (ℤ × JString)) :=
  handlersMachine (.resting (Server.init mode))

namespace Handlers

/-- **The invariant of concurrent handlers.** -/
structure Sound (σ : Handlers) : Prop where
  connected : ∀ c, σ.task c ≠ .idle → c ∈ σ.server.connectionsMap
  registered_lt : ∀ r, σ.server.Registered r → r < σ.server.nextUser
  loginUser_lt : ∀ c r, (σ.task c).loginUser = some r → r < σ.server.nextUser
  activated_lt : ∀ r, (σ.server.user r).isActivated = true → r < σ.server.nextUser
  username_of_mem : ∀ k r, (k, r) ∈ σ.server.usersMap.entries → (σ.server.user r).username = k
  blank_mem : ∀ r, ∀ post ∈ (σ.server.user r).awaitingPosts, space ∈ post

theorem sound_init (mode : ServerMode) : (resting (Server.init mode)).Sound where
  connected _ h := absurd rfl h
  registered_lt := fun _ ⟨_, h⟩ ↦ absurd h List.not_mem_nil
  loginUser_lt _ _ h := absurd h nofun
  activated_lt _ h := absurd h Bool.false_ne_true
  username_of_mem _ _ h := absurd h List.not_mem_nil
  blank_mem _ _ h := absurd h List.not_mem_nil

theorem Sound.next {σ₀ σ : Handlers} (h : σ.Sound) (e : HandlerEvent) :
    ((handlersMachine σ₀).next σ e).Sound := by
  cases e with
  | accept =>
    exact ⟨fun c hc ↦ List.mem_insert_of_mem (h.connected c hc), h.registered_lt, h.loginUser_lt,
      h.activated_lt, h.username_of_mem, h.blank_mem⟩
  | request c message =>
    refine ⟨fun d hd ↦ ?_, ?_, fun d r hr ↦ ?_, ?_, ?_, ?_⟩
    all_goals rw [next_request_server]
    · rw [next_request_task] at hd
      split at hd
      case isTrue hc => exact hc.1 ▸ hc.2.1
      case isFalse => exact h.connected d hd
    · exact h.registered_lt
    · rw [next_request_task] at hr
      split at hr
      case isTrue => exact absurd ((startTask_plain message).2.symm.trans hr) nofun
      case isFalse => exact h.loginUser_lt d r hr
    · exact h.activated_lt
    · exact h.username_of_mem
    · exact h.blank_mem
  | step env c =>
    have heffect : HandlerEffect env c σ.server (σ.task c) (σ.stepOf env c).server
        (σ.stepOf env c).task := handlerEffect_taskStep env c σ.server (σ.task c)
    refine ⟨fun d hd ↦ ?_, fun r hr ↦ heffect.registered_lt h.registered_lt hr,
      fun d r hr ↦ ?_, fun r hr ↦ ?_,
      fun k r hk ↦ heffect.username_of_mem h.registered_lt h.username_of_mem hk,
      fun r ↦ heffect.blank_mem (h.blank_mem r)⟩
    · rw [next_step_server, heffect.connectionsMap_eq]
      rw [next_step_task] at hd
      split at hd
      case isTrue heq =>
        refine heq ▸ h.connected c fun hidle ↦ hd ?_
        rw [stepOf, hidle]
        rfl
      case isFalse => exact h.connected d hd
    · refine Nat.lt_of_lt_of_le ?_ heffect.nextUser_le
      rw [next_step_task] at hr
      split at hr
      case isTrue =>
        rcases heffect.loginUser hr with hold | ⟨_, _, _, -, hfind⟩
        · exact h.loginUser_lt c r hold
        · exact h.registered_lt r (Surroundings.findContaining_eq_some hfind).1
      case isFalse => exact h.loginUser_lt d r hr
    · refine Nat.lt_of_lt_of_le ?_ heffect.nextUser_le
      exact (heffect.isActivated hr).elim (h.activated_lt r) (h.loginUser_lt c r)

theorem sound_of_reachable {mode : ServerMode} {σ : Handlers}
    (h : (startedHandlers mode).Reachable σ) : σ.Sound :=
  h.invariant (P := fun σ ↦ σ.Sound) (sound_init mode) fun _ e _ hσ ↦ hσ.next e

/-- A search through the map meets a registered user once. -/
theorem Sound.count_users {σ : Handlers} (h : σ.Sound) {r : UserRef}
    (hr : σ.server.Registered r) (env : Surroundings) : (env.users σ.server).count r = 1 :=
  Server.count_users h.username_of_mem hr env

end Handlers

end SplNet
