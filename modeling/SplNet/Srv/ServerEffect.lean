import SplNet.Api.Spec.Frames
import SplNet.Srv.BaseServer

/-!
# What one event does to the store

`Effect s e s'` lists every way an event can change the state, with the conditions under which it
does: one constructor for each command that is carried out, one for an accepted connection, and one
for everything that leaves the state alone. Every invariant of the server is proved from it by one
case analysis, and no invariant looks at the protocol again.
-/

namespace SplNet

open Java

/-- The possible effects of one event. -/
inductive Effect (s : Server) : Event → Server → Prop
  | accept : Effect s .accept s.accept
  | unchanged (e : Event) : Effect s e s
  | register {env : Surroundings} {connectionId : ℤ}
      {message username password birthday : JString}
      (h : RegisterAccepts s message username password birthday) :
      Effect s (.request env connectionId (str "01" ++ message))
        (s.putUser username (User.new username password birthday))
  | login {env : Surroundings} {connectionId : ℤ} {message username : JString} {r : UserRef}
      (hmem : connectionId ∈ s.connectionsMap) (h : LoginAccepts env s message username r) :
      Effect s (.request env connectionId (str "02" ++ message))
        (startSession connectionId s username r)
  | logout {env : Surroundings} {connectionId : ℤ} {message : JString} {r : UserRef}
      (h : env.findActive s connectionId = some r) :
      Effect s (.request env connectionId (str "03" ++ message)) (s.modifyUser r User.deActivate)
  | follow {env : Surroundings} {connectionId : ℤ} {message text : JString} {my other : UserRef}
      (h : FollowAccepts env connectionId s message text my other) :
      Effect s (.request env connectionId (str "04" ++ message)) (addFollow s my other)
  | unfollow {env : Surroundings} {connectionId : ℤ} {message text : JString} {my other : UserRef}
      (h : UnfollowAccepts env connectionId s message text my other) :
      Effect s (.request env connectionId (str "04" ++ message)) (dropFollow s my other)
  | post {env : Surroundings} {connectionId : ℤ} {message : JString} {my : UserRef}
      (h : PostAccepts env connectionId s message my) :
      Effect s (.request env connectionId (str "05" ++ message))
        (queuePost s (postEntry s my message.dropLast) (postReceivers env s my message.dropLast))
  | block {env : Surroundings} {connectionId : ℤ} {message : JString} {my other : UserRef}
      (h : BlockAccepts env connectionId s message my other) :
      Effect s (.request env connectionId (str "12" ++ message)) (blockUser s my other)

section Requests

variable {s : Server} {env : Surroundings} {connectionId : ℤ}

theorem effect_register (message : JString) :
    Effect s (.request env connectionId (str "01" ++ message))
      (processRegister env connectionId s message).server := by
  by_cases h : ∃ u p b, RegisterAccepts s message u p b
  · obtain ⟨u, p, b, h⟩ := h
    rw [processRegister_of_accepts h]
    exact .register h
  · simp only [not_exists] at h
    rw [(processRegister_refusal h).server_eq]
    exact .unchanged _

theorem effect_login (hmem : connectionId ∈ s.connectionsMap) (message : JString) :
    Effect s (.request env connectionId (str "02" ++ message))
      (processLogin env connectionId s message).server := by
  by_cases h : ∃ k r, LoginAccepts env s message k r
  · obtain ⟨k, r, h⟩ := h
    rw [processLogin_server_of_accepts h]
    exact .login hmem h
  · simp only [not_exists] at h
    rw [(processLogin_refusal h).server_eq]
    exact .unchanged _

theorem effect_logout (message : JString) :
    Effect s (.request env connectionId (str "03" ++ message))
      (processLogout env connectionId s).server := by
  rcases h : env.findActive s connectionId with - | r
  · rw [(processLogout_refusal h).server_eq]
    exact .unchanged _
  · rw [processLogout_of_session h]
    exact .logout h

theorem effect_follow (message : JString) :
    Effect s (.request env connectionId (str "04" ++ message))
      (processFollow env connectionId s message).server := by
  by_cases hfollow : ∃ text my other, FollowAccepts env connectionId s message text my other
  · obtain ⟨text, my, other, h⟩ := hfollow
    rw [processFollow_of_accepts h]
    exact .follow h
  · by_cases hunfollow : ∃ text my other, UnfollowAccepts env connectionId s message text my other
    · obtain ⟨text, my, other, h⟩ := hunfollow
      rw [processFollow_of_unfollow h]
      exact .unfollow h
    · by_cases hsilent : FollowSilent env connectionId s message
      · rw [processFollow_of_silent hsilent]
        exact .unchanged _
      · simp only [not_exists] at hfollow hunfollow
        rw [(processFollow_refusal hfollow hunfollow hsilent).server_eq]
        exact .unchanged _

theorem effect_post (message : JString) :
    Effect s (.request env connectionId (str "05" ++ message))
      (processPost env connectionId s message).server := by
  by_cases h : ∃ my, PostAccepts env connectionId s message my
  · obtain ⟨my, h⟩ := h
    rw [processPost_of_accepts h]
    exact .post h
  · simp only [not_exists] at h
    rw [(processPost_refusal h).server_eq]
    exact .unchanged _

/-- PM changes no state. -/
theorem processPm_server (message : JString) :
    (processPm env connectionId s message).server = s := by
  by_cases h : ∃ my other content, PmAccepts env connectionId s message my other content
  · obtain ⟨my, other, content, h⟩ := h
    rw [processPm_of_accepts h]
  · simp only [not_exists] at h
    exact (processPm_refusal h).server_eq

theorem effect_block (message : JString) :
    Effect s (.request env connectionId (str "12" ++ message))
      (processBlock env connectionId s message).server := by
  by_cases h : ∃ my other, BlockAccepts env connectionId s message my other
  · obtain ⟨my, other, h⟩ := h
    rw [processBlock_of_accepts h]
    exact .block h
  · simp only [not_exists] at h
    rw [(processBlock_refusal h).server_eq]
    exact .unchanged _

/-- Every frame has one of the listed effects. -/
theorem effect_process (env : Surroundings) (hmem : connectionId ∈ s.connectionsMap)
    (message : JString) :
    Effect s (.request env connectionId message) (process env connectionId s message).server := by
  by_cases hlen : message.length < 2
  · rw [process_of_short hlen]
    exact .unchanged _
  · obtain ⟨op, text, rfl, hop⟩ : ∃ op text, message = op ++ text ∧ op.length = 2 :=
      ⟨message.take 2, message.drop 2, (List.take_append_drop 2 message).symm, by
        rw [List.length_take]
        omega⟩
    rw [process_of_opcode hop, dispatch]
    split
    case isTrue h₁ => exact h₁ ▸ effect_register text
    split
    case isTrue h₂ => exact h₂ ▸ effect_login hmem text
    split
    case isTrue h₃ => exact h₃ ▸ effect_logout text
    split
    case isTrue h₄ => exact h₄ ▸ effect_follow text
    split
    case isTrue h₅ => exact h₅ ▸ effect_post text
    split
    case isTrue =>
      rw [processPm_server]
      exact .unchanged _
    split
    case isTrue =>
      rw [processLogstat_server]
      exact .unchanged _
    split
    case isTrue =>
      rw [processStat_server]
      exact .unchanged _
    split
    case isTrue h₁₂ => exact h₁₂ ▸ effect_block text
    case isFalse => exact .unchanged _

end Requests

/-- **The step lemma**: the next state is an effect of the event. -/
theorem effect_next (mode : ServerMode) (s : Server) (e : Event) :
    Effect s e ((serverMachine mode).next s e) := by
  cases e with
  | accept => exact .accept
  | request env connectionId message =>
    by_cases hmem : connectionId ∈ s.connectionsMap
    · rw [next_request_of_mem mode s hmem]
      exact effect_process env hmem message
    · rw [next_request_of_not_mem mode s hmem]
      exact .unchanged _

section Steps

variable (mode : ServerMode) {s : Server} {env : Surroundings} {connectionId : ℤ}

/-- The state after an accepted LOGIN. -/
theorem next_login (hmem : connectionId ∈ s.connectionsMap) {message username : JString}
    {r : UserRef} (h : LoginAccepts env s message username r) :
    (serverMachine mode).next s (.request env connectionId (str "02" ++ message)) =
      startSession connectionId s username r := by
  rw [next_request_of_mem mode s hmem, process_02, processLogin_server_of_accepts h]

/-- The state after an accepted LOGOUT. -/
theorem next_logout (hmem : connectionId ∈ s.connectionsMap) {r : UserRef}
    (h : env.findActive s connectionId = some r) (message : JString) :
    (serverMachine mode).next s (.request env connectionId (str "03" ++ message)) =
      s.modifyUser r User.deActivate := by
  rw [next_request_of_mem mode s hmem, process_03, processLogout_of_session h]

end Steps

end SplNet
