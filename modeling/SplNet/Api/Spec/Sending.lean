import SplNet.Api.BidiMessagingProtocolImpl

/-!
# Sending and refusing

Two facts every command's specification rests on. Every message the server builds outside LOGSTAT is
`Sendable`: its encoding cannot fail, so sending it never throws. And a command that is not carried
out is a `Refusal`: an error answer or an exception, with nothing changed and nothing else sent.
-/

namespace SplNet

open Java

/-! ### Messages that can be sent -/

/-- A message whose encoding cannot fail. -/
def Sendable (msg : JString) : Prop :=
  4 ≤ msg.length ∧ msg.take 4 ≠ str "1007" ∧ msg.take 4 ≠ str "1008"

instance (msg : JString) : Decidable (Sendable msg) :=
  inferInstanceAs (Decidable (_ ∧ _ ∧ _))

theorem Sendable.send_eq {msg : JString} (h : Sendable msg) (s : Server) (connectionId : ℤ) :
    s.send connectionId msg = ⟨s, s.delivery connectionId msg, none⟩ :=
  Server.send_of_encode (encode_isOk h.1 h.2.1 h.2.2)

theorem Sendable.send_of_mem {msg : JString} (h : Sendable msg) {s : Server} {connectionId : ℤ}
    (hmem : connectionId ∈ s.connectionsMap) :
    s.send connectionId msg = ⟨s, [(connectionId, msg)], none⟩ := by
  rw [h.send_eq, Server.delivery_of_mem hmem]

/-- Only acknowledgements can fail to be encoded. -/
theorem sendable_of_take_two {msg : JString} (hlen : 4 ≤ msg.length)
    (h : msg.take 2 ≠ str "10") : Sendable msg := by
  have htake : msg.take 2 = (msg.take 4).take 2 := by rw [List.take_take]; rfl
  refine ⟨hlen, fun h7 ↦ h ?_, fun h8 ↦ h ?_⟩
  · rw [htake, h7]
    rfl
  · rw [htake, h8]
    rfl

theorem sendable_notification (kind : JString) {author content : JString} (hkind : kind.length = 3)
    (h : kind.take 2 = str "09") : Sendable (notification kind author content) := by
  apply sendable_of_take_two
  · simp only [notification, List.length_append, hkind, List.length_cons, List.length_nil]
    omega
  · rw [notification, List.append_assoc, List.append_assoc, List.append_assoc,
      List.take_append_of_le_length (by omega), h]
    decide

theorem sendable_followAck {action text : JString} (h : str "10040" <+: action) :
    Sendable (action ++ text) := by
  obtain ⟨rest, rfl⟩ := h
  have htake : (str "10040" ++ rest ++ text).take 4 = str "1004" := by
    rw [List.append_assoc, List.take_append_of_le_length (by decide)]
    rfl
  refine ⟨?_, ?_, ?_⟩
  · have : (str "10040").length = 5 := rfl
    simp only [List.length_append, this]
    omega
  · rw [htake]
    decide
  · rw [htake]
    decide

/-- A text has one start of each length. -/
theorem not_start_of_start {p q m : JString} (hp : p <+: m) (hlen : p.length = q.length)
    (hne : p ≠ q) : ¬ q <+: m := by
  intro hq
  obtain ⟨rest, rfl⟩ := hp
  obtain ⟨rest', hrest'⟩ := hq
  exact hne (List.append_inj hrest' hlen.symm).1.symm

/-- A notification starts with `09`. -/
theorem notification_start {kind author content : JString} (h : str "09" <+: kind) :
    str "09" <+: notification kind author content := by
  obtain ⟨rest, rfl⟩ := h
  exact ⟨rest ++ author ++ [nul] ++ content ++ [nul], by simp [notification]⟩

/-! ### Refusals -/

/-- The outcome of a command that is not carried out: an error answer, or an exception before
anything was done. -/
inductive Refusal (connectionId : ℤ) (s : Server) (optCode : JString) : Outcome → Prop
  | error : Refusal connectionId s optCode
      ⟨s, s.delivery connectionId (str "11" ++ optCode), none⟩
  | thrown (e : JException) : Refusal connectionId s optCode (.throws s e)

namespace Refusal

variable {connectionId : ℤ} {s : Server} {optCode : JString} {o : Outcome}

theorem server_eq (h : Refusal connectionId s optCode o) : o.server = s := by
  cases h <;> rfl

theorem sent_eq (h : Refusal connectionId s optCode o) :
    o.sent = s.delivery connectionId (str "11" ++ optCode) ∨ o.sent = [] := by
  cases h
  case error => exact Or.inl rfl
  case thrown => exact Or.inr rfl

theorem sent_of_thrown_none (h : Refusal connectionId s optCode o) (hnone : o.thrown = none) :
    o.sent = s.delivery connectionId (str "11" ++ optCode) := by
  cases h
  case error => rfl
  case thrown e => simp [Outcome.throws] at hnone

theorem sent_of_thrown (h : Refusal connectionId s optCode o) (hsome : o.thrown ≠ none) :
    o.sent = [] := by
  cases h
  case error => simp at hsome
  case thrown => rfl

theorem of_send (h : Sendable (str "11" ++ optCode)) :
    Refusal connectionId s optCode (s.send connectionId (str "11" ++ optCode)) := by
  rw [h.send_eq]
  exact .error

end Refusal

end SplNet
