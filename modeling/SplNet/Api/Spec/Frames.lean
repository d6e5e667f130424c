import SplNet.Api.Spec.Accounts
import SplNet.Api.Spec.Graph
import SplNet.Api.Spec.Messages

/-!
# Frames

The statistics commands change no state, and a frame is its opcode's command.
-/

namespace SplNet

open Java

section Commands

variable {env : Surroundings} {connectionId : ℤ} {s : Server} {message : JString}

/-! ### LOGSTAT and STAT -/

theorem statUser_server (my r : UserRef) :
    (statUser env connectionId my s r).server = s := by
  rw [statUser]
  split
  · split
    · exact Server.send_server _ _ _
    · rfl
  · exact Server.send_server _ _ _

theorem forEach_statUser_server (my : UserRef) (rs : List UserRef) :
    (Outcome.forEach (statUser env connectionId my) s rs).server = s := by
  induction rs with
  | nil => rfl
  | cons r rs ih =>
    have hserver : (statUser env connectionId my s r).server = s := statUser_server my r
    rw [Outcome.forEach, Outcome.andThen]
    split
    · exact hserver
    · rw [hserver]
      exact ih

theorem processLogstat_server : (processLogstat env connectionId s).server = s := by
  rw [processLogstat]
  split
  · exact forEach_statUser_server _ _
  · rfl

theorem processStat_server : (processStat env connectionId s).server = s := by
  rw [processStat]
  split
  · exact Server.send_server _ _ _
  · rfl

/-! ### Frames -/

/-- A frame that has an opcode is dispatched on it. -/
theorem process_of_opcode {optCode : JString} (h : optCode.length = 2) (message : JString) :
    process env connectionId s (optCode ++ message) =
      dispatch env connectionId s optCode message := by
  have h₁ : substring (optCode ++ message) 0 2 = .ok optCode := by
    rw [substring, if_pos ⟨by omega, by omega, by rw [List.length_append]; omega⟩]
    exact congrArg Except.ok (List.take_left' h)
  have h₂ : substringFrom (optCode ++ message) 2 = .ok message := by
    have := substringFrom_of_le (s := optCode ++ message) (n := 2)
      (by rw [List.length_append]; omega)
    rw [List.drop_left' h] at this
    exact this
  rw [process, h₁, h₂]

section Opcodes

variable (message : JString)

theorem process_01 : process env connectionId s (str "01" ++ message) =
    processRegister env connectionId s message := by
  rw [process_of_opcode rfl, dispatch, if_pos rfl]

theorem process_02 : process env connectionId s (str "02" ++ message) =
    processLogin env connectionId s message :=
  process_of_opcode rfl message

theorem process_03 : process env connectionId s (str "03" ++ message) =
    processLogout env connectionId s :=
  process_of_opcode rfl message

theorem process_04 : process env connectionId s (str "04" ++ message) =
    processFollow env connectionId s message :=
  process_of_opcode rfl message

theorem process_05 : process env connectionId s (str "05" ++ message) =
    processPost env connectionId s message :=
  process_of_opcode rfl message

theorem process_06 : process env connectionId s (str "06" ++ message) =
    processPm env connectionId s message :=
  process_of_opcode rfl message

theorem process_07 : process env connectionId s (str "07" ++ message) =
    processLogstat env connectionId s :=
  process_of_opcode rfl message

theorem process_08 : process env connectionId s (str "08" ++ message) =
    processStat env connectionId s :=
  process_of_opcode rfl message

theorem process_12 : process env connectionId s (str "12" ++ message) =
    processBlock env connectionId s message :=
  process_of_opcode rfl message

end Opcodes

/-- A frame without an opcode throws. -/
theorem process_of_short (h : message.length < 2) :
    process env connectionId s message = .throws s .stringIndexOutOfBounds := by
  have hsub : substring message 0 2 = .error .stringIndexOutOfBounds := by
    rw [substring, if_neg]
    omega
  rw [process, hsub]

end Commands

end SplNet
