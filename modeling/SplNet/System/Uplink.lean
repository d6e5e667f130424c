import SplNet.Foundations.RunHistory
import SplNet.Srv.ClientRequests
import SplNet.System.Network

/-!
# From the keyboards to the handlers

What the handler of a connection takes up, whatever happens on the others: **the frames of the lines
its client was given, in order, each once** (`frames_in_order`). A line without `';'` is one frame,
or none if it is not a command (`lineFrame`). The frames that have not arrived are those of the
bytes still under way, so nothing is missing once no byte is (`frames_eq`).
-/

namespace SplNet

open Java Client LabelledMachine

/-- The frame a line is sent as. -/
def lineFrame (line : List UInt8) : Option JString :=
  if encodedLine line = [] then none else some (utf8Decode (encodedLine line).dropLast)

theorem lineFrame_of_encodedLine {line frame : List UInt8}
    (h : encodedLine line = frame ++ [Decoder.semicolon]) :
    lineFrame line = some (utf8Decode frame) := by
  rw [lineFrame, if_neg (by simp [h]), h, List.dropLast_concat]

theorem lineFrame_of_nil {line : List UInt8} (h : encodedLine line = []) :
    lineFrame line = none :=
  if_pos h

/-- The frame of a line without `\0` and `';'` is a request of the client. -/
theorem isClientRequest_of_lineFrame {line : List UInt8}
    (hline : 0 ∉ line ∧ Decoder.semicolon ∉ line) {message : JString}
    (h : lineFrame line = some message) : IsClientRequest message := by
  rcases encodedLine_eq_nil_or line with hnil | ⟨frame, hframe⟩
  · rw [lineFrame_of_nil hnil] at h
    exact absurd h (by simp)
  · rw [lineFrame_of_encodedLine hframe] at h
    exact ⟨line, frame, hline.1, hline.2, hframe, (Option.some.inj h).symm⟩

/-- The bytes of lines without `';'` are frames with a `';'` behind each. -/
theorem flatMap_encodedLine {lines : List (List UInt8)}
    (hlines : ∀ line ∈ lines, Decoder.semicolon ∉ line) :
    ∃ frames : List (List UInt8), (∀ frame ∈ frames, Decoder.semicolon ∉ frame) ∧
      lines.flatMap encodedLine = frames.flatMap (· ++ [Decoder.semicolon]) ∧
      lines.filterMap lineFrame = frames.map utf8Decode := by
  induction lines with
  | nil => exact ⟨[], fun _ h ↦ absurd h List.not_mem_nil, rfl, rfl⟩
  | cons line lines ih =>
    rw [List.forall_mem_cons] at hlines
    obtain ⟨frames, hclean, hbytes, hframes⟩ := ih hlines.2
    rcases encodedLine_eq_nil_or line with hnil | ⟨frame, hframe⟩
    · refine ⟨frames, hclean, ?_, ?_⟩
      · rw [List.flatMap_cons, hnil, List.nil_append, hbytes]
      · rw [List.filterMap_cons_none (lineFrame_of_nil hnil), hframes]
    · refine ⟨frame :: frames, ?_, ?_, ?_⟩
      · exact List.forall_mem_cons.2 ⟨semicolon_not_mem_frame hlines.1 hframe, hclean⟩
      · rw [List.flatMap_cons, List.flatMap_cons, hbytes, hframe]
      · rw [List.filterMap_cons_some (lineFrame_of_encodedLine hframe), hframes, List.map_cons]

/-! ### The decoder on a part of a stream -/

namespace Decoder

variable {d d' : Decoder} {bytes : List UInt8} {messages : List JString}

/-- Without a `';'` nothing is decoded. -/
theorem messages_eq_nil (hbytes : semicolon ∉ bytes)
    (h : d.decodeBytes bytes = some (d', messages)) : messages = [] := by
  have hlen := length_of_decodeBytes h
  rw [List.count_eq_zero.2 hbytes] at hlen
  exact List.length_eq_zero_iff.1 hlen

/-- A frame that can be decoded is decoded, and leaves the decoder empty. -/
theorem decodeBytes_frame_eq_some (hsize : d.WellSized) (hempty : d.bytes = [])
    {frame : List UInt8} (hframe : semicolon ∉ frame)
    (h : d.decodeBytes (frame ++ [semicolon]) = some (d', messages)) :
    messages = [utf8Decode frame] ∧ d'.WellSized ∧ d'.bytes = [] := by
  rcases Nat.lt_or_ge frameLimit frame.length with hlong | hshort
  · rw [decodeBytes_of_too_long hsize hframe (by rw [hempty]; simpa using hlong)] at h
    exact absurd h (by simp)
  · obtain ⟨d₁, hdecode, hsize₁, hempty₁⟩ := decodeBytes_frame hsize hempty hframe hshort
    rw [hdecode] at h
    obtain ⟨rfl, rfl⟩ := Prod.mk.inj (Option.some.inj h)
    exact ⟨rfl, hsize₁, hempty₁⟩

/-- **From a part of the bytes of a list of frames, the first frames are decoded.** -/
theorem decodeBytes_in_order (hsize : d.WellSized) (hempty : d.bytes = [])
    {frames : List (List UInt8)} (hframes : ∀ frame ∈ frames, semicolon ∉ frame)
    (hbytes : bytes <+: frames.flatMap (· ++ [semicolon]))
    (h : d.decodeBytes bytes = some (d', messages)) :
    messages <+: frames.map utf8Decode := by
  induction frames generalizing d bytes messages with
  | nil =>
    obtain rfl := List.prefix_nil.1 hbytes
    rw [messages_eq_nil List.not_mem_nil h]
    exact List.nil_prefix
  | cons frame frames ih =>
    rw [List.forall_mem_cons] at hframes
    rw [List.flatMap_cons] at hbytes
    rcases Nat.lt_or_ge frame.length bytes.length with hlt | hge
    · -- the first frame is there, with its `';'`
      obtain ⟨rest, rfl⟩ : frame ++ [semicolon] <+: bytes := by
        refine List.prefix_of_prefix_length_le (List.prefix_append _ _) hbytes ?_
        rw [List.length_append, List.length_singleton]
        exact hlt
      obtain ⟨d₁, first, others, hfirst, hothers, rfl⟩ := exists_decodeBytes_append h
      obtain ⟨rfl, hsize₁, hempty₁⟩ := decodeBytes_frame_eq_some hsize hempty hframes.1 hfirst
      have hrest := ih hsize₁ hempty₁ hframes.2 ((List.prefix_append_right_inj _).1 hbytes) hothers
      rw [List.map_cons, List.singleton_append]
      exact List.prefix_cons_inj _ |>.2 hrest
    · have hle : bytes <+: frame := by
        rw [List.append_assoc] at hbytes
        exact List.prefix_of_prefix_length_le hbytes (List.prefix_append _ _) hge
      rw [messages_eq_nil (fun hmem ↦ hframes.1 (hle.subset hmem)) h]
      exact List.nil_prefix

end Decoder

/-! ### Along a run -/

section Run

variable {es : List NetworkEvent} {c : ℤ}

/-- What the client of a connection was given over a run. -/
abbrev typedLines (es : List NetworkEvent) (c : ℤ) : List (List UInt8) :=
  (networkMachine.outputs es).flatMap (·.typedOn c)

/-- What the handler of a connection has taken up over a run. -/
abbrev takenFrames (es : List NetworkEvent) (c : ℤ) : List JString :=
  (networkMachine.outputs es).flatMap (·.framesOn c)

/-- The bytes of the lines are those the handler has read, and then those under way. -/
theorem bytes_accounted (es : List NetworkEvent) (c : ℤ) :
    (typedLines es c).flatMap encodedLine =
      (networkMachine.outputs es).flatMap (·.receivedOn c) ++
        ((networkMachine.stateAfter es).link c).toServer := by
  have h := fifo_accounted (M := networkMachine) (f := fun w ↦ (w.link c).toServer)
    (i := fun r ↦ (r.typedOn c).flatMap encodedLine) (o := fun r ↦ r.receivedOn c) rfl
    (fun w e _ ↦ (linkStep_networkStep c w e).toServer) es
  rw [List.flatMap_assoc]
  exact h

/-- The decoder of the handler has read these bytes, and decoded these frames. -/
theorem decoded_along (es : List NetworkEvent) (c : ℤ) :
    Decoder.new.decodeBytes ((networkMachine.outputs es).flatMap (·.receivedOn c)) =
      some (((networkMachine.stateAfter es).link c).encdec, takenFrames es c) := by
  refine history_along (M := networkMachine)
    (P := fun os w ↦ Decoder.new.decodeBytes (os.flatMap (·.receivedOn c)) =
      some ((w.link c).encdec, os.flatMap (·.framesOn c))) rfl ?_ (List.prefix_refl es)
  intro pre e hocc ih
  rw [List.flatMap_append, List.flatMap_append, List.flatMap_singleton, List.flatMap_singleton]
  exact Decoder.decodeBytes_append ih (linkStep_networkStep c _ e).encdec

/-- **The frames a handler takes up are those of the lines its client was given, in order.** -/
theorem frames_in_order (hlines : ∀ line ∈ typedLines es c, Decoder.semicolon ∉ line) :
    takenFrames es c <+: (typedLines es c).filterMap lineFrame := by
  obtain ⟨frames, hclean, hbytes, hframes⟩ := flatMap_encodedLine hlines
  have hread : (networkMachine.outputs es).flatMap (·.receivedOn c) <+:
      frames.flatMap (· ++ [Decoder.semicolon]) := by
    rw [← hbytes, bytes_accounted]
    exact List.prefix_append _ _
  rw [hframes]
  exact Decoder.decodeBytes_in_order Decoder.wellSized_new rfl hclean hread
    (decoded_along es c)

/-- Nothing is missing when no byte is under way. -/
theorem frames_eq (hlines : ∀ line ∈ typedLines es c, Decoder.semicolon ∉ line)
    (hdrained : ((networkMachine.stateAfter es).link c).toServer = []) :
    takenFrames es c = (typedLines es c).filterMap lineFrame := by
  obtain ⟨frames, hclean, hbytes, hframes⟩ := flatMap_encodedLine hlines
  refine (frames_in_order hlines).eq_of_length ?_
  -- there is a frame for each `';'`
  have hread := bytes_accounted es c
  rw [hdrained, List.append_nil, hbytes] at hread
  have hcount : (frames.flatMap (· ++ [Decoder.semicolon])).count Decoder.semicolon =
      frames.length := by
    clear hbytes hframes hread
    induction frames with
    | nil => rfl
    | cons frame frames ih =>
      rw [List.forall_mem_cons] at hclean
      rw [List.flatMap_cons, List.count_append, List.count_append, ih hclean.2,
        List.count_eq_zero.2 hclean.1, List.count_singleton_self, List.length_cons]
      omega
  rw [Decoder.length_of_decodeBytes (decoded_along es c), ← hread, hcount, hframes,
    List.length_map]

end Run

end SplNet
