import SplNet.Client.CommandLines
import SplNet.System.Messages
import SplNet.System.Uplink

/-!
# End to end

What the users of the clients can rely on, for any number of clients, any interleaving of the
handlers and any delay on the way, as long as no line has a `\0` or a `';'` in it. A line is what
`cin.getline` hands over. Each result is about everything that was typed and shown up to some point.

* The frames of the lines arrive in order, none lost and none twice (`lines_arrive`).
* The messages of the server are shown in order, none lost and none twice (`answers_arrive`).
* Replies are shown in the order of the requests, at most one for each (`replies_in_order`).
* A post that is shown was typed by its author (`shown_posts_are_authentic`).

The records of LOGSTAT are left out on the way to the client: they have a format of their own, which
the client does not get over.
-/

namespace SplNet

open Java Client LabelledMachine

/-- No line has a `\0` or a `';'`. -/
def CleanLines (es : List NetworkEvent) : Prop :=
  ∀ c line, .typed c line ∈ es → 0 ∉ line ∧ Decoder.semicolon ∉ line

/-- The client of a connection is not given the command LOGSTAT. -/
def NoLogstat (es : List NetworkEvent) (c : ℤ) : Prop :=
  ∀ line, .typed c line ∈ es → opCode line ≠ ascii "LOGSTAT"

/-- The arguments of the commands REGISTER, LOGIN and POST in the lines the clients were given. -/
def typedTexts (es : List NetworkEvent) : TypedTexts where
  account name password := ∃ c line text rest, .typed c line ∈ es ∧
    lineFrame line = some (str "01" ++ text) ∧ split text nul = name :: password :: rest
  login c password := ∃ line text name rest, .typed c line ∈ es ∧
    lineFrame line = some (str "02" ++ text) ∧ split text nul = name :: password :: rest
  post c text := ∃ line, .typed c line ∈ es ∧
    lineFrame line = some (str "05" ++ (text ++ [nul]))

/-- The messages sent to a connection over a run, while it was open. -/
abbrev sentMessages (es : List NetworkEvent) (c : ℤ) : List JString :=
  (networkMachine.outputs es).flatMap (·.sentTo c)

/-- The texts a client has shown over a run. -/
abbrev shownTexts (es : List NetworkEvent) (c : ℤ) : List (List UInt8) :=
  (networkMachine.outputs es).flatMap (·.shownOn c)

section Lines

variable {es pre : List NetworkEvent} {c : ℤ}

theorem typed_mem {line : List UInt8} (h : line ∈ typedLines es c) : .typed c line ∈ es := by
  obtain ⟨pre, e, hocc, hmem⟩ := exists_occurs_of_mem h
  obtain rfl : e = .typed c line := eq_typed_of_mem hmem
  exact hocc.subset (List.mem_append_right pre (List.mem_singleton_self _))

theorem CleanLines.mono (h : CleanLines es) (hpre : pre <+: es) : CleanLines pre :=
  fun c line hmem ↦ h c line (hpre.subset hmem)

theorem CleanLines.semicolon_not_mem (h : CleanLines es) :
    ∀ line ∈ typedLines es c, Decoder.semicolon ∉ line :=
  fun line hline ↦ (h c line (typed_mem hline)).2

/-- A frame that is taken up was typed on its connection. -/
theorem exists_line_of_taken (h : CleanLines es) {message : JString}
    (hmessage : message ∈ takenFrames es c) :
    ∃ line, .typed c line ∈ es ∧ lineFrame line = some message := by
  obtain ⟨line, hline, hframe⟩ :=
    List.mem_filterMap.1 ((frames_in_order h.semicolon_not_mem).subset hmessage)
  exact ⟨line, typed_mem hline, hframe⟩

end Lines

/-! ### What the handlers hold along a run -/

section Handlers

variable {es pre : List NetworkEvent} {c : ℤ}

/-- What all handlers leave and hold is vouched for, and they work for accepted connections. -/
structure VouchedHandlers (T : TypedTexts) (σ : Handlers) : Prop where
  server : VouchedStore T σ.server
  task : ∀ c, (σ.task c).Vouched T σ.server c
  accepted : ∀ c ∈ σ.server.connectionsMap, 0 ≤ c
  connectionId : 0 ≤ σ.server.connectionId
  working : ∀ c, σ.task c ≠ .idle → c ∈ σ.server.connectionsMap

theorem vouchedHandlers_init (T : TypedTexts) :
    VouchedHandlers T (.resting (Server.init .threadPerClient)) where
  server := ⟨fun _ ↦ ⟨List.not_mem_nil, List.not_mem_nil⟩, fun _ _ h ↦ absurd h List.not_mem_nil,
    fun _ ⟨_, h⟩ ↦ absurd h List.not_mem_nil, fun _ h ↦ absurd rfl h⟩
  task _ := trivial
  accepted _ h := absurd h List.not_mem_nil
  connectionId := Int.le_refl 0
  working _ h := absurd rfl h

/-- A posted text has no `\0`. -/
theorem CleanLines.nul_not_mem_posted (h : CleanLines es) (c : ℤ) (text : JString)
    (htext : (typedTexts es).post c text) : nul ∉ text := by
  obtain ⟨line, hmem, hframe⟩ := htext
  obtain ⟨body, hbody⟩ := (isClientRequest_of_lineFrame (h c line hmem) hframe).text_eq (by decide)
  rw [List.append_cancel_right hbody]
  exact body.2

theorem VouchedHandlers.step_vouched {T : TypedTexts} {σ : Handlers}
    (hposted : ∀ c t, T.post c t → nul ∉ t) (h : VouchedHandlers T σ) (env : Surroundings) (c : ℤ) :
    VouchedStep T σ.server c (σ.task c) (σ.stepOf env c) := by
  refine vouched_taskStep hposted h.server (h.task c) fun hwork ↦ ?_
  have hpos := h.accepted c (h.working c hwork)
  omega

theorem VouchedHandlers.move {T : TypedTexts} {σ σ' : Handlers} {r : NetworkRecord}
    (hposted : ∀ c t, T.post c t → nul ∉ t) (h : VouchedHandlers T σ) (hmove : HandlersMove σ r σ')
    (htaken : ∀ c message, message ∈ r.framesOn c → (startTask message).Vouched T σ.server c) :
    VouchedHandlers T σ' := by
  cases hmove with
  | quiet => exact h
  | accept =>
    have hsame : SameTexts σ.server σ.server.accept :=
      ⟨rfl, rfl, fun _ ↦ ⟨rfl, rfl, rfl, rfl⟩⟩
    have hpos := h.connectionId
    refine ⟨h.server.of_same hsame, fun c ↦ (h.task c).mono hsame.keptAccounts, fun c hc ↦ ?_,
      ?_, fun c hc ↦ List.mem_insert_of_mem (h.working c hc)⟩
    · rcases List.mem_insert_iff.1 hc with rfl | hold
      · exact hpos
      · exact h.accepted c hold
    · show 0 ≤ σ.server.connectionId + 1
      omega
  | @request c hidle byte message =>
    have hnew := htaken c message (by simp [NetworkRecord.framesOn])
    rw [handlersStep]
    split
    case isTrue hmem =>
      refine ⟨h.server, fun d ↦ ?_, h.accepted, h.connectionId, fun d hd ↦ ?_⟩
      · show HandlerTask.Vouched T σ.server d (if d = c then startTask message else σ.task d)
        split
        case isTrue heq =>
          rw [heq]
          exact hnew
        case isFalse => exact h.task d
      · rcases eq_or_ne d c with rfl | hne
        · exact hmem.1
        · exact h.working d fun hd' ↦ hd ((if_neg hne).trans hd')
    case isFalse => exact h
  | @step env c messages hsent =>
    have hstep := h.step_vouched hposted env c
    refine ⟨hstep.server, fun d ↦ ?_, fun d hd ↦ ?_, ?_, fun d hd ↦ ?_⟩
    · show HandlerTask.Vouched T (σ.stepOf env c).server d
        (if d = c then (σ.stepOf env c).task else σ.task d)
      split
      case isTrue heq =>
        rw [heq]
        exact hstep.goesOn
      case isFalse => exact (h.task d).mono hstep.kept
    · exact h.accepted d (hstep.connections.1 ▸ hd)
    · exact hstep.connections.2 ▸ h.connectionId
    · show d ∈ (σ.stepOf env c).server.connectionsMap
      rw [hstep.connections.1]
      rcases eq_or_ne d c with rfl | hne
      · refine h.working d fun hidle ↦ hd ((if_pos rfl).trans ?_)
        rw [Handlers.stepOf, hidle]
        rfl
      · exact h.working d fun hidle ↦ hd ((if_neg hne).trans hidle)

/-- **All along a run, everything is vouched for by what was typed.** -/
theorem vouched_along (h : CleanLines es) (hpre : pre <+: es) :
    VouchedHandlers (typedTexts es) (networkMachine.stateAfter pre).handlers := by
  refine invariant_along (M := networkMachine)
    (P := fun w ↦ VouchedHandlers (typedTexts es) w.handlers)
    (vouchedHandlers_init _) ?_ hpre
  intro pre e hocc hvouched
  refine hvouched.move h.nul_not_mem_posted (handlersMove_networkStep _ e) ?_
  intro c message hmessage
  have htaken : message ∈ takenFrames (pre ++ [e]) c := by
    show message ∈ List.flatMap _ (networkMachine.outputs (pre ++ [e]))
    rw [outputs_concat, List.flatMap_append, List.flatMap_singleton]
    exact List.mem_append_right _ hmessage
  obtain ⟨line, hline, hframe⟩ := exists_line_of_taken (h.mono hocc) htaken
  have hmem := hocc.subset hline
  refine startTask_vouched (isClientRequest_of_lineFrame (h c line hmem) hframe) ?_ ?_ ?_
  · rintro text username password rest rfl hargs
    exact ⟨c, line, text, rest, hmem, hframe, hargs⟩
  · rintro text username password rest rfl hargs
    exact ⟨line, text, username, rest, hmem, hframe, hargs⟩
  · rintro text rfl
    exact ⟨line, hmem, hframe⟩

end Handlers

/-! ### The replies -/

/-- The opcode of the request a line is. -/
def lineOpcode (line : List UInt8) : Option JString := (lineFrame line).map (·.take 2)

/-- The opcode in a text that shows a reply. -/
def shownOpcode (text : List UInt8) : Option JString :=
  if ascii "ACK " <+: text then some (toText ((text.drop 4).take 2))
  else if ascii "ERROR " <+: text then some (toText ((text.drop 6).take 2))
  else none

section Opcodes

variable {line : List UInt8} {message : JString}

theorem take_two_of_lineFrame (h : lineFrame line = some message) :
    message.take 2 = toText ((encodedLine line).take 2) := by
  rcases encodedLine_eq_nil_or line with hnil | ⟨frame, hframe⟩
  · rw [lineFrame_of_nil hnil] at h
    exact absurd h (by simp)
  · obtain ⟨op, hop, body, rfl⟩ := exists_opcode hframe
    have hall : ∀ op ∈ ["01", "02", "03", "07", "04", "05", "06", "08", "12"],
        (∀ c ∈ ascii op, c < 0x80) ∧ (ascii op).length = 2 := by decide
    obtain ⟨hascii, hlen⟩ := hall op hop
    rw [lineFrame_of_encodedLine hframe, utf8Decode_ascii_append hascii] at h
    rw [← Option.some.inj h, hframe, List.take_left' (by rw [List.length_map, hlen]),
      List.append_assoc, List.take_left' hlen]
    rfl

/-- Only LOGSTAT has the opcode 07. -/
theorem take_two_ne_of_opCode (h : lineFrame line = some message)
    (hop : opCode line ≠ ascii "LOGSTAT") : message.take 2 ≠ str "07" := by
  intro h₇
  have hinj : Function.Injective UInt8.toUInt16 := by
    intro a b heq
    have hn := congrArg UInt16.toNat heq
    rw [UInt8.toNat_toUInt16, UInt8.toNat_toUInt16] at hn
    exact UInt8.toNat_inj.1 hn
  have hstart : (encodedLine line).take 2 = ascii "07" := by
    refine (List.map_injective_iff.2 hinj) ?_
    show toText _ = _
    rw [← take_two_of_lineFrame h, h₇]
    rfl
  exact hop (opCode_eq_of_take (by decide) hstart)

theorem shownOpcode_display (a : Answer) : shownOpcode a.display = replyOpcode a.message := by
  have hreply : ∀ {kind : JString} {op : Opcode}, kind = str "10" ∨ kind = str "11" →
      replyOpcode (kind ++ op.text) = some (toText op.bytes) := by
    intro kind op hkind
    have h := replyOpcode_eq hkind op.length []
    rw [List.append_nil] at h
    rw [h, op.text_eq]
    rfl
  have hack : ∀ rest : List UInt8,
      shownOpcode (ascii "ACK " ++ rest) = some (toText (rest.take 2)) := fun rest ↦ by
      rw [shownOpcode, if_pos (List.prefix_append _ _), List.drop_left' (by decide)]
  cases a with
  | ack op plain =>
    rw [Answer.display, Answer.message, hreply (.inl rfl), hack,
      List.take_left' (Answer.opcode_bytes_length op)]
  | followAck unfollow target =>
    rw [Answer.display, hack, Answer.message]
    cases unfollow with
    | false => rfl
    | true => rfl
  | error op =>
    have hne : ¬ ascii "ACK " <+: ascii "ERROR " ++ op.bytes := by
      intro h
      exact absurd (List.prefix_of_prefix_length_le h (List.prefix_append _ _) (by decide))
        (by decide)
    rw [Answer.display, Answer.message, hreply (.inr rfl), shownOpcode, if_neg hne,
      if_pos (List.prefix_append _ _), List.drop_left' (by decide),
      List.take_of_length_le (Answer.opcode_bytes_length op).le]
  | notification kind author content =>
    have hne : ∀ start ∈ [ascii "ACK ", ascii "ERROR "], ∀ rest : List UInt8,
        ¬ start <+: ascii "NOTIFICATION " ++ rest := by
      intro start hstart rest h
      have hall : ∀ start ∈ [ascii "ACK ", ascii "ERROR "],
          start.length ≤ (ascii "NOTIFICATION ").length ∧ ¬ start <+: ascii "NOTIFICATION " := by
        decide
      obtain ⟨hlen, hnot⟩ := hall start hstart
      exact hnot (List.prefix_of_prefix_length_le h (List.prefix_append _ _) hlen)
    rw [Answer.display, shownOpcode, if_neg (hne _ (by decide) _), if_neg (hne _ (by decide) _),
      Answer.message]
    cases kind with
    | post => rfl
    | pm => rfl

end Opcodes

section Run

variable {es pre : List NetworkEvent} {c : ℤ}

/-- A handler whose client is not given LOGSTAT never has it to do. -/
theorem logstat_not_due (h : CleanLines es) (hlogstat : NoLogstat es c) (hpre : pre <+: es) :
    str "07" ∉ ((networkMachine.stateAfter pre).handlers.task c).due := by
  refine invariant_along (M := networkMachine)
    (P := fun w ↦ str "07" ∉ (w.handlers.task c).due) List.not_mem_nil ?_ hpre
  intro pre e hocc hdue
  have hmove := handlersMove_networkStep (networkMachine.stateAfter pre) e
  have htaken : ∀ message,
      message ∈ (networkStep (networkMachine.stateAfter pre) e).2.framesOn c →
        message.take 2 ≠ str "07" := by
    intro message hmessage
    have hmem : message ∈ takenFrames (pre ++ [e]) c := by
      show message ∈ List.flatMap _ (networkMachine.outputs (pre ++ [e]))
      rw [outputs_concat, List.flatMap_append, List.flatMap_singleton]
      exact List.mem_append_right _ hmessage
    obtain ⟨line, hline, hframe⟩ := exists_line_of_taken (h.mono hocc) hmem
    exact take_two_ne_of_opCode hframe (hlogstat line (hocc.subset hline))
  show str "07" ∉ ((networkStep (networkMachine.stateAfter pre) e).1.handlers.task c).due
  generalize (networkMachine.stateAfter pre).handlers = σ at hmove hdue
  generalize (networkStep (networkMachine.stateAfter pre) e).1.handlers = σ' at hmove
  generalize (networkStep (networkMachine.stateAfter pre) e).2 = r at hmove htaken
  cases hmove with
  | quiet => exact hdue
  | accept => exact hdue
  | @request d hidle byte message =>
    rw [handlersStep]
    split
    · show str "07" ∉ HandlerTask.due (if c = d then startTask message else σ.task c)
      split
      case isTrue heq =>
        have hne := htaken message (by simp [NetworkRecord.framesOn, heq])
        exact fun hmem ↦
          hne (List.mem_singleton.1 ((startTask_due message).subset hmem)).symm
      case isFalse => exact hdue
    · exact hdue
  | step env d =>
    show str "07" ∉ HandlerTask.due (if c = d then (σ.stepOf env d).task else σ.task c)
    split
    case isTrue heq =>
      subst heq
      have hpays : PaysReplies c (σ.task c) (σ.stepOf env c) :=
        paysReplies_taskStep env c σ.server (σ.task c) fun f hf h₇ ↦ hdue (by
          rw [hf]
          exact List.mem_singleton.2 h₇.symm)
      exact fun hmem ↦ hdue (hpays.own.subset (List.mem_append_right _ hmem))
    case isFalse => exact hdue

/-- What an event has to do with the replies to one connection. -/
theorem due_networkStep (w : Network) (e : NetworkEvent)
    (h₇ : str "07" ∉ (w.handlers.task c).due) :
    (((networkStep w e).2.sentTo c).filterMap replyOpcode ++
        ((networkStep w e).1.handlers.task c).due).Sublist
      ((w.handlers.task c).due ++ ((networkStep w e).2.framesOn c).map (·.take 2)) := by
  have hmove := handlersMove_networkStep w e
  generalize w.handlers = σ at hmove h₇
  generalize (networkStep w e).1.handlers = σ' at hmove
  generalize (networkStep w e).2 = r at hmove
  cases hmove with
  | quiet hframes hsent =>
    rw [hframes, hsent, List.map_nil, List.append_nil]
    exact List.Sublist.refl _
  | accept =>
    show (σ.task c).due.Sublist ((σ.task c).due ++ [])
    rw [List.append_nil]
  | @request d hidle byte message =>
    show (((handlersStep σ (.request d message)).1.task c).due).Sublist _
    rw [handlersStep]
    split
    · show (HandlerTask.due (if c = d then startTask message else σ.task c)).Sublist _
      split
      case isTrue heq =>
        subst heq
        rw [hidle]
        simpa [NetworkRecord.framesOn, HandlerTask.due] using startTask_due message
      case isFalse => exact List.sublist_append_left _ _
    · exact List.sublist_append_left _ _
  | @step env d messages hsent =>
    have hreplies : (repliesTo c messages).Sublist (repliesTo c (σ.stepOf env d).sent) :=
      ((hsent.filter _).map _).filterMap replyOpcode
    show (repliesTo c messages ++
      HandlerTask.due (if c = d then (σ.stepOf env d).task else σ.task c)).Sublist
        ((σ.task c).due ++ [])
    rw [List.append_nil]
    refine (hreplies.append_right _).trans ?_
    split
    case isTrue heq =>
      subst heq
      have hpays : PaysReplies c (σ.task c) (σ.stepOf env c) :=
        paysReplies_taskStep env c σ.server (σ.task c) fun f hf h ↦ h₇ (by
          rw [hf]
          exact List.mem_singleton.2 h.symm)
      exact hpays.own
    case isFalse hne =>
      have hnone : repliesTo c (σ.stepOf env d).sent = [] := repliesTo_other env _ _ hne
      rw [hnone]
      exact List.Sublist.refl _

/-- What is replied to a connection, and then what is still due, is for its frames, in order. -/
theorem replies_sublist (h : CleanLines es) (hlogstat : NoLogstat es c) :
    ((sentMessages es c).filterMap replyOpcode).Sublist
      ((takenFrames es c).map (·.take 2)) := by
  have hlossy := lossy_fifo_along (M := networkMachine)
    (f := fun w ↦ (w.handlers.task c).due)
    (i := fun r ↦ (r.framesOn c).map fun message : JString ↦ message.take 2)
    (o := fun r ↦ (r.sentTo c).filterMap replyOpcode) rfl
    (fun pre e hocc ↦ due_networkStep (networkMachine.stateAfter pre) e
      (logstat_not_due h hlogstat hocc.before)) (List.prefix_refl es)
  rw [List.filterMap_flatMap, List.map_flatMap]
  exact (List.sublist_append_left _ _).trans hlossy

/-! ### What is sent and shown -/

theorem wire_message (a : Answer) : wire a.message = a.bytes := by
  rw [wire, a.encode_message]

theorem flatMap_wire (as : List Answer) :
    (as.map Answer.message).flatMap wire = (as.map Answer.bytes).flatten := by
  rw [List.flatMap_map, ← List.flatMap_def]
  exact List.flatMap_congr fun a _ ↦ wire_message a

/-- Everything sent to a connection without LOGSTAT is an answer that is vouched for. -/
theorem exists_answers (h : CleanLines es) (hlogstat : NoLogstat es c) {e : NetworkEvent}
    (hocc : Occurs es pre e) :
    ∃ as : List Answer, (networkStep (networkMachine.stateAfter pre) e).2.sentTo c =
        as.map Answer.message ∧ ∀ a ∈ as, a.Vouched (typedTexts es) := by
  have hvouched : VouchedHandlers (typedTexts es) (networkMachine.stateAfter pre).handlers :=
    vouched_along h hocc.before
  have h₇ := logstat_not_due h hlogstat hocc.before
  have hmove := handlersMove_networkStep (networkMachine.stateAfter pre) e
  have hall : ∀ m ∈ (networkStep (networkMachine.stateAfter pre) e).2.sentTo c,
      ∃ a : Answer, a.Vouched (typedTexts es) ∧ m = a.message := by
    generalize (networkMachine.stateAfter pre).handlers = σ at hmove hvouched h₇
    generalize (networkStep (networkMachine.stateAfter pre) e).1.handlers = σ' at hmove
    generalize (networkStep (networkMachine.stateAfter pre) e).2 = r at hmove
    intro m hm
    cases hmove with
    | quiet hframes hsent =>
      rw [hsent] at hm
      exact absurd hm List.not_mem_nil
    | accept => exact absurd hm List.not_mem_nil
    | request => exact absurd hm List.not_mem_nil
    | @step env d messages hsent =>
      obtain ⟨⟨c', m'⟩, hsentTo, rfl⟩ := List.mem_map.1 hm
      obtain ⟨hmem, hc⟩ := List.mem_filter.1 hsentTo
      obtain rfl : c' = c := by simpa using hc
      have hstep := hvouched.step_vouched h.nul_not_mem_posted env d
      rcases hstep.sent c' m' (hsent.subset hmem) with hanswer | ⟨rfl, f, hf, hop⟩
      · exact hanswer
      · refine absurd ?_ h₇
        rw [hf]
        exact List.mem_singleton.2 hop.symm
  generalize (networkStep (networkMachine.stateAfter pre) e).2.sentTo c = ms at hall
  clear h₇ hmove hvouched
  induction ms with
  | nil => exact ⟨[], rfl, fun a ha ↦ absurd ha List.not_mem_nil⟩
  | cons m ms ih =>
    rw [List.forall_mem_cons] at hall
    obtain ⟨⟨a, ha, rfl⟩, hrest⟩ := hall
    obtain ⟨as, rfl, has⟩ := ih hrest
    exact ⟨a :: as, rfl, List.forall_mem_cons.2 ⟨ha, has⟩⟩

end Run

/-! ### A run -/

/-- The handler of the first connection reads so many bytes, and makes so many steps. -/
def serve (bytes steps : ℕ) : List NetworkEvent :=
  List.replicate bytes (.receive 0) ++ List.replicate steps (.step .listed 0)

/-- A user registers, logs in, and mentions itself in a post. -/
def selfMention : List NetworkEvent :=
  [.connect, .typed 0 (ascii "REGISTER a p 1"), .typed 0 (ascii "LOGIN a p 1"),
      .typed 0 (ascii "POST @a.")] ++
    serve 9 3 ++ serve 8 7 ++ serve 7 10 ++ List.replicate 4 (.display 0)

theorem shownTexts_selfMention : shownTexts selfMention 0 =
    [ascii "ACK 01 ", ascii "ACK 02 ", ascii "NOTIFICATION Public a @a.", ascii "ACK 05 "] := by
  decide +kernel

/-- The lines of the run. -/
theorem typed_selfMention {c : ℤ} {line : List UInt8} (h : .typed c line ∈ selfMention) :
    line ∈ [ascii "REGISTER a p 1", ascii "LOGIN a p 1", ascii "POST @a."] := by
  simp only [selfMention, serve, List.mem_append, List.mem_cons, List.mem_replicate,
    List.not_mem_nil, reduceCtorEq, and_false, or_false, false_or,
    NetworkEvent.typed.injEq] at h
  simp only [List.mem_cons, List.not_mem_nil, or_false]
  rcases h with ⟨-, h⟩ | ⟨-, h⟩ | ⟨-, h⟩
  · exact .inl h
  · exact .inr (.inl h)
  · exact .inr (.inr h)

theorem cleanLines_selfMention : CleanLines selfMention := by
  intro c line hline
  have hall : ∀ line ∈ [ascii "REGISTER a p 1", ascii "LOGIN a p 1", ascii "POST @a."],
      0 ∉ line ∧ Decoder.semicolon ∉ line := by decide
  exact hall line (typed_selfMention hline)

theorem noLogstat_selfMention : NoLogstat selfMention 0 := by
  intro line hline
  have hall : ∀ line ∈ [ascii "REGISTER a p 1", ascii "LOGIN a p 1", ascii "POST @a."],
      opCode line ≠ ascii "LOGSTAT" := by decide
  exact hall line (typed_selfMention hline)

/-! ### The results -/

section Results

variable {es : List NetworkEvent} {c : ℤ}

/-- **Lines arrive.** Whatever happens on the other connections, the frames the handler of a
connection takes up are those of the lines its client was given, in order, each once; and none is
missing when no byte is under way. -/
theorem lines_arrive (es : List NetworkEvent) (c : ℤ)
    (hlines : ∀ line, .typed c line ∈ es → Decoder.semicolon ∉ line) :
    takenFrames es c <+: (typedLines es c).filterMap lineFrame ∧
      (((networkMachine.stateAfter es).link c).toServer = [] →
        takenFrames es c = (typedLines es c).filterMap lineFrame) :=
  ⟨frames_in_order fun line hline ↦ hlines line (typed_mem hline),
    frames_eq fun line hline ↦ hlines line (typed_mem hline)⟩

theorem lines_arrive_selfMention :
    takenFrames selfMention 0 <+:
        (typedLines selfMention 0).filterMap lineFrame ∧
      (((networkMachine.stateAfter selfMention).link 0).toServer = [] →
        takenFrames selfMention 0 =
          (typedLines selfMention 0).filterMap lineFrame) :=
  lines_arrive selfMention 0 fun line h ↦ (cleanLines_selfMention 0 line h).2

/-- What was sent to a connection are answers: first those its client has shown, and then those
whose bytes are under way. -/
theorem answers_accounted (h : CleanLines es) (hlogstat : NoLogstat es c) :
    ∃ shown waiting : List Answer,
      sentMessages es c = (shown ++ waiting).map Answer.message ∧
      shownTexts es c = shown.map Answer.display ∧
      ((networkMachine.stateAfter es).link c).toClient =
        (waiting.map Answer.bytes).flatten ∧
      ∀ a ∈ shown ++ waiting, a.Vouched (typedTexts es) := by
  refine history_along (M := networkMachine)
    (P := fun os w ↦ ∃ shown waiting : List Answer,
      os.flatMap (·.sentTo c) = (shown ++ waiting).map Answer.message ∧
      os.flatMap (·.shownOn c) = shown.map Answer.display ∧
      (w.link c).toClient = (waiting.map Answer.bytes).flatten ∧
      ∀ a ∈ shown ++ waiting, a.Vouched (typedTexts es))
    ⟨[], [], rfl, rfl, rfl, fun a ha ↦ absurd ha List.not_mem_nil⟩ ?_ (List.prefix_refl es)
  rintro pre e hocc ⟨shown, waiting, hsent, hshown, hbytes, hvouched⟩
  have hlink := (linkStep_networkStep c (networkMachine.stateAfter pre) e).toClient
  show ∃ shown waiting : List Answer,
    (_ ++ [(networkStep (networkMachine.stateAfter pre) e).2]).flatMap _ = _ ∧
    (_ ++ [(networkStep (networkMachine.stateAfter pre) e).2]).flatMap _ = _ ∧
    ((networkStep (networkMachine.stateAfter pre) e).1.link c).toClient = _ ∧ _
  simp only [List.flatMap_append, List.flatMap_singleton, hsent, hshown]
  rcases hlink with ⟨hnone, hnew, -⟩ | ⟨text, hone, hnone, -, hdecode⟩
  · -- messages are sent
    obtain ⟨as, has, hvouchedNew⟩ := exists_answers h hlogstat hocc
    refine ⟨shown, waiting ++ as, ?_, ?_, ?_, ?_⟩
    · rw [has, ← List.map_append, List.append_assoc]
    · rw [hnone, List.append_nil]
    · rw [hnew, hbytes, has, flatMap_wire, List.map_append, List.flatten_append]
    · rw [← List.append_assoc]
      exact List.forall_mem_append.2 ⟨hvouched, hvouchedNew⟩
  · -- a message is shown
    rw [hbytes] at hdecode
    rcases waiting with - | ⟨a, waiting⟩
    · exact absurd hdecode (by simp [decoder, getBytes])
    · rw [List.map_cons, List.flatten_cons] at hdecode
      obtain ⟨flags', hread⟩ := a.decoder_bytes
        ((networkMachine.stateAfter pre).link c).flags (waiting.map Answer.bytes).flatten
      rw [hread] at hdecode
      obtain ⟨-, htext, hrest⟩ : flags' = _ ∧ a.display = text ∧ _ := by
        simpa using hdecode
      refine ⟨shown ++ [a], waiting, ?_, ?_, ?_, ?_⟩
      · rw [hnone, List.append_nil, List.append_assoc]
        rfl
      · rw [hone, List.map_append, List.map_singleton, htext]
      · exact hrest.symm
      · rw [List.append_assoc]
        exact hvouched

/-- No answer has no bytes. -/
theorem eq_nil_of_flatten_bytes {waiting : List Answer}
    (h : (waiting.map Answer.bytes).flatten = []) : waiting = [] := by
  rcases waiting with - | ⟨a, waiting⟩
  · rfl
  · rw [List.map_cons, List.flatten_cons] at h
    obtain ⟨flags, hread⟩ := a.decoder_bytes ⟨false, false, false⟩ []
    rw [(List.append_eq_nil_iff.1 h).1] at hread
    exact absurd hread (by simp [decoder, getBytes])

/-- When no byte is under way to its client, everything sent to a connection has been shown. -/
theorem answers_shown (h : CleanLines es) (hlogstat : NoLogstat es c)
    (hdrained : ((networkMachine.stateAfter es).link c).toClient = []) :
    ∃ answers : List Answer, sentMessages es c = answers.map Answer.message ∧
      shownTexts es c = answers.map Answer.display := by
  obtain ⟨shown, waiting, hsent, hshown, hbytes, -⟩ := answers_accounted h hlogstat
  obtain rfl := eq_nil_of_flatten_bytes (hbytes.symm.trans hdrained)
  rw [List.append_nil] at hsent
  exact ⟨shown, hsent, hshown⟩

/-- **Answers arrive.** The messages the handlers have sent to a connection are answers, and its
client shows them as what they are, in order, each once; all have been shown when no byte is under
way. -/
theorem answers_arrive (h : CleanLines es) (hlogstat : NoLogstat es c) :
    ∃ answers : List Answer,
      sentMessages es c = answers.map Answer.message ∧
      shownTexts es c <+: answers.map Answer.display ∧
      (((networkMachine.stateAfter es).link c).toClient = [] →
        shownTexts es c = answers.map Answer.display) := by
  obtain ⟨shown, waiting, hsent, hshown, -, -⟩ := answers_accounted h hlogstat
  refine ⟨shown ++ waiting, hsent, ?_, fun hdrained ↦ ?_⟩
  · rw [hshown, List.map_append]
    exact List.prefix_append _ _
  · obtain ⟨answers, hsent', hshown'⟩ := answers_shown h hlogstat hdrained
    have hlen : (shown ++ waiting).length = answers.length := by
      rw [← List.length_map (f := Answer.message), ← hsent, hsent', List.length_map]
    have hprefix : shownTexts es c <+: (shown ++ waiting).map Answer.display := by
      rw [hshown, List.map_append]
      exact List.prefix_append _ _
    refine hprefix.eq_of_length ?_
    rw [hshown', List.length_map, List.length_map, hlen]

theorem answers_arrive_selfMention :
    ∃ answers : List Answer,
      sentMessages selfMention 0 = answers.map Answer.message ∧
      shownTexts selfMention 0 <+: answers.map Answer.display ∧
      (((networkMachine.stateAfter selfMention).link 0).toClient = [] →
        shownTexts selfMention 0 = answers.map Answer.display) :=
  answers_arrive cleanLines_selfMention noLogstat_selfMention

/-- **Replies are shown in the order of the requests**, at most one for each: the opcodes of the
acknowledgements and errors a client has shown are among those of the lines it was given, in the
same order. -/
theorem replies_in_order (h : CleanLines es) (hlogstat : NoLogstat es c) :
    ((shownTexts es c).filterMap shownOpcode).Sublist
      ((typedLines es c).filterMap lineOpcode) := by
  obtain ⟨shown, waiting, hsent, hshown, -, -⟩ := answers_accounted h hlogstat
  have hreplies : (shownTexts es c).filterMap shownOpcode =
      (shown.map Answer.message).filterMap replyOpcode := by
    rw [hshown, List.filterMap_map, List.filterMap_map]
    exact List.filterMap_congr fun a _ ↦ shownOpcode_display a
  have hsentReplies : ((shownTexts es c).filterMap shownOpcode).Sublist
      ((sentMessages es c).filterMap replyOpcode) := by
    rw [hreplies, hsent, List.map_append, List.filterMap_append]
    exact List.sublist_append_left _ _
  have htyped : ((takenFrames es c).map (·.take 2)).Sublist
      ((typedLines es c).filterMap lineOpcode) := by
    have hlines : (typedLines es c).filterMap lineOpcode =
        ((typedLines es c).filterMap lineFrame).map (·.take 2) :=
      List.map_filterMap.symm
    rw [hlines]
    exact (frames_in_order h.semicolon_not_mem).sublist.map _
  exact (hsentReplies.trans (replies_sublist h hlogstat)).trans htyped

theorem replies_in_order_selfMention :
    ((shownTexts selfMention 0).filterMap shownOpcode).Sublist
      ((typedLines selfMention 0).filterMap lineOpcode) :=
  replies_in_order cleanLines_selfMention noLogstat_selfMention

/-- **A post that is shown is its author's**: whatever a client shows as a public notification names
an author, perhaps behind names of other such authors, and has a text that some client was given in
a POST, on a connection whose client was also given a LOGIN with the password of a REGISTER of that
author. -/
theorem shown_posts_are_authentic (h : CleanLines es) (hlogstat : NoLogstat es c)
    {text : List UInt8} (htext : text ∈ shownTexts es c)
    (hpublic : ascii "NOTIFICATION Public " <+: text) :
    ∃ before author content, AuthorNames (typedTexts es) before ∧
      (typedTexts es).Posted author content ∧
      text = ascii "NOTIFICATION Public " ++ utf8Bytes (before ++ author) ++ ascii " " ++
        utf8Bytes content := by
  obtain ⟨shown, waiting, -, hshown, -, hvouched⟩ := answers_accounted h hlogstat
  rw [hshown] at htext
  obtain ⟨a, ha, rfl⟩ := List.mem_map.1 htext
  -- the other answers start with another word
  have hother : ∀ start ∈ [ascii "ACK ", ascii "ERROR ", ascii "NOTIFICATION PM "],
      ∀ rest : List UInt8, ¬ ascii "NOTIFICATION Public " <+: start ++ rest := by
    intro start hstart rest hprefix
    have hall : ∀ start ∈ [ascii "ACK ", ascii "ERROR ", ascii "NOTIFICATION PM "],
        start.length ≤ (ascii "NOTIFICATION Public ").length ∧
          ¬ start <+: ascii "NOTIFICATION Public " := by decide
    obtain ⟨hlen, hnot⟩ := hall start hstart
    exact hnot (List.prefix_of_prefix_length_le (List.prefix_append _ _) hprefix hlen)
  cases a with
  | ack => exact absurd hpublic (hother _ (by decide) _)
  | followAck => exact absurd hpublic (hother _ (by decide) _)
  | error => exact absurd hpublic (hother _ (by decide) _)
  | notification kind author content =>
    cases kind with
    | post =>
      obtain ⟨before, name, hname, hbefore, hposted⟩ := hvouched _ (List.mem_append_left _ ha)
      refine ⟨before, name, content.1, hbefore, hposted, ?_⟩
      rw [← hname]
      simp [Answer.display, NotificationKind.display, ascii]
    | pm =>
      refine absurd hpublic ?_
      have hpm : (Answer.notification .pm author content).display =
          ascii "NOTIFICATION PM " ++ (utf8Bytes author.1 ++ ascii " " ++ utf8Bytes content.1) := by
        simp [Answer.display, NotificationKind.display, ascii]
      rw [hpm]
      exact hother _ (by decide) _

theorem shown_posts_are_authentic_selfMention :
    ∃ before author content, AuthorNames (typedTexts selfMention) before ∧
      (typedTexts selfMention).Posted author content ∧
      ascii "NOTIFICATION Public a @a." =
        ascii "NOTIFICATION Public " ++ utf8Bytes (before ++ author) ++ ascii " " ++
          utf8Bytes content :=
  have hshown : ascii "NOTIFICATION Public a @a." ∈ shownTexts selfMention 0 := by
    rw [shownTexts_selfMention]
    decide
  shown_posts_are_authentic cleanLines_selfMention noLogstat_selfMention hshown (by decide)

end Results

end SplNet
