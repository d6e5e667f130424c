import SplNet.Api.Spec.Exceptions
import SplNet.Properties.CommandInjection
import SplNet.Properties.PmText
import SplNet.Srv.ConnectionLifetime

/-!
# Well-formed commands

A typed line is one of the seven commands with all its arguments, none of them empty, and without
`\0` and `';'` in them. The server reads it as one frame (`TypedLine.decodeBytes_line`), and only
the frame of a PM can raise an exception and end the handler of the connection: PM has no flag for a
search that fails, and goes on to cut the name of the last user it has looked at off a text in which
nobody is named. **A well-formed command is served exactly when it is no PM of this kind**
(`typedLine_served_iff`).
-/

namespace SplNet

open Java Client IteratorSearch

/-! ### Lines -/

/-- An argument: nonempty, without `\0` and without `';'`. -/
structure Argument where
  bytes : List UInt8
  nonempty : bytes ≠ []
  nul_not_mem : 0 ∉ bytes
  semicolon_not_mem : Decoder.semicolon ∉ bytes

/-- An argument without a blank. -/
structure BareArgument extends Argument where
  blank_not_mem : blank ∉ bytes

/-- The text of an argument. -/
def Argument.text (a : Argument) : JString := utf8Decode a.bytes

theorem Argument.text_ne_nil (a : Argument) : a.text ≠ [] := utf8Decode_ne_nil a.nonempty

theorem Argument.nul_not_mem_text (a : Argument) : nul ∉ a.text :=
  nul_not_mem_utf8Decode a.nul_not_mem

/-- A well-formed command. -/
inductive TypedLine
  | register (username password birthday : BareArgument)
  | login (username password captcha : BareArgument)
  | logout
  | follow (action username : BareArgument)
  | post (text : Argument)
  | pm (username : BareArgument) (text : Argument)
  | block (username : BareArgument)

namespace TypedLine

/-- The first word. -/
def keyword : TypedLine → Keyword
  | register _ _ _ => .register
  | login _ _ _ => .login
  | logout => .logout
  | follow _ _ => .follow
  | post _ => .post
  | pm _ _ => .pm
  | block _ => .block

/-- What is typed behind the first word and a blank. -/
def arguments : TypedLine → List UInt8
  | register u p b => u.bytes ++ blank :: (p.bytes ++ blank :: b.bytes)
  | login u p c => u.bytes ++ blank :: (p.bytes ++ blank :: c.bytes)
  | logout => []
  | follow a u => a.bytes ++ blank :: u.bytes
  | post t => t.bytes
  | pm u t => u.bytes ++ blank :: t.bytes
  | block u => u.bytes

/-- The line. -/
def line : TypedLine → List UInt8
  | logout => ascii "LOGOUT"
  | l => l.keyword.word ++ blank :: l.arguments

/-- The frame `Encoder` makes of the line, as the server reads it: without the final `';'`. -/
def message (l : TypedLine) : JString := utf8Decode (encodedLine l.line).dropLast

variable (l : TypedLine)

theorem opCode_line : opCode l.line = l.keyword.word := by
  cases l
  case logout => decide
  all_goals exact opCode_append (Keyword.blank_not_mem_word _)

theorem arguments_line : Client.arguments l.line = l.arguments := by
  cases l
  case logout => decide
  all_goals exact arguments_append (Keyword.blank_not_mem_word _)

/-- What `Encoder` returns. -/
theorem encodedLine_line : encodedLine l.line =
    l.keyword.optCode ++ l.keyword.body l.arguments ++ [Decoder.semicolon] := by
  rw [Keyword.encodedLine_eq l.opCode_line, l.arguments_line]

/-- The text behind the opcode is the text of the arguments. -/
theorem message_eq :
    l.message = toText l.keyword.optCode ++ utf8Decode (l.keyword.body l.arguments) := by
  rw [message, encodedLine_line, List.dropLast_concat, Keyword.utf8Decode_optCode_append]

theorem semicolon_not_mem_arguments : Decoder.semicolon ∉ l.arguments := by
  have hblank : Decoder.semicolon ≠ blank := by decide
  cases l with
  | register u p b =>
    simp [arguments, hblank, u.semicolon_not_mem, p.semicolon_not_mem, b.semicolon_not_mem]
  | login u p c =>
    simp [arguments, hblank, u.semicolon_not_mem, p.semicolon_not_mem, c.semicolon_not_mem]
  | logout => exact List.not_mem_nil
  | follow a u => simp [arguments, hblank, a.semicolon_not_mem, u.semicolon_not_mem]
  | post t => exact t.semicolon_not_mem
  | pm u t => simp [arguments, hblank, u.semicolon_not_mem, t.semicolon_not_mem]
  | block u => exact u.semicolon_not_mem

/-- **The server reads one frame**, below the limit of the decoder. -/
theorem decodeBytes_line {d : Decoder} (hsize : d.WellSized) (hempty : d.bytes = [])
    (hlen : (encodedLine l.line).length ≤ Decoder.frameLimit + 1) :
    ∃ d', d.decodeBytes (encodedLine l.line) = some (d', [l.message]) ∧ d'.WellSized ∧
      d'.bytes = [] := by
  have hframe : Decoder.semicolon ∉ l.keyword.optCode ++ l.keyword.body l.arguments := by
    rw [List.mem_append, not_or, Keyword.semicolon_mem_body]
    exact ⟨l.keyword.semicolon_not_mem_optCode, fun h ↦ l.semicolon_not_mem_arguments h.2⟩
  rw [message, encodedLine_line, List.dropLast_concat]
  rw [encodedLine_line, List.length_append, List.length_singleton] at hlen
  exact Decoder.decodeBytes_frame hsize hempty hframe (by omega)

end TypedLine

/-! ### What is served -/

/-- The message is processed without an exception, and the handler of its connection goes on. -/
structure Served (env : Surroundings) (connectionId : ℤ) (s : Server) (message : JString) :
    Prop where
  thrown : (process env connectionId s message).thrown = none
  goesOn : ∀ w : Service, w.server = s → connectionId ∈ w.openConnections → connectionId ∈
    ((serviceMachine .threadPerClient).next w (.frame env connectionId message)).openConnections

/-- The name of `other`, at whom the search of PM ends, takes up the whole filtered text: he is the
last user visited and nobody is named in the text, or his name is the text. -/
inductive NameTakesText (env : Surroundings) (s : Server) (text : JString) (other : UserRef) : Prop
  | last (hnone : env.findContained s text = none) (hlast : (env.users s).getLast? = some other)
      (hlong : (filterWords env s text).length ≤ (s.user other).username.length)
  | whole (hfound : env.findContained s text = some other)
      (hname : (s.user other).username = text)
      (hclean : ∀ w ∈ s.filteredWords, ¬ HasWord env.wordBoundary w [] text)

/-- A PM that is not refused, but has nothing left behind the name that is cut off. -/
structure CutsTooFar (env : Surroundings) (connectionId : ℤ) (s : Server) (text : JString)
    (my other : UserRef) : Prop where
  sender : env.findActive s connectionId = some my ∨
    env.findActive s connectionId = none ∧ (env.activeUsers s).getLast? = some my
  permitted : MayWrite s my other
  recipient : NameTakesText env s text other

section Served

variable {env : Surroundings} {connectionId : ℤ} {s : Server} {text message : JString}
  {my other : UserRef}

/-- Only an exception ends the handler. -/
theorem served_iff :
    Served env connectionId s message ↔ (process env connectionId s message).thrown = none := by
  refine ⟨Served.thrown, fun hthrown ↦ ⟨hthrown, ?_⟩⟩
  rintro w rfl hopen
  rw [next_frame_of_canProcess (show w.CanProcess .threadPerClient connectionId from hopen),
    if_pos hthrown]
  exact hopen

theorem sessionVariable_eq_some_iff : sessionVariable env connectionId s = some my ↔
    env.findActive s connectionId = some my ∨
      env.findActive s connectionId = none ∧ (env.activeUsers s).getLast? = some my :=
  loopVariable_eq_some_iff

theorem recipientVariable_eq_some_iff : recipientVariable env s text = some other ↔
    env.findContained s text = some other ∨
      env.findContained s text = none ∧ (env.users s).getLast? = some other :=
  loopVariable_eq_some_iff

/-- The filter only makes a text longer, so a name in the text takes all of it only when it is the
text. -/
theorem nameTakesText_iff
    (hwords : ∀ w ∈ s.filteredWords, w ≠ [] ∧ w.length < (str "<filtered>").length) :
    NameTakesText env s text other ↔
      recipientVariable env s text = some other ∧
        (filterWords env s text).length ≤ (s.user other).username.length := by
  rw [recipientVariable_eq_some_iff]
  constructor
  · rintro (⟨hnone, hlast, hlong⟩ | ⟨hfound, hname, hclean⟩)
    · exact ⟨Or.inr ⟨hnone, hlast⟩, hlong⟩
    · refine ⟨Or.inl hfound, ?_⟩
      rw [filterWords, foldl_replaceAllWord_of_not_hasWord hclean, hname]
  · rintro ⟨hfound | ⟨hnone, hlast⟩, hlong⟩
    · have hnamed := contains_iff.1 (Surroundings.findContained_eq_some hfound).2
      have hgrow : text.length ≤ (filterWords env s text).length :=
        length_le_foldl_replaceAllWord hwords text
      refine .whole hfound (hnamed.eq_of_length (hnamed.length_le.antisymm (hgrow.trans hlong))) ?_
      intro w hw hword
      have hlt : text.length < (filterWords env s text).length :=
        length_lt_foldl_replaceAllWord hwords ⟨w, hw, hword⟩
      exact absurd hnamed.length_le (hlt.trans_le hlong).not_ge
    · exact .last hnone hlast hlong

/-- PM throws exactly when it cuts too far. -/
theorem thrown_processPm_concat_iff (hs : (serverMachine .threadPerClient).Reachable s)
    (text : JString) :
    (processPm env connectionId s (text ++ [nul])).thrown = none ↔
      ∀ my other, ¬ CutsTooFar env connectionId s text my other := by
  have hwords : ∀ w ∈ s.filteredWords, w ≠ [] ∧ w.length < (str "<filtered>").length := by
    rw [filteredWords_of_reachable hs]
    exact filteredWords_short
  rw [thrown_processPm_iff (by simp), List.dropLast_concat]
  constructor
  · rintro hlong my other ⟨hsender, hmay, hrecipient⟩
    obtain ⟨hother, hshort⟩ := (nameTakesText_iff hwords).1 hrecipient
    exact absurd (hlong my other (sessionVariable_eq_some_iff.2 hsender) hother hmay.1 hmay.2)
      hshort.not_gt
  · intro hnot my other hmy hother hfollowed hunblocked
    by_contra hshort
    exact hnot my other ⟨sessionVariable_eq_some_iff.1 hmy, ⟨hfollowed, hunblocked⟩,
      (nameTakesText_iff hwords).2 ⟨hother, Nat.le_of_not_lt hshort⟩⟩

end Served

namespace TypedLine

/-- The line is a PM that cuts too far. -/
def PmCutsTooFar (env : Surroundings) (connectionId : ℤ) (s : Server) : TypedLine → Prop
  | pm u t => ∃ my other,
      CutsTooFar env connectionId s (utf8Decode (u.bytes ++ blank :: t.bytes)) my other
  | _ => False

/-! ### The text of each command -/

section Texts

variable (u p b : BareArgument)

/-- Two arguments are ended by a `\0`. -/
theorem utf8Decode_nuls (rest : List UInt8) :
    utf8Decode (u.bytes ++ 0 :: (p.bytes ++ 0 :: rest)) =
      u.text ++ nul :: (p.text ++ nul :: utf8Decode rest) := by
  have hnul : (0 : UInt8) < 0x80 := by decide
  rw [utf8Decode_append_cons hnul, utf8Decode_append_cons hnul]
  rfl

/-- A text that is ended by a `\0`. -/
theorem utf8Decode_concat_nul (bytes : List UInt8) :
    utf8Decode (bytes ++ [0]) = utf8Decode bytes ++ [nul] :=
  utf8Decode_append_cons (show (0 : UInt8) < 0x80 by decide) bytes []

theorem split_register : split (utf8Decode (Keyword.register.body (register u p b).arguments)) nul =
    [u.text, p.text, b.text] := by
  have hbody : Keyword.register.body (register u p b).arguments =
      u.bytes ++ 0 :: (p.bytes ++ 0 :: (b.bytes ++ [0])) := by
    rw [Keyword.body, arguments,
      blanksToNuls_three u.blank_not_mem p.blank_not_mem b.blank_not_mem]
    simp
  rw [hbody, utf8Decode_nuls, utf8Decode_concat_nul]
  exact split_three_terminated u.nul_not_mem_text p.nul_not_mem_text b.nul_not_mem_text
    b.text_ne_nil

theorem split_login : split (utf8Decode (Keyword.login.body (login u p b).arguments)) nul =
    [u.text, p.text, b.text] := by
  rw [Keyword.body, arguments,
    blanksToNuls_three u.blank_not_mem p.blank_not_mem b.blank_not_mem, utf8Decode_nuls]
  exact split_three u.nul_not_mem_text p.nul_not_mem_text b.nul_not_mem_text b.text_ne_nil

end Texts

/-- **Only a PM that cuts too far raises an exception.** -/
theorem thrown_process_message_iff {env : Surroundings} {connectionId : ℤ} {s : Server}
    (hs : (serverMachine .threadPerClient).Reachable s) (l : TypedLine) :
    (process env connectionId s l.message).thrown = none ↔
      ¬ l.PmCutsTooFar env connectionId s := by
  have hterminated : ∀ bytes, utf8Decode (bytes ++ [0]) ≠ [] := fun bytes ↦
    utf8Decode_ne_nil (by simp)
  rw [message_eq]
  cases l with
  | register u p b =>
    refine iff_of_true ?_ not_false
    show (process env connectionId s (str "01" ++ utf8Decode (Keyword.register.body _))).thrown = _
    rw [process_01, thrown_processRegister_iff, split_register]
    exact le_rfl
  | login u p c =>
    have hposts : ∀ r, ∀ post ∈ (s.user r).awaitingPosts, space ∈ post := fun r post hpost ↦
      (coherent_of_reachable hs).blank_mem hpost
    refine iff_of_true ?_ not_false
    show (process env connectionId s (str "02" ++ utf8Decode (Keyword.login.body _))).thrown = _
    rw [process_02, thrown_processLogin_iff hposts, split_login]
    exact le_rfl
  | logout =>
    refine iff_of_true ?_ not_false
    show (process env connectionId s (str "03" ++ utf8Decode _)).thrown = _
    rw [process_03]
    exact thrown_processLogout
  | follow a u =>
    refine iff_of_true ?_ not_false
    show (process env connectionId s (str "04" ++ utf8Decode (_ ++ [0]))).thrown = _
    rw [process_04]
    exact thrown_processFollow (hterminated _)
  | post t =>
    refine iff_of_true ?_ not_false
    show (process env connectionId s (str "05" ++ utf8Decode (_ ++ [0]))).thrown = _
    rw [process_05]
    exact thrown_processPost (hterminated _)
  | pm u t =>
    show (process env connectionId s
      (str "06" ++ utf8Decode (u.bytes ++ blank :: t.bytes ++ [0]))).thrown = _ ↔ _
    rw [process_06, utf8Decode_concat_nul, thrown_processPm_concat_iff hs, PmCutsTooFar]
    simp only [not_exists]
  | block u =>
    refine iff_of_true ?_ not_false
    show (process env connectionId s (str "12" ++ utf8Decode (_ ++ [0]))).thrown = _
    rw [process_12]
    exact thrown_processBlock (hterminated _)

end TypedLine

/-- **A well-formed command is served**, on whatever connection and in whatever state, exactly when
it is no PM that cuts too far. -/
theorem typedLine_served_iff {s : Server} (hs : (serverMachine .threadPerClient).Reachable s)
    (env : Surroundings) (connectionId : ℤ) (l : TypedLine) :
    Served env connectionId s l.message ↔ ¬ l.PmCutsTooFar env connectionId s :=
  served_iff.trans (l.thrown_process_message_iff hs)

/-- `PM alice hi`. -/
def pmToAlice : TypedLine :=
  .pm ⟨⟨ascii "alice", by decide, by decide, by decide⟩, by decide⟩
    ⟨ascii "hi", by decide, by decide, by decide⟩

/-- Bob's PM to Alice, whom he follows, is served. -/
theorem typedLine_served_iff_bob : Served .listed 0 bobFollowsAlice pmToAlice.message := by
  refine (typedLine_served_iff bobFollowsAlice_reachable .listed 0 pmToAlice).2 ?_
  rintro ⟨my, other, -, -, hname⟩
  have hfound : Surroundings.findContained .listed bobFollowsAlice
      (utf8Decode (ascii "alice" ++ blank :: ascii "hi")) = some 0 := by decide
  rcases hname with ⟨hnone, -, -⟩ | ⟨hother, hname, -⟩
  · exact absurd (hfound.symm.trans hnone) (by simp)
  · obtain rfl := Option.some.inj (hfound.symm.trans hother)
    exact absurd hname (by decide)

/-- Alexander, the only user, follows himself. -/
def alexanderAlone : Server :=
  (serverMachine .threadPerClient).stateAfter
    [.accept, .frame 0 "01alexander\x00a\x0001-01-1990\x00", .frame 0 "02alexander\x00a\x001",
      .frame 0 "040alexander\x00"]

/-- `PM zed hi`. -/
def pmToZed : TypedLine :=
  .pm ⟨⟨ascii "zed", by decide, by decide, by decide⟩, by decide⟩
    ⟨ascii "hi", by decide, by decide, by decide⟩

/-- **A PM ends its handler**: nobody is called Zed, and Alexander's name is cut off the text. -/
theorem pm_ends_handler :
    (serverMachine .threadPerClient).Reachable alexanderAlone ∧
      encodedLine pmToZed.line = ascii "06zed hi\x00;" ∧
      (process .listed 0 alexanderAlone pmToZed.message).thrown =
        some .stringIndexOutOfBounds ∧
      ¬ Served .listed 0 alexanderAlone pmToZed.message := by
  have hthrown : (process .listed 0 alexanderAlone pmToZed.message).thrown =
      some .stringIndexOutOfBounds := by decide
  exact ⟨⟨_, rfl⟩, by decide, hthrown, fun h ↦ absurd (hthrown.symm.trans h.thrown) (by simp)⟩

end SplNet
