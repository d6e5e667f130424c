import SplNet.Client.Answers
import SplNet.Srv.StoreInvariant

/-!
# Requests of the client

What the server knows about a request that `Encoder` made of a line without `\0` and `';'`: the
frames of FOLLOW, POST and PM end in the only `\0` they have (`IsClientRequest.text_eq`). In a run
with such requests only, **no name and no queued post has a `\0` in it** (`nulFreeStore_along`),
which is what the format of the notifications relies on.
-/

namespace SplNet

open Java Client

/-! ### Frames -/

/-- The message is a frame `Encoder` made of a line without `\0` and `';'`. -/
def IsClientRequest (message : JString) : Prop :=
  ∃ line frame, 0 ∉ line ∧ Decoder.semicolon ∉ line ∧
    encodedLine line = frame ++ [Decoder.semicolon] ∧ message = utf8Decode frame

section Frames

variable {line frame : List UInt8}

/-- What `Encoder` makes of a line: nothing, or a frame and a `';'`. The frames of FOLLOW, POST, PM,
STAT and BLOCK end in a `\0`. -/
inductive EncodedAs (line : List UInt8) : List UInt8 → Prop
  | unknown : EncodedAs line []
  | plain (opCode : String) (body : List UInt8)
      (hop : opCode ∈ ["01", "02", "03", "07"]) (hbody : Decoder.semicolon ∉ line →
        Decoder.semicolon ∉ body) : EncodedAs line (ascii opCode ++ body ++ [Decoder.semicolon])
  | terminated (opCode : String) (body : List UInt8)
      (hop : opCode ∈ ["04", "05", "06", "08", "12"]) (hbody : body ⊆ line) :
      EncodedAs line (ascii opCode ++ (body ++ [0]) ++ [Decoder.semicolon])

theorem arguments_subset (line : List UInt8) : arguments line ⊆ line :=
  List.Subset.trans (List.tail_subset _) (List.dropWhile_subset _)

theorem encodedAs (line : List UInt8) : EncodedAs line (encodedLine line) := by
  have hnuls : Decoder.semicolon ∉ line → Decoder.semicolon ∉ blanksToNuls (arguments line) := by
    intro hline hmem
    obtain ⟨c, hc, heq⟩ := List.mem_map.1 hmem
    split at heq
    · exact absurd heq (by decide)
    · exact hline (heq ▸ arguments_subset line hc)
  have hargs := arguments_subset line
  have hterminated : ∀ opCode ∈ ["04", "05", "06", "08", "12"], ∀ body ⊆ line,
      EncodedAs line (ascii opCode ++ body ++ [0] ++ ascii ";") := by
    intro opCode hop body hbody
    have h := EncodedAs.terminated opCode body hop hbody
    rwa [← List.append_assoc] at h
  rw [encodedLine]
  split
  case isTrue =>
    have h : EncodedAs line (ascii "01" ++ (blanksToNuls (arguments line) ++ [0]) ++
        [Decoder.semicolon]) := by
      refine .plain "01" _ (by decide) fun hline hmem ↦ ?_
      rcases List.mem_append.1 hmem with hmem | hmem
      · exact hnuls hline hmem
      · exact absurd hmem (by decide)
    rwa [← List.append_assoc] at h
  split
  case isTrue => exact .plain "02" _ (by decide) hnuls
  split
  case isTrue => exact .plain "03" [] (by decide) fun _ ↦ List.not_mem_nil
  split
  case isTrue =>
    exact hterminated "04" (by decide) _ (List.Subset.trans (List.filter_subset_self _) hargs)
  split
  case isTrue => exact hterminated "05" (by decide) _ hargs
  split
  case isTrue => exact hterminated "06" (by decide) _ hargs
  split
  case isTrue => exact .plain "07" [] (by decide) fun _ ↦ List.not_mem_nil
  split
  case isTrue => exact hterminated "08" (by decide) _ hargs
  split
  case isTrue => exact hterminated "12" (by decide) _ hargs
  case isFalse => exact .unknown

theorem encodedLine_eq_nil_or (line : List UInt8) :
    encodedLine line = [] ∨ ∃ frame, encodedLine line = frame ++ [Decoder.semicolon] := by
  have hcases := encodedAs line
  generalize encodedLine line = bytes at hcases
  cases hcases with
  | unknown => exact Or.inl rfl
  | plain => exact Or.inr ⟨_, rfl⟩
  | terminated => exact Or.inr ⟨_, rfl⟩

/-- A line without `';'` gives one frame. -/
theorem semicolon_not_mem_frame (hline : Decoder.semicolon ∉ line)
    (h : encodedLine line = frame ++ [Decoder.semicolon]) : Decoder.semicolon ∉ frame := by
  have hops : ∀ opCode ∈ ["01", "02", "03", "07", "04", "05", "06", "08", "12"],
      Decoder.semicolon ∉ ascii opCode := by decide
  have hcases := encodedAs line
  rw [h] at hcases
  generalize hbytes : frame ++ [Decoder.semicolon] = bytes at hcases
  cases hcases with
  | unknown => exact absurd hbytes (by simp)
  | plain opCode body hop hbody =>
    obtain ⟨rfl, -⟩ := List.append_inj' hbytes rfl
    rw [List.mem_append, not_or]
    exact ⟨hops opCode (List.mem_append_left ["04", "05", "06", "08", "12"] hop), hbody hline⟩
  | terminated opCode body hop hbody =>
    obtain ⟨rfl, -⟩ := List.append_inj' hbytes rfl
    rw [List.mem_append, List.mem_append, not_or, not_or]
    exact ⟨hops opCode (List.mem_append_right ["01", "02", "03", "07"] hop),
      fun hmem ↦ hline (hbody hmem), by decide⟩

/-- The frames of a list of lines. -/
theorem exists_frames (lines : List (List UInt8)) :
    ∃ frames : List (List UInt8),
      lines.flatMap encodedLine = frames.flatMap (· ++ [Decoder.semicolon]) ∧
        ∀ frame ∈ frames, ∃ line ∈ lines, encodedLine line = frame ++ [Decoder.semicolon] := by
  induction lines with
  | nil => exact ⟨[], rfl, fun _ h ↦ absurd h List.not_mem_nil⟩
  | cons line lines ih =>
    obtain ⟨frames, hbytes, hframes⟩ := ih
    have hold : ∀ frame ∈ frames, ∃ l ∈ line :: lines,
        encodedLine l = frame ++ [Decoder.semicolon] := by
      intro frame hframe
      obtain ⟨l, hl, heq⟩ := hframes frame hframe
      exact ⟨l, List.mem_cons_of_mem line hl, heq⟩
    rcases encodedLine_eq_nil_or line with hnil | ⟨frame, hframe⟩
    · exact ⟨frames, by rw [List.flatMap_cons, hnil, List.nil_append, hbytes], hold⟩
    · refine ⟨frame :: frames, by rw [List.flatMap_cons, List.flatMap_cons, hbytes, hframe], ?_⟩
      exact List.forall_mem_cons.2 ⟨⟨line, List.mem_cons_self, hframe⟩, hold⟩

/-- **What the decoder makes of the lines of a client is requests of the client.** -/
theorem isClientRequest_of_decodeBytes {lines : List (List UInt8)}
    (hlines : ∀ line ∈ lines, 0 ∉ line ∧ Decoder.semicolon ∉ line) {d : Decoder}
    {messages : List JString}
    (hdecode : Decoder.new.decodeBytes (lines.flatMap encodedLine) = some (d, messages)) :
    ∀ message ∈ messages, IsClientRequest message := by
  obtain ⟨frames, hbytes, hframes⟩ := exists_frames lines
  have hsemicolon : ∀ frame ∈ frames, Decoder.semicolon ∉ frame := by
    intro frame hframe
    obtain ⟨line, hline, heq⟩ := hframes frame hframe
    exact semicolon_not_mem_frame (hlines line hline).2 heq
  have hshort : ∀ frame ∈ frames, frame.length ≤ Decoder.frameLimit := by
    intro frame hframe
    by_contra hlen
    rw [hbytes, Decoder.decodeBytes_frames_of_too_long Decoder.wellSized_new rfl hsemicolon hframe
      (Nat.lt_of_not_le hlen)] at hdecode
    exact absurd hdecode (by simp)
  obtain ⟨d', hdecode', -, -⟩ := Decoder.decodeBytes_frames Decoder.wellSized_new rfl
    fun frame hframe ↦ ⟨hsemicolon frame hframe, hshort frame hframe⟩
  rw [hbytes, hdecode'] at hdecode
  obtain ⟨-, rfl⟩ := Prod.mk.inj (Option.some.inj hdecode)
  intro message hmessage
  obtain ⟨frame, hframe, rfl⟩ := List.mem_map.1 hmessage
  obtain ⟨line, hline, heq⟩ := hframes frame hframe
  exact ⟨line, frame, (hlines line hline).1, (hlines line hline).2, heq, rfl⟩

/-- The text of a FOLLOW, POST or PM request ends in the only `\0` it has. -/
theorem IsClientRequest.text_eq {optCode text : JString} (h : IsClientRequest (optCode ++ text))
    (hop : optCode ∈ [str "04", str "05", str "06"]) :
    ∃ body : NulFree, text = body.1 ++ [nul] := by
  obtain ⟨line, frame, hline, -, hframe, hmessage⟩ := h
  have hcases := encodedAs line
  rw [hframe] at hcases
  generalize hbytes : frame ++ [Decoder.semicolon] = bytes at hcases
  have hlen : optCode.length = 2 := by
    simp only [List.mem_cons, List.not_mem_nil, or_false] at hop
    rcases hop with rfl | rfl | rfl <;> rfl
  -- the opcode and the text of a frame that starts with two ASCII characters
  have hparts : ∀ {opCode : String} {body : List UInt8}, (∀ c ∈ ascii opCode, c < 0x80) →
      (ascii opCode).length = 2 → frame = ascii opCode ++ body →
        optCode = (ascii opCode).map UInt8.toUInt16 ∧ text = utf8Decode body := by
    rintro opCode body hascii hlen' rfl
    rw [utf8Decode_ascii_append hascii] at hmessage
    exact List.append_inj hmessage (by rw [List.length_map, hlen, hlen'])
  cases hcases with
  | unknown => exact absurd hbytes (by simp)
  | plain opCode body hop' hbody =>
    have hother : ∀ opCode ∈ ["01", "02", "03", "07"], (∀ c ∈ ascii opCode, c < 0x80) ∧
        (ascii opCode).length = 2 ∧
          (ascii opCode).map UInt8.toUInt16 ∉ [str "04", str "05", str "06"] := by decide
    obtain ⟨hascii, hlen', hne⟩ := hother opCode hop'
    obtain ⟨hop'', -⟩ := hparts hascii hlen' (List.append_inj' hbytes rfl).1
    exact absurd (hop'' ▸ hop) hne
  | terminated opCode body hop' hbody =>
    have hascii : ∀ opCode ∈ ["04", "05", "06", "08", "12"], (∀ c ∈ ascii opCode, c < 0x80) ∧
        (ascii opCode).length = 2 := by decide
    obtain ⟨-, htext⟩ := hparts (hascii opCode hop').1 (hascii opCode hop').2
      (List.append_inj' hbytes rfl).1
    refine ⟨⟨utf8Decode body, nul_not_mem_utf8Decode fun hmem ↦ hline (hbody hmem)⟩, ?_⟩
    rw [htext, utf8Decode_append_cons (by decide), utf8Decode_nil]
    rfl

end Frames

/-! ### The store -/

/-- No name and no queued post has a `\0`. -/
structure NulFreeStore (s : Server) : Prop where
  username : ∀ r, nul ∉ (s.user r).username
  awaitingPosts : ∀ r, ∀ post ∈ (s.user r).awaitingPosts, nul ∉ post

theorem nulFreeStore_init (mode : ServerMode) : NulFreeStore (Server.init mode) :=
  ⟨fun _ ↦ List.not_mem_nil, fun _ _ h ↦ absurd h List.not_mem_nil⟩

/-- The client made the request of the event. -/
def Event.FromClient : Event → Prop
  | .accept => True
  | .request _ _ message => IsClientRequest message

theorem Effect.nulFreeStore {s s' : Server} {e : Event} (h : Effect s e s') (hs : Coherent s)
    (hclient : e.FromClient) (hnul : NulFreeStore s) : NulFreeStore s' where
  username := by
    intro r
    rcases h.accounts with hsame | ⟨message, username, password, birthday, hreg, rfl⟩
    · rw [hsame.username]
      exact hnul.username r
    · obtain ⟨rest, hargs⟩ := hreg.args
      simp only [Server.putUser]
      split
      case isTrue => exact not_mem_of_mem_split (hargs ▸ List.mem_cons_self)
      case isFalse => exact hnul.username r
  awaitingPosts := by
    intro r post hpost
    rcases h.queues hs with hsame | ⟨env, c, m, my, rfl, -, rfl⟩
    · rw [hsame r] at hpost
      exact hnul.awaitingPosts r post hpost
    · rw [queuePost_awaitingPosts] at hpost
      split at hpost
      case isTrue => exact hnul.awaitingPosts r post hpost
      case isFalse =>
        rcases List.mem_append.1 hpost with hold | hnew
        · exact hnul.awaitingPosts r post hold
        · obtain ⟨body, rfl⟩ := IsClientRequest.text_eq hclient (by simp)
          rw [List.eq_of_mem_replicate hnew, postEntry, List.dropLast_concat]
          simp only [List.mem_append, not_or]
          exact ⟨⟨hnul.username my, by decide⟩, body.2⟩

/-- **No name and no queued post ever has a `\0`**, if all requests are the client's. -/
theorem nulFreeStore_along {mode : ServerMode} {es : List Event}
    (hclient : ∀ e ∈ es, e.FromClient) {pre : List Event} (hpre : pre <+: es) :
    NulFreeStore ((serverMachine mode).stateAfter pre) := by
  refine LabelledMachine.invariant_along (M := serverMachine mode) (P := NulFreeStore)
    (nulFreeStore_init mode) (fun pre e hocc hnul ↦ ?_) hpre
  have hmem : e ∈ es := hocc.subset (List.mem_append_right pre (List.mem_singleton_self e))
  exact (effect_next mode _ e).nulFreeStore
    (coherent_of_reachable ((serverMachine mode).reachable_stateAfter pre)) (hclient e hmem) hnul

end SplNet
