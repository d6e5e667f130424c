import SplNet.Client.SocketReads

/-!
# A stream that is cut

The client whose stream from the server ends somewhere: what the server sends is a list of messages,
and what arrives is any beginning of their bytes. Nothing in the client reports such an end: every
read that fails becomes a `std::string(NULL)`, which throws, and `getFrameAscii` goes on for ever or
returns `true`. The only way out of the loop of the socket thread is the acknowledgement of LOGOUT.

**The client survives exactly the streams in which an acknowledgement of LOGOUT arrives completely**
(`survives_iff`).
-/

namespace SplNet.Client

open ServerMessage

/-- The socket thread at its start. -/
def SocketState.start (stream : List UInt8) (flags : Flags) (garbage : ℕ → UInt8) : SocketState :=
  ⟨stream, flags, garbage, [], false⟩

/-- The loop terminates normally, and every call of `getFrameAscii` in it whose stream ends before
its delimiter returns `false`. -/
def Survives (st : SocketState) : Prop :=
  ∃ iterations st', Returns (Socket.run iterations) st () st' ∧
    ∀ r ∈ st'.frameReads, r.delimiter ∉ r.stream → r.returned = false

/-- An acknowledgement of LOGOUT stands in the stream, with nothing of it missing. -/
def LogoutAckArrives (messages : List ServerMessage) (stream : List UInt8) : Prop :=
  ∃ pre post, messages = pre ++ logoutAck :: post ∧
    (pre ++ [logoutAck]).flatMap bytes <+: stream

/-! ### One iteration -/

section Iteration

variable {n : ℕ} {st st' : SocketState} {m : ServerMessage}

theorem returns_run_of_terminate (h : st.flags.terminate = true) :
    Returns (Socket.run (n + 1)) st () st' ↔ st' = st := by
  rw [Socket.run, returns_bind]
  constructor
  · rintro ⟨_, _, hget, hrest⟩
    obtain ⟨rfl, rfl⟩ := returns_get.1 hget
    rw [if_pos h] at hrest
    exact (returns_pure.1 hrest).2
  · rintro rfl
    refine ⟨st', st', returns_get.2 ⟨rfl, rfl⟩, ?_⟩
    rw [if_pos h]
    exact returns_pure.2 ⟨rfl, rfl⟩

theorem returns_run {ans : List UInt8} {st₁ : SocketState} (h : st.flags.terminate = false)
    (hdecoder : Returns (Socket.decoder n) st ans st₁) (hans : 6 < ans.length) :
    Returns (Socket.run (n + 1)) st () st' ↔ Returns (Socket.run n) st₁ () st' := by
  have hne : ans ≠ [] := by
    rintro rfl
    exact absurd hans (by decide)
  have hne3 : ans ≠ ascii "ACK 03" := by
    rintro rfl
    exact absurd hans (by decide)
  rw [Socket.run, returns_bind]
  constructor
  · rintro ⟨_, _, hget, hrest⟩
    obtain ⟨rfl, rfl⟩ := returns_get.1 hget
    rw [if_neg (by simp [h]), returns_bind] at hrest
    obtain ⟨ans', st₂, hdecoder', hrest⟩ := hrest
    obtain ⟨rfl, rfl⟩ := Except.ok.inj (Option.some.inj (hdecoder'.symm.trans hdecoder))
    rw [if_neg hne, if_neg hne3] at hrest
    exact hrest
  · intro hrest
    refine ⟨st, st, returns_get.2 ⟨rfl, rfl⟩, ?_⟩
    rw [if_neg (by simp [h]), returns_bind]
    refine ⟨ans, st₁, hdecoder, ?_⟩
    rw [if_neg hne, if_neg hne3]
    exact hrest

/-- A loop that returns has read a message first. -/
theorem exists_decoder_of_returns_run (h : st.flags.terminate = false)
    (hrun : Returns (Socket.run (n + 1)) st () st') :
    ∃ ans st₁, Returns (Socket.decoder n) st ans st₁ := by
  rw [Socket.run, returns_bind] at hrun
  obtain ⟨_, _, hget, hrest⟩ := hrun
  obtain ⟨rfl, rfl⟩ := returns_get.1 hget
  rw [if_neg (by simp [h]), returns_bind] at hrest
  obtain ⟨ans, st₁, hread, -⟩ := hrest
  exact ⟨ans, st₁, hread⟩

/-- The loop cannot go on when no message can be read. -/
theorem not_returns_run (h : st.flags.terminate = false)
    (hdecoder : decoder st.flags st.stream = none) : ¬ Returns (Socket.run n) st () st' := by
  rcases n with - | n
  · exact not_returns_unfinished
  intro hrun
  obtain ⟨ans, st₁, hread⟩ := exists_decoder_of_returns_run h hrun
  have hsome := ((follows_decoder n).exact hread).1
  exact absurd (hdecoder.symm.trans hsome) (by simp)

theorem eq_of_decoder {ans text rest : List UInt8} {flags : Flags} {st₁ : SocketState}
    (hreturns : Returns (Socket.decoder n) st ans st₁)
    (hread : decoder st.flags st.stream = some (flags, text, rest)) :
    st₁.flags = flags ∧ ans = text ∧ st₁.stream = rest := by
  have hsome := ((follows_decoder n).exact hreturns).1
  obtain ⟨rfl, rfl, rfl⟩ := Option.some.inj (hread.symm.trans hsome)
  exact ⟨rfl, rfl, rfl⟩

end Iteration

/-! ### The whole loop -/

variable {messages : List ServerMessage} {stream : List UInt8} {m : ServerMessage}

theorem logoutAckArrives_cons (h : LogoutAckArrives messages stream) :
    LogoutAckArrives (m :: messages) (m.bytes ++ stream) := by
  obtain ⟨pre, post, rfl, harrives⟩ := h
  refine ⟨m :: pre, post, rfl, ?_⟩
  rw [List.cons_append, List.flatMap_cons]
  exact (List.prefix_append_right_inj m.bytes).2 harrives

/-- A loop that terminates has read the acknowledgement. -/
theorem logoutAckArrives_of_returns {n : ℕ} {st st' : SocketState}
    (hrunning : st.flags.terminate = false) (hcut : st.stream <+: messages.flatMap bytes)
    (h : Returns (Socket.run n) st () st') : LogoutAckArrives messages st.stream := by
  induction messages generalizing n st with
  | nil =>
    have hnil : st.stream = [] := List.prefix_nil.1 hcut
    exact absurd h (not_returns_run hrunning (by rw [hnil]; rfl))
  | cons m messages ih =>
    rw [List.flatMap_cons] at hcut
    by_cases hwhole : m.bytes <+: st.stream
    · obtain ⟨rest, hrest⟩ := hwhole
      have hread := decoder_bytes st.flags m rest
      rw [hrest] at hread
      rw [← hrest, List.prefix_append_right_inj] at hcut
      rw [← hrest]
      by_cases hm : m = logoutAck
      · exact ⟨[], messages, by rw [hm]; rfl, by simp [hm]⟩
      · refine logoutAckArrives_cons ?_
        rcases n with - | n
        · exact absurd h not_returns_unfinished
        obtain ⟨ans, st₁, hdecoder⟩ := exists_decoder_of_returns_run hrunning h
        obtain ⟨hflags, hans, hstream⟩ := eq_of_decoder hdecoder hread
        rw [returns_run hrunning hdecoder (hans ▸ six_lt_length_display m)] at h
        rw [← hstream] at hcut ⊢
        refine ih ?_ hcut h
        rw [hflags, Bool.eq_false_iff, ne_eq, terminate_effect, hrunning]
        simp [hm]
    · have hshort : st.stream <+: m.bytes :=
        (List.prefix_or_prefix_of_prefix hcut (List.prefix_append _ _)).resolve_right hwhole
      have hne : st.stream ≠ m.bytes := fun heq ↦ hwhole (heq ▸ List.prefix_rfl)
      exact absurd h (not_returns_run hrunning (decoder_eq_none_of_cut _ m hshort hne))

/-- No message is empty. -/
theorem bytes_length_pos (m : ServerMessage) : 0 < m.bytes.length := by
  cases m <;> simp [bytes, ascii]

/-- A loop whose stream holds the acknowledgement terminates, and no frame of it is cut. -/
theorem exists_returns_of_mem {n : ℕ} {st : SocketState} {read : List ServerMessage}
    (hrunning : st.flags.terminate = false) (hframes : FramesComplete st)
    (hn : st.stream.length + 1 < n) (harrives : read.flatMap bytes <+: st.stream)
    (hmem : logoutAck ∈ read) :
    ∃ st', Returns (Socket.run n) st () st' ∧ FramesComplete st' := by
  induction read generalizing n st with
  | nil => exact absurd hmem (by simp)
  | cons m read ih =>
    obtain ⟨n, rfl⟩ : ∃ k, n = k + 1 := ⟨n - 1, by omega⟩
    obtain ⟨rest, hrest⟩ := harrives
    rw [List.flatMap_cons, List.append_assoc] at hrest
    have hread := decoder_bytes st.flags m (read.flatMap bytes ++ rest)
    rw [hrest] at hread
    obtain ⟨st₁, hdecoder, hflags, hstream⟩ := (follows_decoder n).complete (by omega) hread
    have hframes₁ := ((follows_decoder n).exact hdecoder).2 hframes
    have hlen : st₁.stream.length < st.stream.length := by
      have hpos := bytes_length_pos m
      rw [hstream, ← hrest]
      simp only [List.length_append]
      omega
    simp only [returns_run hrunning hdecoder (six_lt_length_display m)]
    by_cases hm : m = logoutAck
    · obtain ⟨n, rfl⟩ : ∃ k, n = k + 1 := ⟨n - 1, by omega⟩
      have hterminate : st₁.flags.terminate = true := by
        rw [hflags, terminate_effect]
        exact .inr hm
      exact ⟨st₁, (returns_run_of_terminate hterminate).2 rfl, hframes₁⟩
    · refine ih ?_ hframes₁ (by omega) (hstream ▸ List.prefix_append _ rest)
        ((List.mem_cons.1 hmem).resolve_left (Ne.symm hm))
      rw [hflags, Bool.eq_false_iff, ne_eq, terminate_effect, hrunning]
      simp [hm]

/-- **The client survives exactly the streams in which an acknowledgement of LOGOUT arrives**, and
no call of `getFrameAscii` returns `false`. -/
theorem survives_iff (messages : List ServerMessage) {stream : List UInt8}
    (hcut : stream <+: messages.flatMap bytes) {flags : Flags} (hrunning : flags.terminate = false)
    (garbage : ℕ → UInt8) :
    (Survives (.start stream flags garbage) ↔ LogoutAckArrives messages stream) ∧
      ∀ n delimiter st frame st',
        ¬ Returns (Socket.getFrameAscii n delimiter) st (false, frame) st' := by
  constructor
  · constructor
    · rintro ⟨n, st', hrun, -⟩
      exact logoutAckArrives_of_returns hrunning hcut hrun
    · rintro ⟨pre, post, -, harrives⟩
      have hstart : FramesComplete (.start stream flags garbage) := by
        simp [FramesComplete, SocketState.start]
      obtain ⟨st', hrun, hframes⟩ :=
        exists_returns_of_mem hrunning hstart (Nat.lt_succ_self _) harrives (by simp)
      exact ⟨_, st', hrun, fun r hr hmissing ↦ absurd (hframes r hr) hmissing⟩
  · intro n delimiter st frame st' h
    exact absurd (returns_getFrameAscii.1 h).1 (by simp)

/-- The acknowledgement of LOGOUT arrives behind a notification. -/
theorem survives_iff_logout :
    LogoutAckArrives
        [.notification .post (ascii "al") (ascii "hi") (by decide), logoutAck]
        (ascii "091al" ++ [0] ++ ascii "hi" ++ [0] ++ ascii ";1003;") ∧
      Survives (.start (ascii "091al" ++ [0] ++ ascii "hi" ++ [0] ++ ascii ";1003;")
        ⟨false, false, false⟩ fun _ ↦ 0x41) := by
  have harrives : LogoutAckArrives
      [.notification .post (ascii "al") (ascii "hi") (by decide), logoutAck]
      (ascii "091al" ++ [0] ++ ascii "hi" ++ [0] ++ ascii ";1003;") :=
    ⟨[.notification .post (ascii "al") (ascii "hi") (by decide)], [], rfl, by decide⟩
  exact ⟨harrives, (survives_iff _ (by decide) rfl _).1.2 harrives⟩

/-- A notification that is cut in the name of its author. -/
theorem cut_notification_not_survived :
    ascii "091al" <+:
        [ServerMessage.notification .post (ascii "al") (ascii "hi") (by decide)].flatMap bytes ∧
      ¬ Survives (.start (ascii "091al") ⟨false, false, false⟩ fun _ ↦ 0x41) := by
  have hcut : ascii "091al" <+:
      [ServerMessage.notification .post (ascii "al") (ascii "hi") (by decide)].flatMap bytes := by
    decide
  refine ⟨hcut, ?_⟩
  rintro ⟨n, st', hrun, -⟩
  obtain ⟨pre, post, hmessages, -⟩ := logoutAckArrives_of_returns rfl hcut hrun
  have hmem : logoutAck ∈ pre ++ logoutAck :: post := by simp
  rw [← hmessages] at hmem
  exact absurd (List.mem_singleton.1 hmem) (by simp [logoutAck])

end SplNet.Client
