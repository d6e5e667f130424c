import SplNet.Client.MessageReader
import SplNet.Client.SocketThread

/-!
# The socket thread reads what the decoder reads

A computation of the socket thread **follows** a reader if what it returns is what the reader reads,
as long as the stream does not end in it: a frame that is cut is returned when `ch` happens to hold
the delimiter, but then nothing is left of the stream. A byte that is read behind such a frame
decides, so that the whole decoder of the socket thread returns what `decoder` reads and nothing
else (`returns_decoder_iff`).
-/

namespace SplNet.Client

open StreamReader

/-- The computation returns. -/
def Returns {α : Type} (x : Socket α) (st : SocketState) (a : α) (st' : SocketState) : Prop :=
  x st = ExceptT.mk (some (.ok (a, st')))

/-- Every call of `getFrameAscii` that has returned had its delimiter to come. -/
def FramesComplete (st : SocketState) : Prop := ∀ r ∈ st.frameReads, r.delimiter ∈ r.stream

section Returns

variable {α β : Type} {st st' : SocketState} {a b : α}

theorem returns_pure : Returns (pure a) st b st' ↔ b = a ∧ st' = st := by
  constructor
  · intro h
    obtain ⟨rfl, rfl⟩ := Except.ok.inj (Option.some.inj h)
    exact ⟨rfl, rfl⟩
  · rintro ⟨rfl, rfl⟩
    rfl

theorem returns_get {a : SocketState} : Returns get st a st' ↔ a = st ∧ st' = st := by
  constructor
  · intro h
    obtain ⟨rfl, rfl⟩ := Except.ok.inj (Option.some.inj h)
    exact ⟨rfl, rfl⟩
  · rintro ⟨rfl, rfl⟩
    rfl

theorem not_returns_unfinished : ¬ Returns Socket.unfinished st a st' := by
  intro h
  exact absurd h (by simp [Returns, Socket.unfinished, ExceptT.mk])

theorem not_returns_returnNull : ¬ Returns Socket.returnNull st a st' := by
  intro h
  exact absurd (Option.some.inj h) (by simp)

theorem returns_bind {x : Socket α} {y : α → Socket β} {b : β} :
    Returns (x >>= y) st b st' ↔ ∃ a st₁, Returns x st a st₁ ∧ Returns (y a) st₁ b st' := by
  have hbind : (x >>= y) st = (x st >>= fun p ↦ y p.1 p.2) := rfl
  constructor
  · intro h
    rw [Returns, hbind] at h
    rcases hx : x st with - | (e | ⟨a, st₁⟩)
    · rw [hx] at h
      exact absurd h (by simp [bind, ExceptT.bind, ExceptT.mk])
    · rw [hx] at h
      exact absurd (Option.some.inj h) (by simp)
    · rw [hx] at h
      exact ⟨a, st₁, hx, h⟩
  · rintro ⟨a, st₁, hx, hy⟩
    rw [Returns, hbind, hx]
    exact hy

theorem returns_modify {f : SocketState → SocketState} {u : Unit} :
    Returns (modify f) st u st' ↔ st' = f st := by
  constructor
  · intro h
    obtain ⟨-, rfl⟩ := Except.ok.inj (Option.some.inj h)
    rfl
  · rintro rfl
    rfl

end Returns

/-! ### The reads -/

section Reads

variable {st st' : SocketState} {a : List UInt8} {n : ℕ}

theorem returns_read : Returns (Socket.read n) st a st' ↔
    ∃ rest, getBytes n st.stream = some (a, rest) ∧ st' = { st with stream := rest } := by
  rw [Socket.read, returns_bind]
  constructor
  · rintro ⟨bytes, st₁, hget, hrest⟩
    rcases hbytes : getBytes n st.stream with - | ⟨bytes', rest⟩
    · rw [Returns, Socket.getBytes, hbytes] at hget
      obtain ⟨rfl, -⟩ := returns_pure.1 hget
      exact absurd hrest not_returns_returnNull
    · rw [Returns, Socket.getBytes, hbytes] at hget
      obtain ⟨rfl, rfl⟩ := Except.ok.inj (Option.some.inj hget)
      obtain ⟨rfl, rfl⟩ := returns_pure.1 hrest
      exact ⟨rest, rfl, rfl⟩
  · rintro ⟨rest, hbytes, rfl⟩
    refine ⟨some a, { st with stream := rest }, ?_, returns_pure.2 ⟨rfl, rfl⟩⟩
    rw [Returns, Socket.getBytes, hbytes]
    rfl

/-- No call of `getFrameAscii` returns `false`. -/
theorem returns_getFrameAscii {delimiter : UInt8} {ok : Bool} :
    Returns (Socket.getFrameAscii n delimiter) st (ok, a) st' ↔
      ok = true ∧ ∃ rest, Loop.run (Socket.frameBody delimiter) n ⟨[], st.garbage 0, st.stream⟩ =
        some (a, rest) ∧ st' = { st with
          stream := rest
          garbage := fun n ↦ st.garbage (n + 1)
          frameReads := st.frameReads ++ [⟨delimiter, st.stream, true⟩] } := by
  rw [Returns, Socket.getFrameAscii]
  rcases hrun : Loop.run (Socket.frameBody delimiter) n ⟨[], st.garbage 0, st.stream⟩ with
    - | ⟨frame, rest⟩
  · constructor
    · intro h
      exact absurd h not_returns_unfinished
    · rintro ⟨-, rest, h, -⟩
      exact absurd h (by simp)
  · constructor
    · intro h
      obtain ⟨rfl, rfl⟩ := Except.ok.inj (Option.some.inj h)
      exact ⟨rfl, rest, rfl, rfl⟩
    · rintro ⟨rfl, rest', h, rfl⟩
      obtain ⟨rfl, rfl⟩ := Option.some.inj h
      rfl

theorem returns_readFrame : Returns (Socket.readFrame n) st a st' ↔
    ∃ rest, Loop.run (Socket.frameBody 0) n ⟨[], st.garbage 0, st.stream⟩ = some (a, rest) ∧
      st' = { st with
        stream := rest
        garbage := fun n ↦ st.garbage (n + 1)
        frameReads := st.frameReads ++ [⟨0, st.stream, true⟩] } := by
  rw [Socket.readFrame, returns_bind]
  constructor
  · rintro ⟨⟨ok, frame⟩, st₁, hget, hrest⟩
    obtain ⟨rfl, rest, hrun, rfl⟩ := returns_getFrameAscii.1 hget
    obtain ⟨rfl, rfl⟩ := returns_pure.1 hrest
    exact ⟨rest, hrun, rfl⟩
  · rintro ⟨rest, hrun, rfl⟩
    exact ⟨(true, a), _, returns_getFrameAscii.2 ⟨rfl, rest, hrun, rfl⟩, returns_pure.2 ⟨rfl, rfl⟩⟩

end Reads

/-! ### The loop of `getFrameAscii` -/

section FrameLoop

variable {delimiter ch : UInt8} {frame stream g rest : List UInt8} {n : ℕ}

theorem mem_of_getFrameAscii (h : getFrameAscii delimiter stream = some (g, rest)) :
    delimiter ∈ stream ∧ rest.length < stream.length := by
  induction stream generalizing g with
  | nil => exact absurd h (by simp [getFrameAscii])
  | cons c stream ih =>
    rw [getFrameAscii] at h
    by_cases hc : delimiter = c
    · rw [if_pos hc] at h
      obtain ⟨rfl, rfl⟩ := Option.some.inj h
      exact ⟨hc ▸ List.mem_cons_self, by simp⟩
    · rw [if_neg hc] at h
      obtain ⟨⟨g', rest'⟩, hg, heq⟩ := Option.map_eq_some_iff.1 h
      obtain ⟨rfl, rfl⟩ := heq
      obtain ⟨hmem, hlt⟩ := ih hg
      exact ⟨List.mem_cons_of_mem c hmem, hlt.trans (by simp)⟩

theorem frameBody_inr {l : Socket.FrameLocals} (h : delimiter = l.stream.headD l.ch) :
    Socket.frameBody delimiter l = .inr (l.frame ++ [l.stream.headD l.ch], l.stream.tail) :=
  if_neg (not_not.2 h)

theorem frameBody_inl {l : Socket.FrameLocals} (h : delimiter ≠ l.stream.headD l.ch) :
    Socket.frameBody delimiter l =
      .inl ⟨l.frame ++ [l.stream.headD l.ch], l.stream.headD l.ch, l.stream.tail⟩ :=
  if_pos h

/-- One iteration per byte is enough. -/
theorem run_frameBody (h : getFrameAscii delimiter stream = some (g, rest))
    (hn : stream.length ≤ n) :
    Loop.run (Socket.frameBody delimiter) n ⟨frame, ch, stream⟩ = some (frame ++ g, rest) := by
  induction stream generalizing frame ch g n with
  | nil => exact absurd h (by simp [getFrameAscii])
  | cons c stream ih =>
    obtain ⟨n, rfl⟩ : ∃ m, n = m + 1 := ⟨n - 1, by rw [List.length_cons] at hn; omega⟩
    rw [getFrameAscii] at h
    by_cases hc : delimiter = c
    · rw [if_pos hc] at h
      obtain ⟨rfl, rfl⟩ := Option.some.inj h
      exact Loop.run_succ_inr (frameBody_inr hc) n
    · rw [if_neg hc] at h
      obtain ⟨⟨g', rest'⟩, hg, heq⟩ := Option.map_eq_some_iff.1 h
      obtain ⟨rfl, rfl⟩ := heq
      rw [Loop.run_succ_inl (frameBody_inl hc) n]
      have hrun := @ih c (frame ++ [c]) g' n hg (by simpa using hn)
      rw [List.append_assoc] at hrun
      exact hrun

/-- What the loop ends with is a frame of the stream, or the stream has ended in it. -/
theorem getFrameAscii_of_run
    (h : Loop.run (Socket.frameBody delimiter) n ⟨frame, ch, stream⟩ = some (g, rest)) :
    (∃ g', g = frame ++ g' ∧ getFrameAscii delimiter stream = some (g', rest)) ∨ rest = [] := by
  induction n generalizing frame ch stream with
  | zero => exact absurd h (by simp [Loop.run])
  | succ n ih =>
    rcases stream with - | ⟨c, stream⟩
    · -- the stream has ended already, and stays so
      right
      by_cases hc : delimiter = ch
      · rw [Loop.run_succ_inr (frameBody_inr hc) n] at h
        obtain ⟨-, rfl⟩ := Option.some.inj h
        rfl
      · rw [Loop.run_succ_inl (frameBody_inl hc) n] at h
        rcases ih h with ⟨g', -, hg⟩ | hrest
        · exact absurd hg (by simp [getFrameAscii])
        · exact hrest
    · by_cases hc : delimiter = c
      · rw [Loop.run_succ_inr (frameBody_inr hc) n] at h
        obtain ⟨rfl, rfl⟩ := Option.some.inj h
        exact .inl ⟨[c], rfl, by rw [getFrameAscii, if_pos hc]; rfl⟩
      · rw [Loop.run_succ_inl (frameBody_inl hc) n] at h
        rcases ih h with ⟨g', rfl, hg⟩ | hrest
        · refine .inl ⟨c :: g', ?_, ?_⟩
          · rw [List.append_assoc]
            rfl
          · rw [getFrameAscii, if_neg hc]
            exact congrArg (Option.map _) hg
        · exact .inr hrest

end FrameLoop

/-! ### Following a reader -/

/-- The computation returns what the reader reads, unless the stream ends in it. -/
structure Follows {α : Type} (iterations : ℕ) (x : Socket α) (r : Reader α) : Prop where
  sound : ∀ {st a st'}, Returns x st a st' →
    (r st.flags st.stream = some (st'.flags, a, st'.stream) ∧
      (FramesComplete st → FramesComplete st')) ∨ st'.stream = []
  shrinks : ∀ {st a st'}, Returns x st a st' → st'.stream.length ≤ st.stream.length
  complete : ∀ {st flags a rest}, st.stream.length < iterations →
    r st.flags st.stream = some (flags, a, rest) →
      ∃ st', Returns x st a st' ∧ st'.flags = flags ∧ st'.stream = rest

/-- The computation returns what the reader reads. -/
structure FollowsExactly {α : Type} (iterations : ℕ) (x : Socket α) (r : Reader α) : Prop
    extends Follows iterations x r where
  exact : ∀ {st a st'}, Returns x st a st' →
    r st.flags st.stream = some (st'.flags, a, st'.stream) ∧
      (FramesComplete st → FramesComplete st')

section Following

variable {α β : Type} {iterations : ℕ} {x : Socket α} {y : α → Socket β} {r : Reader α}
  {next : α → Reader β}

theorem FollowsExactly.of_exact
    (hexact : ∀ {st a st'}, Returns x st a st' →
      r st.flags st.stream = some (st'.flags, a, st'.stream) ∧
        (FramesComplete st → FramesComplete st'))
    (hshrinks : ∀ {st a st'}, Returns x st a st' → st'.stream.length ≤ st.stream.length)
    (hcomplete : ∀ {st flags a rest}, st.stream.length < iterations →
      r st.flags st.stream = some (flags, a, rest) →
        ∃ st', Returns x st a st' ∧ st'.flags = flags ∧ st'.stream = rest) :
    FollowsExactly iterations x r where
  sound h := .inl (hexact h)
  shrinks := hshrinks
  complete := hcomplete
  exact := hexact

theorem follows_pure (a : α) : FollowsExactly iterations (pure a) (.pure a) := by
  refine .of_exact ?_ ?_ ?_
  · intro st b st' h
    obtain ⟨rfl, rfl⟩ := returns_pure.1 h
    exact ⟨rfl, id⟩
  · intro st b st' h
    obtain ⟨rfl, rfl⟩ := returns_pure.1 h
    exact le_rfl
  · intro st flags b rest _ h
    obtain ⟨rfl, rfl, rfl⟩ := Option.some.inj h
    exact ⟨st, returns_pure.2 ⟨rfl, rfl⟩, rfl, rfl⟩

theorem follows_returnNull : FollowsExactly iterations (Socket.returnNull (α := α)) fail := by
  refine .of_exact ?_ ?_ ?_
  · intro st b st' h
    exact absurd h not_returns_returnNull
  · intro st b st' h
    exact absurd h not_returns_returnNull
  · intro st flags b rest _ h
    exact absurd h (by simp [fail])

theorem follows_modify {f : Flags → Flags} :
    FollowsExactly iterations (modify fun st ↦ { st with flags := f st.flags }) (update f) := by
  refine .of_exact ?_ ?_ ?_
  · intro st b st' h
    obtain rfl := returns_modify.1 h
    exact ⟨rfl, id⟩
  · intro st b st' h
    obtain rfl := returns_modify.1 h
    exact le_rfl
  · intro st flags b rest _ h
    obtain ⟨rfl, rfl, rfl⟩ := Option.some.inj h
    exact ⟨_, returns_modify.2 rfl, rfl, rfl⟩

theorem follows_read (n : ℕ) : FollowsExactly iterations (Socket.read n) (bytesReader n) := by
  refine .of_exact ?_ ?_ ?_
  · intro st a st' h
    obtain ⟨rest, hget, rfl⟩ := returns_read.1 h
    exact ⟨lift_eq_some.2 ⟨rfl, hget⟩, id⟩
  · intro st a st' h
    obtain ⟨rest, hget, rfl⟩ := returns_read.1 h
    exact length_of_getBytes hget
  · intro st flags a rest _ h
    obtain ⟨rfl, hget⟩ := lift_eq_some.1 h
    exact ⟨_, returns_read.2 ⟨rest, hget, rfl⟩, rfl, rfl⟩

theorem follows_readFrame : Follows iterations (Socket.readFrame iterations) frameReader where
  sound := by
    intro st a st' h
    obtain ⟨rest, hrun, rfl⟩ := returns_readFrame.1 h
    rcases getFrameAscii_of_run hrun with ⟨g, rfl, hget⟩ | hrest
    · refine .inl ⟨lift_eq_some.2 ⟨rfl, hget⟩, fun hst r hr ↦ ?_⟩
      rcases List.mem_append.1 hr with hr | hr
      · exact hst r hr
      · obtain rfl := List.mem_singleton.1 hr
        exact (mem_of_getFrameAscii hget).1
    · exact .inr hrest
  shrinks := by
    intro st a st' h
    obtain ⟨rest, hrun, rfl⟩ := returns_readFrame.1 h
    rcases getFrameAscii_of_run hrun with ⟨g, rfl, hget⟩ | hrest
    · exact (mem_of_getFrameAscii hget).2.le
    · rw [hrest]
      exact Nat.zero_le _
  complete := by
    intro st flags a rest hlen h
    obtain ⟨rfl, hget⟩ := lift_eq_some.1 h
    exact ⟨_, returns_readFrame.2 ⟨rest, run_frameBody hget hlen.le, rfl⟩, rfl, rfl⟩

/-- One computation behind the other. -/
theorem Follows.bind (hx : Follows iterations x r) (hy : ∀ a, Follows iterations (y a) (next a)) :
    Follows iterations (x >>= y) (r.bind next) where
  sound := by
    intro st b st' h
    obtain ⟨a, st₁, hfirst, hsecond⟩ := returns_bind.1 h
    rcases (hy a).sound hsecond with ⟨hread, hframes⟩ | hempty
    · rcases hx.sound hfirst with ⟨hread₁, hframes₁⟩ | hempty
      · exact .inl ⟨bind_eq_some.2 ⟨_, _, _, hread₁, hread⟩, hframes ∘ hframes₁⟩
      · have hlen := (hy a).shrinks hsecond
        rw [hempty] at hlen
        exact .inr (List.length_eq_zero_iff.1 (Nat.le_zero.1 hlen))
    · exact .inr hempty
  shrinks := by
    intro st b st' h
    obtain ⟨a, st₁, hfirst, hsecond⟩ := returns_bind.1 h
    exact ((hy a).shrinks hsecond).trans (hx.shrinks hfirst)
  complete := by
    intro st flags b rest hlen h
    obtain ⟨flags₁, a, s₁, hread₁, hread⟩ := bind_eq_some.1 h
    obtain ⟨st₁, hfirst, rfl, rfl⟩ := hx.complete hlen hread₁
    obtain ⟨st', hsecond, hflags, hstream⟩ :=
      (hy a).complete ((hx.shrinks hfirst).trans_lt hlen) hread
    exact ⟨st', returns_bind.2 ⟨a, st₁, hfirst, hsecond⟩, hflags, hstream⟩

theorem FollowsExactly.bind (hx : FollowsExactly iterations x r)
    (hy : ∀ a, FollowsExactly iterations (y a) (next a)) :
    FollowsExactly iterations (x >>= y) (r.bind next) where
  toFollows := hx.toFollows.bind fun a ↦ (hy a).toFollows
  exact := by
    intro st b st' h
    obtain ⟨a, st₁, hfirst, hsecond⟩ := returns_bind.1 h
    obtain ⟨hread₁, hframes₁⟩ := hx.exact hfirst
    obtain ⟨hread, hframes⟩ := (hy a).exact hsecond
    exact ⟨bind_eq_some.2 ⟨_, _, _, hread₁, hread⟩, hframes ∘ hframes₁⟩

/-- A change of the flags under a condition, and a computation behind it. -/
theorem Follows.afterUpdate {c : Prop} [Decidable c] {f : Flags → Flags} {x : Socket Unit}
    {y : Unit → Socket β} {r : Reader β} (hx : FollowsExactly iterations x (update f))
    (hy : Follows iterations (y ()) r) :
    Follows iterations (if c then x >>= y else y ())
      ((update fun flags ↦ if c then f flags else flags).bind fun _ ↦ r) := by
  by_cases hc : c
  · simp only [if_pos hc]
    exact hx.toFollows.bind fun _ ↦ hy
  · simp only [if_neg hc]
    exact hy

/-- **A byte behind a computation decides whether the stream has ended in it.** -/
theorem Follows.closed {x : Socket (List UInt8)} {r : Reader (List UInt8)}
    (hx : Follows iterations x r) (kind : List UInt8) :
    FollowsExactly iterations
      (do
        let answer ← x
        let _ ← Socket.read 1
        return kind ++ answer)
      (closedReader kind r) where
  toFollows := hx.bind fun answer ↦
    ((follows_read 1).bind fun _ ↦ follows_pure (kind ++ answer)).toFollows
  exact := by
    intro st b st' h
    obtain ⟨answer, st₁, hfirst, hsecond⟩ := returns_bind.1 h
    have hclosing : FollowsExactly iterations
        (do
          let _ ← Socket.read 1
          return kind ++ answer)
        ((bytesReader 1).bind fun _ ↦ .pure (kind ++ answer)) :=
      (follows_read 1).bind fun _ ↦ follows_pure (kind ++ answer)
    obtain ⟨hread, hframes⟩ := hclosing.exact hsecond
    rcases hx.sound hfirst with ⟨hread₁, hframes₁⟩ | hempty
    · exact ⟨bind_eq_some.2 ⟨_, _, _, hread₁, hread⟩, hframes ∘ hframes₁⟩
    · rw [hempty] at hread
      exact absurd hread (by simp [bytesReader, getBytes])

end Following

/-! ### `decoder` -/

section Decoder

variable (iterations : ℕ)

theorem follows_notificationDecoder :
    Follows iterations (Socket.notificationDecoder iterations) notificationReader :=
  (follows_read 1).toFollows.bind fun _ ↦ follows_readFrame.bind fun _ ↦
    follows_readFrame.bind fun _ ↦ (follows_pure _).toFollows

theorem follows_setTerminate : FollowsExactly iterations Socket.setTerminate
    (update fun flags ↦ { flags with terminate := true }) :=
  follows_modify (f := fun flags ↦ { flags with terminate := true })

theorem follows_setLogoutFailed : FollowsExactly iterations Socket.setLogoutFailed
    (update fun flags ↦ { flags with logoutFailed := true }) :=
  follows_modify (f := fun flags ↦ { flags with logoutFailed := true })

theorem follows_ackDecoder : Follows iterations (Socket.ackDecoder iterations) ackReader := by
  refine (follows_read 2).toFollows.bind fun op ↦ .afterUpdate (follows_setTerminate iterations) ?_
  split_ifs
  · exact (follows_read 2).toFollows.bind fun _ ↦ follows_readFrame.bind fun _ ↦
      (follows_read 1).toFollows.bind fun _ ↦ (follows_pure _).toFollows
  · exact ((follows_read 2).bind fun _ ↦ (follows_read 2).bind fun _ ↦ (follows_read 2).bind fun _ ↦
      (follows_read 2).bind fun _ ↦ follows_pure _).toFollows
  · exact (follows_pure _).toFollows

theorem follows_errorDecoder : Follows iterations Socket.errorDecoder errorReader :=
  (follows_read 2).toFollows.bind fun _ ↦
    .afterUpdate (follows_setLogoutFailed iterations) (follows_pure _).toFollows

/-- **The socket thread reads what `decoder` reads.** -/
theorem follows_decoder : FollowsExactly iterations (Socket.decoder iterations) decoder := by
  rw [decoder_eq_reader]
  refine (follows_read 2).bind fun opCode ↦ ?_
  split_ifs
  · exact (follows_notificationDecoder iterations).closed (ascii "NOTIFICATION ")
  · exact (follows_ackDecoder iterations).closed (ascii "ACK ")
  · exact (follows_errorDecoder iterations).closed (ascii "ERROR ")
  · exact follows_returnNull

end Decoder

end SplNet.Client
