import SplNet.Api.DecoderArray

/-!
# Frames in the byte array

What `decodeNextByte` returns when the bytes of some frames, each ended by `';'`, and of an
unfinished frame are handed to it one by one, in any state between two frames that a decoder gets
into: whatever array and whatever left-over bytes the frames before have brought about.

**Each `';'` returns the frame it ends, every other byte returns `null`, and the unfinished frame
stays pending**, exactly when the unfinished frame has at most `1 << 30` bytes
(`server_framing_iff`); the array cannot be made long enough for more.
-/

namespace SplNet

open Java LabelledMachine

/-- A decoder whose calls go on after an exception. -/
def decoderMachine :
    LabelledMachine DecoderArray UInt8 (Except DecodeException (Option JString)) where
  init := .new
  step := DecoderArray.decodeNextByte

/-- Frames, each ended by `';'`, and an unfinished frame. -/
def framed (frames : List (List UInt8)) (rest : List UInt8) : List UInt8 :=
  frames.flatMap (· ++ [Decoder.semicolon]) ++ rest

/-- What the calls for the bytes of a frame and its `';'` return. -/
def frameAnswers (frame : List UInt8) : List (Option JString) :=
  List.replicate frame.length none ++ [some (utf8Decode frame)]

/-- What the calls for frames and an unfinished frame return. -/
def framedAnswers (frames : List (List UInt8)) (rest : List UInt8) : List (Option JString) :=
  frames.flatMap frameAnswers ++ List.replicate rest.length none

/-- The bytes are decoded as the frames they are put together from, and the unfinished frame is what
is pending. -/
def DecodesFramed (d : DecoderArray) (frames : List (List UInt8)) (rest : List UInt8) : Prop :=
  decoderMachine.outputsFrom d (framed frames rest) = (framedAnswers frames rest).map .ok ∧
    ((framed frames rest).foldl decoderMachine.next d).pending = rest

/-! ### One byte -/

/-- The array stands for these pending bytes. -/
def Holds (d : DecoderArray) (pending : List UInt8) : Prop :=
  ∃ D, d.Refines D ∧ D.bytes = pending

variable {d : DecoderArray} {pending : List UInt8}

theorem Holds.pending_eq (h : Holds d pending) : d.pending = pending := by
  obtain ⟨D, href, rfl⟩ := h
  exact href.pending

theorem Holds.push (h : Holds d pending) {b : UInt8} (hb : b ≠ Decoder.semicolon)
    (hlen : pending.length < Decoder.frameLimit) :
    decoderMachine.output d b = .ok none ∧ Holds (decoderMachine.next d b) (pending ++ [b]) := by
  obtain ⟨D, href, rfl⟩ := h
  obtain ⟨D', hpush, -, hbytes⟩ := (Decoder.pushByte_eq href.wellSized b).1 hlen
  have hD : D.decodeNextByte b = some (D', none) := by
    rw [Decoder.decodeNextByte, if_neg hb, hpush]
    rfl
  obtain ⟨d', hd, href'⟩ := (d.decodeNextByte_refines href b).1 D' none hD
  have hstep : decoderMachine.step d b = (d', .ok none) := hd
  rw [output, next, hstep]
  exact ⟨rfl, D', href', hbytes⟩

/-- The exception leaves the array as it was. -/
theorem Holds.full (h : Holds d pending) {b : UInt8} (hb : b ≠ Decoder.semicolon)
    (hlen : Decoder.frameLimit ≤ pending.length) :
    decoderMachine.output d b = .error .negativeArraySize ∧ decoderMachine.next d b = d := by
  obtain ⟨D, href, rfl⟩ := h
  have hD : D.decodeNextByte b = none := by
    rw [Decoder.decodeNextByte, if_neg hb, (Decoder.pushByte_eq href.wellSized b).2 hlen]
    rfl
  have hstep : decoderMachine.step d b = (d, .error .negativeArraySize) :=
    (d.decodeNextByte_refines href b).2 hD
  rw [output, next, hstep]
  exact ⟨rfl, rfl⟩

theorem Holds.pop (h : Holds d pending) :
    decoderMachine.output d Decoder.semicolon = .ok (some (utf8Decode pending)) ∧
      Holds (decoderMachine.next d Decoder.semicolon) [] := by
  obtain ⟨D, href, rfl⟩ := h
  obtain ⟨d', hd, href'⟩ := (d.decodeNextByte_refines href Decoder.semicolon).1 _ _ (if_pos rfl)
  have hstep : decoderMachine.step d Decoder.semicolon = (d', .ok (some (utf8Decode D.bytes))) := hd
  rw [output, next, hstep]
  exact ⟨rfl, _, href', rfl⟩

/-- In every state the array stands for some bytes. -/
theorem exists_holds (h : decoderMachine.Reachable d) : ∃ pending, Holds d pending := by
  refine h.invariant (P := fun d ↦ ∃ pending, Holds d pending)
    ⟨[], _, DecoderArray.refines_new, rfl⟩ ?_
  rintro d b - ⟨pending, hd⟩
  by_cases hb : b = Decoder.semicolon
  · rw [hb]
    exact ⟨_, hd.pop.2⟩
  · rcases Nat.lt_or_ge pending.length Decoder.frameLimit with hlt | hge
    · exact ⟨_, (hd.push hb hlt).2⟩
    · rw [(hd.full hb hge).2]
      exact ⟨pending, hd⟩

/-! ### Many bytes -/

/-- The bytes of an unfinished frame return `null` and are collected. -/
theorem Holds.collect (h : Holds d pending) {frame : List UInt8}
    (hframe : Decoder.semicolon ∉ frame)
    (hlen : pending.length + frame.length ≤ Decoder.frameLimit) :
    decoderMachine.outputsFrom d frame = List.replicate frame.length (.ok none) ∧
      Holds (frame.foldl decoderMachine.next d) (pending ++ frame) := by
  induction frame generalizing d pending with
  | nil => exact ⟨rfl, by rwa [List.append_nil]⟩
  | cons b frame ih =>
    rw [List.mem_cons, not_or] at hframe
    rw [List.length_cons] at hlen
    obtain ⟨houtput, hnext⟩ := h.push (Ne.symm hframe.1) (by omega)
    obtain ⟨houtputs, hlast⟩ := ih hnext hframe.2 (by
      rw [List.length_append, List.length_singleton]
      omega)
    rw [List.append_assoc, List.singleton_append] at hlast
    refine ⟨?_, hlast⟩
    rw [outputsFrom, houtput, houtputs, List.length_cons, List.replicate_succ]

/-- Some byte of a frame that is too long throws. -/
theorem Holds.overflow (h : Holds d pending) {frame : List UInt8}
    (hframe : Decoder.semicolon ∉ frame)
    (hfits : pending.length ≤ Decoder.frameLimit)
    (hlen : Decoder.frameLimit < pending.length + frame.length) :
    .error .negativeArraySize ∈ decoderMachine.outputsFrom d frame := by
  induction frame generalizing d pending with
  | nil =>
    rw [List.length_nil] at hlen
    omega
  | cons b frame ih =>
    rw [List.mem_cons, not_or] at hframe
    rw [List.length_cons] at hlen
    rw [outputsFrom, List.mem_cons]
    rcases Nat.lt_or_ge pending.length Decoder.frameLimit with hlt | hge
    · refine Or.inr (ih (h.push (Ne.symm hframe.1) hlt).2 hframe.2 ?_ ?_)
      all_goals
        rw [List.length_append, List.length_singleton]
        omega
    · exact Or.inl (h.full (Ne.symm hframe.1) hge).1.symm

/-- A frame and its `';'` return the frame at the end. -/
theorem Holds.frame (h : Holds d []) {frame : List UInt8} (hframe : Decoder.semicolon ∉ frame)
    (hlen : frame.length ≤ Decoder.frameLimit) :
    decoderMachine.outputsFrom d (frame ++ [Decoder.semicolon]) = (frameAnswers frame).map .ok ∧
      Holds ((frame ++ [Decoder.semicolon]).foldl decoderMachine.next d) [] := by
  obtain ⟨houtputs, hcollected⟩ := h.collect hframe (by simpa using hlen)
  rw [List.nil_append] at hcollected
  obtain ⟨houtput, hnext⟩ := hcollected.pop
  refine ⟨?_, by rwa [List.foldl_append]⟩
  rw [outputsFrom_append, houtputs, outputsFrom, houtput, frameAnswers, List.map_append,
    List.map_replicate]
  rfl

theorem Holds.frames (h : Holds d []) {frames : List (List UInt8)}
    (hframes : ∀ frame ∈ frames,
      Decoder.semicolon ∉ frame ∧ frame.length ≤ Decoder.frameLimit) :
    decoderMachine.outputsFrom d (frames.flatMap (· ++ [Decoder.semicolon])) =
        (frames.flatMap frameAnswers).map .ok ∧
      Holds ((frames.flatMap (· ++ [Decoder.semicolon])).foldl decoderMachine.next d) [] := by
  induction frames generalizing d with
  | nil => exact ⟨rfl, h⟩
  | cons frame frames ih =>
    obtain ⟨hframe, hlen⟩ := hframes frame List.mem_cons_self
    obtain ⟨houtputs, hnext⟩ := h.frame hframe hlen
    obtain ⟨houtputs', hlast⟩ := ih hnext fun f hf ↦ hframes f (List.mem_cons_of_mem frame hf)
    rw [List.flatMap_cons, List.flatMap_cons]
    refine ⟨?_, by rwa [List.foldl_append]⟩
    rw [outputsFrom_append, houtputs, houtputs', List.map_append]

/-- **Frames are decoded one by one and the unfinished one is kept**, exactly when it is not too
long. -/
theorem Holds.decodesFramed_iff (h : Holds d []) {frames : List (List UInt8)}
    (hframes : ∀ frame ∈ frames,
      Decoder.semicolon ∉ frame ∧ frame.length ≤ Decoder.frameLimit)
    {rest : List UInt8} (hrest : Decoder.semicolon ∉ rest) :
    DecodesFramed d frames rest ↔ rest.length ≤ Decoder.frameLimit := by
  obtain ⟨houtputs, hlast⟩ := h.frames hframes
  have hsplit : decoderMachine.outputsFrom d (framed frames rest) =
      (frames.flatMap frameAnswers).map .ok ++ decoderMachine.outputsFrom
        ((frames.flatMap (· ++ [Decoder.semicolon])).foldl decoderMachine.next d) rest := by
    rw [framed, outputsFrom_append, houtputs]
  constructor
  · rintro ⟨hdecodes, -⟩
    by_contra hlong
    have hthrow := hlast.overflow hrest (Nat.zero_le _) (by simpa using hlong)
    have hmem : .error .negativeArraySize ∈ (framedAnswers frames rest).map
        (.ok : _ → Except DecodeException (Option JString)) := by
      rw [← hdecodes, hsplit]
      exact List.mem_append_right _ hthrow
    obtain ⟨answer, -, heq⟩ := List.mem_map.1 hmem
    exact absurd heq (by simp)
  · intro hlen
    obtain ⟨houtputs', hpending⟩ := hlast.collect hrest (by simpa using hlen)
    refine ⟨?_, ?_⟩
    · rw [hsplit, houtputs', framedAnswers, List.map_append, List.map_replicate]
    · rw [framed, List.foldl_append]
      exact hpending.pending_eq

/-! ### The law -/

/-- **Server framing.** Between two frames, every list of frames below `1 << 30` bytes with an
unfinished frame behind it is decoded as what it is, exactly when the unfinished frame has at most
`1 << 30` bytes. -/
theorem server_framing_iff (h : decoderMachine.Reachable d) (hlen : d.len = 0)
    {frames : List (List UInt8)}
    (hframes : ∀ frame ∈ frames, Decoder.semicolon ∉ frame ∧ frame.length < 0x40000000)
    {rest : List UInt8} (hrest : Decoder.semicolon ∉ rest) :
    DecodesFramed d frames rest ↔ rest.length ≤ Decoder.frameLimit := by
  obtain ⟨pending, hd⟩ := exists_holds h
  have hempty : pending = [] := by
    rw [← hd.pending_eq, DecoderArray.pending, hlen, List.take_zero]
  rw [hempty] at hd
  exact hd.decodesFramed_iff (fun frame hmem ↦ (hframes frame hmem).imp_right Nat.le_of_lt) hrest

/-- Two frames and the beginning of a third, with the bytes of a longer frame left over. -/
theorem server_framing_iff_leftOver :
    DecodesFramed ((framed [[0x78, 0x79, 0x7A]] []).foldl decoderMachine.next .new)
      [[0x61], []] [0x62, 0x63] :=
  (server_framing_iff ⟨framed [[0x78, 0x79, 0x7A]] [], rfl⟩ (by decide +kernel) (by decide)
    (by decide)).2 (by decide)

/-- An unfinished frame of one byte more than `1 << 30` is not kept. -/
theorem long_rest_not_kept :
    decoderMachine.Reachable .new ∧ DecoderArray.new.len = 0 ∧
      Decoder.semicolon ∉ List.replicate 0x40000001 (0x61 : UInt8) ∧
        ¬ DecodesFramed .new [] (List.replicate 0x40000001 0x61) := by
  have hrest : Decoder.semicolon ∉ List.replicate 0x40000001 (0x61 : UInt8) :=
    fun hmem ↦ absurd (List.eq_of_mem_replicate hmem) (by decide)
  have hempty : Holds .new [] := ⟨_, DecoderArray.refines_new, rfl⟩
  refine ⟨⟨[], rfl⟩, rfl, hrest, ?_⟩
  rw [hempty.decodesFramed_iff (fun _ h ↦ absurd h List.not_mem_nil) hrest,
    List.length_replicate, Decoder.frameLimit]
  omega

end SplNet
