import SplNet.Foundations.LabelledRun
import SplNet.Api.MessageEncoderDecoderImpl

/-!
# The byte array of the decoder

`MessageEncoderDecoderImpl.decodeNextByte` on the fields the class really has: an array, of which
the first `len` bytes are the unfinished frame and the others are left over from earlier frames or
from the last copy. `Arrays.copyOf`, the store into the array and the construction of the string can
all throw.

**The array refines the collected bytes** (`decodeNextByte_refines`): one call does to the array
what `Decoder.decodeNextByte` does to the bytes it stands for, the left-over bytes are never looked
at, and the only exception is that of `Arrays.copyOf`.
-/

namespace SplNet

open Java

/-- What a call of `decodeNextByte` can raise. -/
inductive DecodeException
  | negativeArraySize
  | arrayIndexOutOfBounds
  | stringIndexOutOfBounds
deriving DecidableEq, Repr

/-- The fields of `MessageEncoderDecoderImpl`. -/
structure DecoderArray where
  bytes : List UInt8
  len : ℕ
deriving DecidableEq

namespace DecoderArray

/-- `new MessageEncoderDecoderImpl()`: an array of zeros. -/
def new : DecoderArray := ⟨List.replicate 0x400 0, 0⟩

/-- `len * 2` on `int`s. -/
def doubled (len : ℕ) : ℤ := ((len : ℤ) * 2).bmod 0x100000000

/-- `Arrays.copyOf`: cut to the new length, or filled up with zeros. -/
def copyOf (bytes : List UInt8) (newLength : ℤ) : Except DecodeException (List UInt8) :=
  if newLength < 0 then .error .negativeArraySize
  else .ok (bytes.take newLength.toNat ++ List.replicate (newLength.toNat - bytes.length) 0)

/-- `pushByte`. The index of the store is incremented before the store. -/
def pushByte (d : DecoderArray) (nextByte : UInt8) : DecoderArray × Except DecodeException Unit :=
  match if d.bytes.length ≤ d.len then copyOf d.bytes (doubled d.len) else .ok d.bytes with
  | .ok bytes =>
    if d.len < bytes.length then (⟨bytes.set d.len nextByte, d.len + 1⟩, .ok ())
    else (⟨bytes, d.len + 1⟩, .error .arrayIndexOutOfBounds)
  | .error e => (d, .error e)

/-- `popString`. -/
def popString (d : DecoderArray) : DecoderArray × Except DecodeException JString :=
  if d.len ≤ d.bytes.length then ({ d with len := 0 }, .ok (utf8Decode (d.bytes.take d.len)))
  else (d, .error .stringIndexOutOfBounds)

/-- `decodeNextByte`; `none` is the `null` of an unfinished frame. -/
def decodeNextByte (d : DecoderArray) (nextByte : UInt8) :
    DecoderArray × Except DecodeException (Option JString) :=
  if nextByte = Decoder.semicolon then
    let (d, result) := d.popString
    (d, result.map some)
  else
    let (d, result) := d.pushByte nextByte
    (d, result.map fun _ ↦ none)

/-- The bytes of the unfinished frame. -/
def pending (d : DecoderArray) : List UInt8 := d.bytes.take d.len

/-- The array stands for the collected bytes. -/
structure Refines (d : DecoderArray) (D : Decoder) : Prop where
  pending : d.pending = D.bytes
  capacity : d.bytes.length = D.capacity
  len_le : d.len ≤ d.bytes.length
  wellSized : D.WellSized

theorem refines_new : new.Refines .new where
  pending := rfl
  capacity := List.length_replicate
  len_le := Nat.zero_le _
  wellSized := Decoder.wellSized_new

variable {d : DecoderArray} {D : Decoder}

theorem Refines.len_eq (h : d.Refines D) : d.len = D.bytes.length := by
  rw [← h.pending, DecoderArray.pending, List.length_take, min_eq_left h.len_le]

/-- A store behind the pending bytes appends to them. -/
theorem take_set {bytes : List UInt8} {n : ℕ} (hn : n < bytes.length) (b : UInt8) :
    (bytes.set n b).take (n + 1) = bytes.take n ++ [b] := by
  rw [List.take_succ_eq_append_getElem (by rwa [List.length_set]), List.take_set_of_le le_rfl,
    List.getElem_set_self]

theorem doubled_of_lt {n : ℕ} (h : n * 2 < 0x80000000) : doubled n = (n * 2 : ℕ) := by
  have hdoubled : doubled n = (n : ℤ) * 2 := Int.bmod_eq_of_le (by omega) (by omega)
  rw [hdoubled, Int.natCast_mul]
  rfl

theorem doubled_frameLimit : doubled Decoder.frameLimit < 0 := by decide +kernel

/-- Filling up with zeros keeps the bytes. -/
theorem copyOf_of_le {bytes : List UInt8} {n : ℕ} (h : bytes.length ≤ n) :
    copyOf bytes n = .ok (bytes ++ List.replicate (n - bytes.length) 0) := by
  rw [copyOf, if_neg (by omega), Int.toNat_natCast, List.take_of_length_le h]

theorem pushByte_refines (h : d.Refines D) (b : UInt8) :
    (∀ D', D.pushByte b = some D' → ∃ d', d.pushByte b = (d', .ok ()) ∧ d'.Refines D') ∧
      (D.pushByte b = none → d.pushByte b = (d, .error .negativeArraySize)) := by
  have hsized : ∀ D', D.pushByte b = some D' → D'.WellSized := by
    intro D' hpush
    rcases Nat.lt_or_ge D.bytes.length Decoder.frameLimit with hlt | hge
    · obtain ⟨D'', hpush', hsize, -⟩ := (Decoder.pushByte_eq h.wellSized b).1 hlt
      obtain rfl := Option.some.inj (hpush.symm.trans hpush')
      exact hsize
    · exact absurd (hpush.symm.trans ((Decoder.pushByte_eq h.wellSized b).2 hge)) (by simp)
  have hlen := h.len_eq
  have hcapacity := h.capacity
  rcases Nat.lt_or_ge d.len d.bytes.length with hroom | hfull
  · -- there is room
    have hpush : D.pushByte b = some { D with bytes := D.bytes ++ [b] } :=
      if_pos (by rw [← hlen, ← hcapacity]; exact hroom)
    have hstore : d.pushByte b = (⟨d.bytes.set d.len b, d.len + 1⟩, .ok ()) := by
      simp only [pushByte, if_neg (Nat.not_le.2 hroom), if_pos hroom]
    refine ⟨fun D' hD' ↦ ⟨_, hstore, ?_⟩, fun hnone ↦ absurd (hpush.symm.trans hnone) (by simp)⟩
    obtain rfl := Option.some.inj (hpush.symm.trans hD')
    refine ⟨?_, ?_, ?_, hsized _ hpush⟩
    · show (d.bytes.set d.len b).take (d.len + 1) = D.bytes ++ [b]
      rw [take_set hroom, ← h.pending, pending]
    · exact List.length_set.trans hcapacity
    · exact (Nat.succ_le_of_lt hroom).trans_eq List.length_set.symm
  · -- the array is full
    have heq : d.len = d.bytes.length := le_antisymm h.len_le hfull
    have hpending : d.pending = d.bytes := by rw [pending, heq, List.take_length]
    have hnot : ¬ D.bytes.length < D.capacity := by omega
    rcases Nat.lt_or_ge (D.bytes.length * 2) 0x80000000 with hint | hover
    · have hpush : D.pushByte b = some ⟨D.bytes ++ [b], D.bytes.length * 2⟩ := by
        rw [Decoder.pushByte, if_neg hnot, if_pos hint]
      have hpos : 0 < d.len := by
        obtain ⟨k, -, hk⟩ := h.wellSized.doubled
        rw [heq, hcapacity, hk, Nat.shiftLeft_eq]
        exact Nat.mul_pos (by decide) (Nat.pow_pos (by decide))
      have hcopy : copyOf d.bytes (doubled d.len) =
          .ok (d.bytes ++ List.replicate d.len 0) := by
        rw [doubled_of_lt (by omega), copyOf_of_le (by omega)]
        congr 3
        omega
      have hstore : d.pushByte b =
          (⟨(d.bytes ++ List.replicate d.len 0).set d.len b, d.len + 1⟩, .ok ()) := by
        simp only [pushByte, if_pos hfull, hcopy]
        rw [if_pos (by simp; omega)]
      refine ⟨fun D' hD' ↦ ⟨_, hstore, ?_⟩, fun hnone ↦ absurd (hpush.symm.trans hnone) (by simp)⟩
      obtain rfl := Option.some.inj (hpush.symm.trans hD')
      refine ⟨?_, ?_, ?_, hsized _ hpush⟩
      · show ((d.bytes ++ List.replicate d.len 0).set d.len b).take (d.len + 1) = D.bytes ++ [b]
        rw [take_set (by simp; omega), List.take_left' heq.symm, ← hpending, h.pending]
      · show ((d.bytes ++ List.replicate d.len 0).set d.len b).length = D.bytes.length * 2
        rw [List.length_set, List.length_append, List.length_replicate]
        omega
      · show d.len + 1 ≤ ((d.bytes ++ List.replicate d.len 0).set d.len b).length
        rw [List.length_set, List.length_append, List.length_replicate]
        omega
    · have hlimit : d.len = Decoder.frameLimit := by
        have := h.wellSized.capacity_le
        rw [Decoder.frameLimit] at this ⊢
        omega
      have hpush : D.pushByte b = none := by
        rw [Decoder.pushByte, if_neg hnot, if_neg (Nat.not_lt.2 hover)]
      have hthrow : d.pushByte b = (d, .error .negativeArraySize) := by
        have hcopy : copyOf d.bytes (doubled d.len) = .error .negativeArraySize :=
          if_pos (hlimit ▸ doubled_frameLimit)
        simp only [pushByte, if_pos hfull, hcopy]
      exact ⟨fun D' hD' ↦ absurd (hpush.symm.trans hD') (by simp), fun _ ↦ hthrow⟩

/-- **One call on the array is one call on the collected bytes.** An exception leaves the array as
it was. -/
theorem decodeNextByte_refines (h : d.Refines D) (b : UInt8) :
    (∀ D' message, D.decodeNextByte b = some (D', message) →
        ∃ d', d.decodeNextByte b = (d', .ok message) ∧ d'.Refines D') ∧
      (D.decodeNextByte b = none → d.decodeNextByte b = (d, .error .negativeArraySize)) := by
  by_cases hb : b = Decoder.semicolon
  · have hpop : d.decodeNextByte b =
        ({ d with len := 0 }, .ok (some (utf8Decode (d.bytes.take d.len)))) := by
      simp only [decodeNextByte, if_pos hb, popString, if_pos h.len_le]
      rfl
    have hD : D.decodeNextByte b = some ({ D with bytes := [] }, some (utf8Decode D.bytes)) :=
      if_pos hb
    refine ⟨fun D' message hD' ↦ ⟨{ d with len := 0 }, ?_, ?_⟩,
      fun hnone ↦ absurd (hD.symm.trans hnone) (by simp)⟩
    · obtain ⟨-, rfl⟩ := Prod.mk.inj (Option.some.inj (hD.symm.trans hD'))
      rw [hpop, ← h.pending, pending]
    · obtain ⟨rfl, -⟩ := Prod.mk.inj (Option.some.inj (hD.symm.trans hD'))
      exact ⟨rfl, h.capacity, Nat.zero_le _, ⟨Nat.zero_le _, h.wellSized.doubled⟩⟩
  · have hD : D.decodeNextByte b = (D.pushByte b).map fun D ↦ (D, none) := if_neg hb
    have hd : d.decodeNextByte b = ((d.pushByte b).1, (d.pushByte b).2.map fun _ ↦ none) :=
      if_neg hb
    refine ⟨fun D' message hD' ↦ ?_, fun hnone ↦ ?_⟩
    · obtain ⟨D'', hpush, heq⟩ := Option.map_eq_some_iff.1 (hD.symm.trans hD')
      obtain ⟨rfl, rfl⟩ := Prod.mk.inj heq
      obtain ⟨d', hpush', href⟩ := (pushByte_refines h b).1 D'' hpush
      exact ⟨d', by rw [hd, hpush']; rfl, href⟩
    · rw [hd, (pushByte_refines h b).2 (Option.map_eq_none_iff.1 (hD.symm.trans hnone))]
      rfl

end DecoderArray

end SplNet
