import Mathlib.Data.List.Nodup
import Mathlib.Data.List.Perm.Basic

/-!
# Exclusive ownership

Objects that are handed around between places: a free list, the hands of a thread, the tasks of an
actor. `Exclusive holds` says that **every object is in at most one place, and there once**. Handing
one object over keeps this (`Exclusive.move`), and so does bringing in a new one (`Exclusive.add`),
however many places there are and in whatever order a place keeps its objects.
-/

/-- No object is in two places or twice in one. -/
structure Exclusive {P B : Type*} (holds : P → List B) : Prop where
  nodup : ∀ p, (holds p).Nodup
  place_unique : ∀ {p q b}, b ∈ holds p → b ∈ holds q → p = q

/-- The object `b` is taken out of the place `p`. -/
structure TakenFrom {P B : Type*} (holds holds' : P → List B) (p : P) (b : B) : Prop where
  taken : (holds p).Perm (b :: holds' p)
  other : ∀ r, r ≠ p → holds' r = holds r

/-- The object `b` is put into the place `q`. -/
structure PutInto {P B : Type*} (holds holds' : P → List B) (q : P) (b : B) : Prop where
  put : (holds' q).Perm (b :: holds q)
  other : ∀ r, r ≠ q → holds' r = holds r

/-- The object `b` goes from the place `p` to the place `q`. -/
structure HandedOver {P B : Type*} (holds holds' : P → List B) (p q : P) (b : B) : Prop where
  ne : p ≠ q
  taken : (holds p).Perm (b :: holds' p)
  put : (holds' q).Perm (b :: holds q)
  other : ∀ r, r ≠ p → r ≠ q → holds' r = holds r

section Moves

variable {P B : Type*} {holds holds' : P → List B} {p q r : P} {b x : B}

theorem TakenFrom.mem (h : TakenFrom holds holds' p b) (hx : x ∈ holds' r) : x ∈ holds r := by
  rcases eq_or_ne r p with rfl | hne
  · exact h.taken.mem_iff.2 (List.mem_cons_of_mem b hx)
  · exact h.other r hne ▸ hx

theorem PutInto.mem (h : PutInto holds holds' q b) (hx : x ∈ holds' r) :
    x ∈ holds r ∨ x = b ∧ r = q := by
  rcases eq_or_ne r q with rfl | hne
  · rcases List.mem_cons.1 (h.put.mem_iff.1 hx) with rfl | hx
    · exact Or.inr ⟨rfl, rfl⟩
    · exact Or.inl hx
  · exact Or.inl (h.other r hne ▸ hx)

/-- Nothing new turns up when an object is handed over. -/
theorem HandedOver.exists_mem (h : HandedOver holds holds' p q b) (hx : x ∈ holds' r) :
    ∃ r', x ∈ holds r' := by
  rcases eq_or_ne r p with rfl | hp
  · exact ⟨r, h.taken.mem_iff.2 (List.mem_cons_of_mem b hx)⟩
  rcases eq_or_ne r q with rfl | hq
  · rcases List.mem_cons.1 (h.put.mem_iff.1 hx) with rfl | hx
    · exact ⟨p, h.taken.mem_iff.2 List.mem_cons_self⟩
    · exact ⟨r, hx⟩
  · exact ⟨r, h.other r hp hq ▸ hx⟩

namespace Exclusive

theorem empty : Exclusive (fun _ : P ↦ ([] : List B)) :=
  ⟨fun _ ↦ List.nodup_nil, fun h ↦ absurd h List.not_mem_nil⟩

/-- An object nobody has is brought in. -/
theorem add (h : Exclusive holds) (hput : PutInto holds holds' q b) (hnew : ∀ r, b ∉ holds r) :
    Exclusive holds' where
  nodup r := by
    rcases eq_or_ne r q with rfl | hne
    · exact hput.put.nodup_iff.2 (List.nodup_cons.2 ⟨hnew r, h.nodup r⟩)
    · rw [hput.other r hne]
      exact h.nodup r
  place_unique := by
    intro r r' x hr hr'
    rcases hput.mem hr with hold | ⟨rfl, rfl⟩
    · rcases hput.mem hr' with hold' | ⟨rfl, rfl⟩
      · exact h.place_unique hold hold'
      · exact absurd hold (hnew r)
    · rcases hput.mem hr' with hold' | ⟨-, rfl⟩
      · exact absurd hold' (hnew r')
      · rfl

/-- An object that is taken out is nowhere. -/
theorem drop (h : Exclusive holds) (htaken : TakenFrom holds holds' p b) :
    Exclusive holds' ∧ ∀ r, b ∉ holds' r := by
  have hb : b ∈ holds p := htaken.taken.mem_iff.2 List.mem_cons_self
  have hnodup := List.nodup_cons.1 (htaken.taken.nodup_iff.1 (h.nodup p))
  refine ⟨⟨fun r ↦ ?_, fun hr hr' ↦ h.place_unique (htaken.mem hr) (htaken.mem hr')⟩,
    fun r hr ↦ ?_⟩
  · rcases eq_or_ne r p with rfl | hne
    · exact hnodup.2
    · rw [htaken.other r hne]
      exact h.nodup r
  · obtain rfl := h.place_unique hb (htaken.mem hr)
    exact hnodup.1 hr

/-- **Handing an object over keeps it in one place.** -/
theorem move [DecidableEq P] (h : Exclusive holds) (hmove : HandedOver holds holds' p q b) :
    Exclusive holds' := by
  -- in between it is nowhere
  let between : P → List B := fun r ↦ if r = q then holds q else holds' r
  have hbetween : ∀ r, r ≠ q → between r = holds' r := fun r hr ↦ if_neg hr
  have htaken : TakenFrom holds between p b := by
    refine ⟨?_, fun r hr ↦ ?_⟩
    · rw [hbetween p hmove.ne]
      exact hmove.taken
    · rcases eq_or_ne r q with rfl | hrq
      · exact if_pos rfl
      · rw [hbetween r hrq]
        exact hmove.other r hr hrq
  have hput : PutInto between holds' q b := by
    refine ⟨?_, fun r hr ↦ (hbetween r hr).symm⟩
    rw [show between q = holds q from if_pos rfl]
    exact hmove.put
  obtain ⟨hexclusive, hnowhere⟩ := h.drop htaken
  exact hexclusive.add hput hnowhere

end Exclusive

end Moves
