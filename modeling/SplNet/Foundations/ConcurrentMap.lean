import Mathlib.Data.List.Basic
import Mathlib.Data.List.Nodup

/-!
# Hash maps with unspecified iteration order

A map from keys to values as its list of entries, with the law that no key occurs twice carried as
a field. The list is a representation only: iteration visits the entries in an order supplied from
outside (`IterationOrder`), an arbitrary permutation chosen for each entry list. Quantifying over
`IterationOrder` is quantifying over the iteration order of the real map.
-/

/-- A map as a list of entries with distinct keys. -/
structure ConcurrentMap (κ ν : Type*) where
  /-- The entries. -/
  entries : List (κ × ν)
  /-- No key occurs twice. -/
  nodupKeys : (entries.map Prod.fst).Nodup

/-- The order in which an iteration visits the entries of a map. -/
structure IterationOrder (κ ν : Type*) where
  /-- The visited entries, in order. -/
  arrange : List (κ × ν) → List (κ × ν)
  /-- Every entry is visited exactly once. -/
  perm : ∀ es, (arrange es).Perm es

namespace IterationOrder

variable {κ ν : Type*}

/-- Visit the entries as they are listed. -/
def listed : IterationOrder κ ν := ⟨id, fun _ ↦ List.Perm.refl _⟩

/-- Visit a given entry before all others. -/
def startingWith [DecidableEq κ] [DecidableEq ν] (e : κ × ν) : IterationOrder κ ν where
  arrange es := if e ∈ es then e :: es.erase e else es
  perm es := by
    split
    case isTrue h => exact (List.perm_cons_erase h).symm
    case isFalse => exact List.Perm.refl _

/-- The values of a map in iteration order. -/
def values (o : IterationOrder κ ν) (m : ConcurrentMap κ ν) : List ν :=
  (o.arrange m.entries).map Prod.snd

/-- The keys of a map in iteration order. -/
def keys (o : IterationOrder κ ν) (m : ConcurrentMap κ ν) : List κ :=
  (o.arrange m.entries).map Prod.fst

theorem mem_values {o : IterationOrder κ ν} {m : ConcurrentMap κ ν} {v : ν} :
    v ∈ o.values m ↔ ∃ k, (k, v) ∈ m.entries := by
  simp [values, (o.perm m.entries).mem_iff]

theorem values_startingWith [DecidableEq κ] [DecidableEq ν] {m : ConcurrentMap κ ν} {e : κ × ν}
    (h : e ∈ m.entries) :
    (startingWith e).values m = e.2 :: (m.entries.erase e).map Prod.snd := by
  have harrange : (startingWith e).arrange m.entries = e :: m.entries.erase e := if_pos h
  rw [values, harrange, List.map_cons]

theorem values_perm (o o' : IterationOrder κ ν) (m : ConcurrentMap κ ν) :
    (o.values m).Perm (o'.values m) :=
  ((o.perm m.entries).trans (o'.perm m.entries).symm).map _

end IterationOrder

namespace ConcurrentMap

variable {κ ν : Type*}

/-- The map without entries. -/
def empty : ConcurrentMap κ ν := ⟨[], List.nodup_nil⟩

@[simp] theorem entries_empty : (empty : ConcurrentMap κ ν).entries = [] := rfl

/-- Keep only the entries whose key passes a test. -/
def filterKeys (m : ConcurrentMap κ ν) (p : κ → Bool) : ConcurrentMap κ ν :=
  ⟨m.entries.filter fun e ↦ p e.1,
    m.nodupKeys.sublist (List.Sublist.map _ List.filter_sublist)⟩

theorem mem_filterKeys {m : ConcurrentMap κ ν} {p : κ → Bool} {k : κ} {v : ν} :
    (k, v) ∈ (m.filterKeys p).entries ↔ (k, v) ∈ m.entries ∧ p k := by
  simp [filterKeys]

/-- A test every key passes removes nothing. -/
theorem filterKeys_eq_self {m : ConcurrentMap κ ν} {p : κ → Bool} (h : ∀ k, p k) :
    m.filterKeys p = m := by
  simp [filterKeys, h]

/-- A key has one value. -/
theorem eq_of_mem {m : ConcurrentMap κ ν} {k : κ} {v v' : ν} (h : (k, v) ∈ m.entries)
    (h' : (k, v') ∈ m.entries) : v = v' :=
  congrArg Prod.snd (List.inj_on_of_nodup_map m.nodupKeys h h' rfl)

variable [DecidableEq κ]

/-- `put`: the new entry replaces an entry under the same key. -/
def put (m : ConcurrentMap κ ν) (k : κ) (v : ν) : ConcurrentMap κ ν where
  entries := (k, v) :: (m.filterKeys (· ≠ k)).entries
  nodupKeys := by
    rw [List.map_cons, List.nodup_cons]
    refine ⟨?_, (m.filterKeys _).nodupKeys⟩
    simp [filterKeys]

theorem mem_put {m : ConcurrentMap κ ν} {k k' : κ} {v v' : ν} :
    (k', v') ∈ (m.put k v).entries ↔ k' = k ∧ v' = v ∨ k' ≠ k ∧ (k', v') ∈ m.entries := by
  rw [put, List.mem_cons, mem_filterKeys, Prod.mk.injEq]
  simp [and_comm]

theorem mem_put_self (m : ConcurrentMap κ ν) (k : κ) (v : ν) : (k, v) ∈ (m.put k v).entries :=
  mem_put.2 (Or.inl ⟨rfl, rfl⟩)

end ConcurrentMap
