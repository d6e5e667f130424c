import SplNet.Srv.ContinueWrite

/-!
# `continueWrite` and a failing channel

The loop of `continueWrite` is left when a buffer has bytes left or the queue is empty. Its `catch`
closes the channel and stays in the loop with the same buffer, and every later write throws as well.

**A call returns exactly when no write throws before a buffer has bytes left**
(`continueWrite_returns_iff`); the selector thread never comes back from any other call.
-/

namespace SplNet

namespace WriteCall

variable {shouldTerminate : Bool} {s : WriteCall} {top : List UInt8} {rest : List (List UInt8)}

/-! ### One iteration -/

theorem body_of_nil (h : s.writeQueue = []) :
    body shouldTerminate s = .inr (if shouldTerminate then .close s.close else .setRead s) := by
  rw [body, h]

theorem body_of_left {limit : ℕ} (h : s.writeQueue = top :: rest)
    (hwrite : s.write 0 = .transfers limit) (hlimit : limit < top.length) :
    body shouldTerminate s = .inr (.hasRemaining (s.goOn (top.drop limit :: rest) s.isOpen)) := by
  have hne : top.drop limit ≠ [] := by
    rw [ne_eq, List.drop_eq_nil_iff]
    omega
  simp only [body, h, hwrite, if_pos hne]

theorem body_of_whole {limit : ℕ} (h : s.writeQueue = top :: rest)
    (hwrite : s.write 0 = .transfers limit) (hlimit : top.length ≤ limit) :
    body shouldTerminate s = .inl (s.goOn rest s.isOpen) := by
  have hnil : ¬ top.drop limit ≠ [] := not_not.2 (List.drop_eq_nil_of_le hlimit)
  simp only [body, h, hwrite, if_neg hnil]

theorem body_of_exception (h : s.writeQueue = top :: rest) (hwrite : s.write 0 = .ioException) :
    body shouldTerminate s = .inl (s.goOn (top :: rest) false) := by
  simp only [body, h, hwrite]

/-! ### The whole call -/

/-- **A closed channel keeps the selector thread in the loop** as long as there is a buffer. -/
theorem not_returns_of_closed (h : s.isOpen = false) (hqueue : s.writeQueue ≠ []) :
    ¬ Returns shouldTerminate s := by
  refine Loop.runsForever (P := fun s ↦ s.isOpen = false ∧ s.writeQueue ≠ []) ?_ ⟨h, hqueue⟩
  rintro s ⟨hclosed, hqueue⟩
  obtain ⟨top, rest, hcons⟩ := List.exists_cons_of_ne_nil hqueue
  have hwrite : s.write 0 = .ioException := by
    rw [write, hclosed]
    rfl
  exact ⟨_, body_of_exception hcons hwrite, rfl, List.cons_ne_nil top rest⟩

/-- When the first buffer is written whole, the call fails if it fails for the others. -/
theorem fails_iff_of_whole {limit : ℕ} (h : s.writeQueue = top :: rest)
    (hwrite : s.write 0 = .transfers limit) (hlimit : top.length ≤ limit) :
    s.Fails ↔ (s.goOn rest s.isOpen).Fails := by
  constructor
  · rintro ⟨n, hn, hwhole, hfails⟩
    rcases n with - | n
    · exact absurd (hwrite.symm.trans hfails) (by simp)
    · refine ⟨n, ?_, fun i top' hi htop' ↦ ?_, hfails⟩
      · rw [h, List.length_cons] at hn
        exact Nat.lt_of_succ_lt_succ hn
      · refine hwhole (i + 1) top' (Nat.succ_lt_succ hi) ?_
        rw [h, List.getElem?_cons_succ]
        exact htop'
  · rintro ⟨n, hn, hwhole, hfails⟩
    refine ⟨n + 1, ?_, fun i top' hi htop' ↦ ?_, hfails⟩
    · rw [h, List.length_cons]
      exact Nat.succ_lt_succ hn
    · rw [h] at htop'
      rcases i with - | i
      · obtain rfl := Option.some.inj htop'
        exact ⟨limit, hwrite, hlimit⟩
      · exact hwhole i top' (Nat.lt_of_succ_lt_succ hi) htop'

/-- **`continueWrite` returns exactly when no write throws** before it has left bytes of a buffer
over or emptied the queue. -/
theorem returns_iff : Returns shouldTerminate s ↔ ¬ s.Fails := by
  induction hqueue : s.writeQueue generalizing s with
  | nil =>
    refine iff_of_true ⟨_, Loop.ends_of_inr (body_of_nil hqueue)⟩ ?_
    rintro ⟨n, hn, -⟩
    rw [hqueue] at hn
    exact absurd hn (Nat.not_lt_zero n)
  | cons top rest ih =>
    rcases hwrite : s.write 0 with limit | -
    · rcases Nat.lt_or_ge limit top.length with hlt | hge
      · -- the buffer has bytes left
        refine iff_of_true ⟨_, Loop.ends_of_inr (body_of_left hqueue hwrite hlt)⟩ ?_
        rintro ⟨n, -, hwhole, hfails⟩
        rcases n with - | n
        · exact absurd (hwrite.symm.trans hfails) (by simp)
        · have htop : s.writeQueue[0]? = some top := by rw [hqueue, List.getElem?_cons_zero]
          obtain ⟨limit', hwrite', hle⟩ := hwhole 0 top n.succ_pos htop
          obtain rfl := WriteResult.transfers.inj (hwrite.symm.trans hwrite')
          omega
      · -- the buffer is removed
        rw [fails_iff_of_whole hqueue hwrite hge, ← ih rfl, Returns, Returns]
        exact exists_congr fun r ↦ Loop.ends_iff_of_inl (body_of_whole hqueue hwrite hge)
    · -- the channel is closed, and the loop goes on
      have hnone : s.WritesWhole 0 := fun i _ hi ↦ absurd hi (Nat.not_lt_zero i)
      refine iff_of_false ?_ (not_not.2 ⟨0, ?_, hnone, hwrite⟩)
      · rintro ⟨r, hr⟩
        exact not_returns_of_closed rfl (List.cons_ne_nil top rest)
          ⟨r, (Loop.ends_iff_of_inl (body_of_exception hqueue hwrite)).1 hr⟩
      · rw [hqueue, List.length_cons]
        exact Nat.succ_pos _

end WriteCall

/-! ### The law -/

/-- **A call of `continueWrite` returns exactly when no write throws** before one leaves bytes of a
buffer over, for every queue and every behaviour of the channel. -/
theorem continueWrite_returns_iff (shouldTerminate : Bool) (s : WriteCall) :
    s.Returns shouldTerminate ↔
      ∀ n, n < s.writeQueue.length → s.WritesWhole n → s.write n ≠ .ioException := by
  rw [WriteCall.returns_iff, WriteCall.Fails]
  constructor
  · exact fun hnot n hn hwhole hfails ↦ hnot ⟨n, hn, hwhole, hfails⟩
  · rintro hnever ⟨n, hn, hwhole, hfails⟩
    exact hnever n hn hwhole hfails

/-- A message of one byte, and a client that has reset the connection. -/
def brokenClient : WriteCall where
  writeQueue := [[0x3B]]
  isOpen := true
  channel := fun _ ↦ .ioException

/-- **A broken client hangs the selector thread.** -/
theorem broken_client_hangs : ¬ brokenClient.Returns false :=
  fun h ↦ WriteCall.returns_iff.1 h
    ⟨0, Nat.zero_lt_one, fun i _ hi ↦ absurd hi (Nat.not_lt_zero i), rfl⟩

end SplNet
