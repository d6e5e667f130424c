import SplNet.System.DirectoryServer

/-!
# The server is a directory

In every run in which no name is a part of another one, every client logs in once, and clients that
have logged out are silent, the server answers REGISTER, LOGIN, LOGOUT, FOLLOW and BLOCK as the
directory does, and its store represents the directory (`server_is_directory`). The iteration order
of the maps, the other frames and the start-up path make no difference.
-/

namespace SplNet

open Java LabelledMachine

/-- What happens to the server, as the directory sees it. -/
inductive Input
  | accept
  /-- A request, with the frame it is sent as. -/
  | ask (env : Surroundings) (connectionId : ℤ) (request : Request JString JString)
      (message : JString)
  /-- A frame the directory takes no notice of. -/
  | other (env : Surroundings) (connectionId : ℤ) (message : JString)

/-- What happens to the server. -/
def Input.event : Input → Event
  | .accept => .accept
  | .ask env c _ message => .request env c message
  | .other env c message => .request env c message

/-- The directory of a server, with the verdicts on the requests. -/
noncomputable def directoryMachine : LabelledMachine ServerDirectory Input (Option Verdict) where
  init := .empty
  step d
    | .ask _ c request _ => (d.next c request, some (d.verdict c request))
    | _ => (d, none)

/-- The store of the server after these inputs. -/
def serverAfter (mode : ServerMode) (is : List Input) : Server :=
  (serverMachine mode).stateAfter (is.map Input.event)

/-- A request comes on an accepted connection, in a well-formed frame with these names, from a
client that logs in once and is silent after it has logged out. The other frames are no requests. -/
def Input.Fits (names : Set JString) (s : Server) (d : ServerDirectory) : Input → Prop
  | .accept => True
  | .ask _ c request message =>
    c ∈ s.connectionsMap ∧ request.Frame names message ∧ d.Expects c request
  | .other _ _ message => ∀ op ∈ ["01", "02", "03", "04", "12"], ¬ str op <+: message

/-- All inputs fit. -/
def Disciplined (names : Set JString) (mode : ServerMode) (is : List Input) : Prop :=
  ∀ pre i, Occurs is pre i → i.Fits names (serverAfter mode pre) (directoryMachine.stateAfter pre)

section Runs

variable {names : Set JString} {mode : ServerMode} {is : List Input}

/-- The other frames leave the directory alone. -/
theorem Represents.other {s : Server} {d : ServerDirectory} (h : Represents names s d)
    {env : Surroundings} {c : ℤ} {message : JString}
    (hop : ∀ op ∈ ["01", "02", "03", "04", "12"], ¬ str op <+: message) :
    Represents names ((serverMachine mode).next s (.request env c message)) d := by
  have heffect := effect_next mode s (.request env c message)
  generalize (serverMachine mode).next s (.request env c message) = s' at heffect
  cases heffect with
  | unchanged => exact h
  | register => exact absurd (List.prefix_append _ _) (hop "01" (by decide))
  | login => exact absurd (List.prefix_append _ _) (hop "02" (by decide))
  | logout => exact absurd (List.prefix_append _ _) (hop "03" (by decide))
  | follow => exact absurd (List.prefix_append _ _) (hop "04" (by decide))
  | unfollow => exact absurd (List.prefix_append _ _) (hop "04" (by decide))
  | block => exact absurd (List.prefix_append _ _) (hop "12" (by decide))
  | post =>
    exact h.of_same
      ⟨rfl, rfl, fun r ↦ by rw [queuePost_eq_except], fun r ↦ by rw [queuePost_eq_except],
        fun r ↦ by rw [queuePost_eq_except]⟩
      ⟨rfl, fun r ↦ by rw [queuePost_eq_except], fun r ↦ by rw [queuePost_eq_except]⟩
      ⟨fun r ↦ by rw [queuePost_eq_except], fun r ↦ by rw [queuePost_eq_except]⟩

/-- The store represents the directory all along a disciplined run. -/
theorem represents_along (hN : WholeNames names) (h : Disciplined names mode is) {pre : List Input}
    (hpre : pre <+: is) :
    Represents names (serverAfter mode pre) (directoryMachine.stateAfter pre) := by
  induction pre using List.reverseRecOn with
  | nil => exact represents_init names mode
  | append_singleton pre i ih =>
    have hrep := ih ((List.prefix_append pre [i]).trans hpre)
    have hreach := (serverMachine mode).reachable_stateAfter (pre.map Input.event)
    rw [serverAfter, List.map_append, List.map_singleton, stateAfter_concat, stateAfter_concat]
    cases i with
    | accept =>
      exact hrep.of_same ⟨rfl, rfl, fun _ ↦ rfl, fun _ ↦ rfl, fun _ ↦ rfl⟩
        ⟨rfl, fun _ ↦ rfl, fun _ ↦ rfl⟩ ⟨fun _ ↦ rfl, fun _ ↦ rfl⟩
    | ask env c request message =>
      obtain ⟨hconn, hframe, hexpects⟩ := h pre _ hpre
      show Represents names
        ((serverMachine mode).next (serverAfter mode pre) (.request env c message)) _
      rw [next_request_of_mem mode _ hconn]
      exact (hrep.process hN (coherent_of_reachable hreach) (followLists_of_reachable hreach) hconn
        hframe hexpects env).represents
    | other env c message => exact hrep.other (h pre _ hpre)

/-- **The server is a directory.** -/
theorem server_is_directory (hN : WholeNames names) (h : Disciplined names mode is) :
    Represents names (serverAfter mode is) (directoryMachine.stateAfter is) ∧
      ∀ pre env c request message, Occurs is pre (.ask env c request message) →
        request.AnsweredBy c (process env c (serverAfter mode pre) message).sent
          ((directoryMachine.stateAfter pre).verdict c request) := by
  refine ⟨represents_along hN h List.prefix_rfl, fun pre env c request message hocc ↦ ?_⟩
  have hreach := (serverMachine mode).reachable_stateAfter (pre.map Input.event)
  obtain ⟨hconn, hframe, hexpects⟩ := h pre _ hocc
  exact ((represents_along hN h hocc.before).process hN (coherent_of_reachable hreach)
    (followLists_of_reachable hreach) hconn hframe hexpects env).answered

/-! ### Standings -/

/-- A LOGIN of this client. -/
def Input.logsIn (c : ℤ) : Input → Bool
  | .ask _ c' (.login _ _) _ => c' = c
  | _ => false

/-- A LOGOUT of this client. -/
def Input.logsOut (c : ℤ) : Input → Bool
  | .ask _ c' .logout _ => c' = c
  | _ => false

/-- A client that has asked for no LOGOUT is not gone. -/
theorem standing_ne_gone {c : ℤ} (h : ∀ i ∈ is, i.logsOut c = false) :
    (directoryMachine.stateAfter is).standing c ≠ .gone := by
  induction is using List.reverseRecOn with
  | nil => simp [directoryMachine, Directory.empty]
  | append_singleton is i ih =>
    have hbefore := ih fun j hj ↦ h j (List.mem_append_left _ hj)
    rw [stateAfter_concat]
    cases i with
    | accept => exact hbefore
    | other env d message => exact hbefore
    | ask env d request message =>
      obtain hsame | ⟨hc, ⟨n, p, -, hstanding⟩ | ⟨rfl, -⟩⟩ :=
        (directoryMachine.stateAfter is).standing_next d c request
      · exact fun hgone ↦ hbefore (hsame.symm.trans hgone)
      · exact fun hgone ↦ absurd (hstanding.symm.trans hgone) (by simp)
      · exact absurd hc (of_decide_eq_false (h _ List.mem_concat_self))

/-- A client that has asked for no LOGIN and no LOGOUT is a guest. -/
theorem standing_eq_guest {c : ℤ} (h : ∀ i ∈ is, i.logsIn c = false ∧ i.logsOut c = false) :
    (directoryMachine.stateAfter is).standing c = .guest := by
  induction is using List.reverseRecOn with
  | nil => rfl
  | append_singleton is i ih =>
    have hbefore := ih fun j hj ↦ h j (List.mem_append_left _ hj)
    rw [stateAfter_concat]
    cases i with
    | accept => exact hbefore
    | other env d message => exact hbefore
    | ask env d request message =>
      obtain hsame | ⟨hc, ⟨n, p, rfl, -⟩ | ⟨rfl, -⟩⟩ :=
        (directoryMachine.stateAfter is).standing_next d c request
      · exact hsame.trans hbefore
      · exact absurd hc (of_decide_eq_false (h _ List.mem_concat_self).1)
      · exact absurd hc (of_decide_eq_false (h _ List.mem_concat_self).2)

/-- An accepted connection stays in the map. -/
theorem mem_connectionsMap_serverAfter {c : ℤ} {pre : List Input} (hpre : pre <+: is)
    (hc : c ∈ (serverAfter mode pre).connectionsMap) :
    c ∈ (serverAfter mode is).connectionsMap := by
  obtain ⟨rest, rfl⟩ := hpre
  induction rest using List.reverseRecOn with
  | nil => rwa [List.append_nil]
  | append_singleton rest i ih =>
    rw [← List.append_assoc, serverAfter, List.map_append, List.map_singleton, stateAfter_concat]
    exact (effect_next mode _ i.event).mem_connectionsMap ih

end Runs

/-! ### A run of two users -/

/-- Bob follows Alice, Alice blocks him, and he leaves. -/
def aliceAndBob : List Input :=
  [.accept, .accept,
    .ask .listed 0 (.register (str "alice") (str "a"))
      (registerFrame (str "alice") (str "a") (str "01-01-1990")),
    .ask .listed 1 (.register (str "bob") (str "b"))
      (registerFrame (str "bob") (str "b") (str "01-01-1990")),
    .ask .listed 0 (.login (str "alice") (str "a")) (loginFrame (str "alice") (str "a") (str "1")),
    .ask .listed 1 (.login (str "bob") (str "b")) (loginFrame (str "bob") (str "b") (str "1")),
    .ask .listed 1 (.follow (str "alice")) (GraphAction.follow.frame (str "alice")),
    .ask .listed 0 (.block (str "bob")) (GraphAction.block.frame (str "bob")),
    .ask .listed 1 .logout (str "03" ++ [])]

theorem wholeNames_aliceAndBob : WholeNames {str "alice", str "bob"} where
  eq_of_contains := by
    rintro a (rfl | rfl) b (rfl | rfl) hpart
    · rfl
    · exact absurd hpart (by decide)
    · exact absurd hpart (by decide)
    · rfl
  nul_not_mem := by
    rintro a (rfl | rfl) <;> decide

/-- Both are accepted before the first request, and nobody is gone before the last one. -/
theorem ready_aliceAndBob {n : ℕ} (hn : 2 ≤ n) (hn' : n ≤ 8) {c : ℤ} (hc : c ∈ [(0 : ℤ), 1]) :
    c ∈ (serverAfter .reactor (aliceAndBob.take n)).connectionsMap ∧
      (directoryMachine.stateAfter (aliceAndBob.take n)).standing c ≠ .gone := by
  have haccepted : ∀ c ∈ [(0 : ℤ), 1],
      c ∈ (serverAfter .reactor (aliceAndBob.take 2)).connectionsMap := by decide
  have hsilent : ∀ c ∈ [(0 : ℤ), 1], ∀ i ∈ aliceAndBob.take 8, i.logsOut c = false := by decide
  exact ⟨mem_connectionsMap_serverAfter (List.take_prefix_take_left hn) (haccepted c hc),
    standing_ne_gone fun i hi ↦ hsilent c hc i (List.take_subset_take_left aliceAndBob hn' hi)⟩

theorem disciplined_aliceAndBob :
    Disciplined {str "alice", str "bob"} .reactor aliceAndBob := by
  have halice : str "alice" ∈ ({str "alice", str "bob"} : Set JString) := .inl rfl
  have hbob : str "bob" ∈ ({str "alice", str "bob"} : Set JString) := .inr rfl
  refine forall_occurs fun n ↦ ?_
  rcases n with ⟨_ | _ | _ | _ | _ | _ | _ | _ | _ | n, hn⟩
  · trivial
  · trivial
  · obtain ⟨hconn, hhere⟩ := ready_aliceAndBob (n := 2) (c := 0) (by decide) (by decide) (by decide)
    exact ⟨hconn, .register halice (by decide) (by decide) (by decide), hhere,
      fun _ _ h ↦ absurd h (by simp)⟩
  · obtain ⟨hconn, hhere⟩ := ready_aliceAndBob (n := 3) (c := 1) (by decide) (by decide) (by decide)
    exact ⟨hconn, .register hbob (by decide) (by decide) (by decide), hhere,
      fun _ _ h ↦ absurd h (by simp)⟩
  · obtain ⟨hconn, hhere⟩ := ready_aliceAndBob (n := 4) (c := 0) (by decide) (by decide) (by decide)
    have hguest : ∀ i ∈ aliceAndBob.take 4, i.logsIn 0 = false ∧ i.logsOut 0 = false := by decide
    exact ⟨hconn, .login halice (by decide), hhere, fun _ _ _ ↦ standing_eq_guest hguest⟩
  · obtain ⟨hconn, hhere⟩ := ready_aliceAndBob (n := 5) (c := 1) (by decide) (by decide) (by decide)
    have hguest : ∀ i ∈ aliceAndBob.take 5, i.logsIn 1 = false ∧ i.logsOut 1 = false := by decide
    exact ⟨hconn, .login hbob (by decide), hhere, fun _ _ _ ↦ standing_eq_guest hguest⟩
  · obtain ⟨hconn, hhere⟩ := ready_aliceAndBob (n := 6) (c := 1) (by decide) (by decide) (by decide)
    exact ⟨hconn, .graph halice .follow, hhere, fun _ _ h ↦ absurd h (by simp)⟩
  · obtain ⟨hconn, hhere⟩ := ready_aliceAndBob (n := 7) (c := 0) (by decide) (by decide) (by decide)
    exact ⟨hconn, .graph hbob .block, hhere, fun _ _ h ↦ absurd h (by simp)⟩
  · obtain ⟨hconn, hhere⟩ := ready_aliceAndBob (n := 8) (c := 1) (by decide) (by decide) (by decide)
    exact ⟨hconn, .logout [], hhere, fun _ _ h ↦ absurd h (by simp)⟩
  · exact absurd hn (Nat.not_lt.2 (Nat.le_add_left 9 n))

theorem server_is_directory_aliceAndBob :
    Represents {str "alice", str "bob"} (serverAfter .reactor aliceAndBob)
        (directoryMachine.stateAfter aliceAndBob) ∧
      ∀ pre env c request message, Occurs aliceAndBob pre (.ask env c request message) →
        request.AnsweredBy c (process env c (serverAfter .reactor pre) message).sent
          ((directoryMachine.stateAfter pre).verdict c request) :=
  server_is_directory wholeNames_aliceAndBob disciplined_aliceAndBob

end SplNet
