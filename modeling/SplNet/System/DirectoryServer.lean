import SplNet.Api.Spec.Exceptions
import SplNet.Properties.FollowGraph
import SplNet.Properties.NamedUsers
import SplNet.Properties.Replies
import SplNet.System.Directory

/-!
# The store as a directory

The store of the server represents a directory (`Represents`) as long as no name is a part of
another one, every client logs in once, and clients that have logged out are silent. Then the
searches of `process` find the users that are meant, in every iteration order, and each request does
to the store what it does to the directory.
-/

namespace SplNet

open Java

/-- Names without separators, none of which is a part of another one. -/
structure WholeNames (names : Set JString) : Prop where
  eq_of_contains : ∀ a ∈ names, ∀ b ∈ names, contains a b = true → a = b
  nul_not_mem : ∀ a ∈ names, nul ∉ a

/-- The directory of the server: names and passwords are texts, clients are connections. -/
abbrev ServerDirectory := Directory JString JString ℤ

/-- A relation among names that the lists of the registered users hold. -/
structure RepresentsLists (s : Server) (pairs : Set (JString × JString))
    (lists : UserRef → List UserRef) : Prop where
  mem_iff : ∀ r r', s.Registered r → s.Registered r' →
    (((s.user r).username, (s.user r').username) ∈ pairs ↔ r' ∈ lists r)
  named : ∀ x ∈ pairs, ∃ r r', s.Named x.1 r ∧ s.Named x.2 r'

/-- **The store represents the directory.** -/
structure Represents (names : Set JString) (s : Server) (d : ServerDirectory) : Prop where
  name_mem : ∀ r, s.Registered r → (s.user r).username ∈ names
  password : ∀ n p, d.password n = some p ↔ ∃ r, s.Named n r ∧ (s.user r).password = p
  standing : ∀ c n, d.standing c = .user n ↔ ∃ r, s.Named n r ∧ HasSession r c s
  /-- Whoever has a session is in the active map, under its own name. -/
  entry : ∀ r c, HasSession r c s → ((s.user r).username, r) ∈ s.activeUsersMap.entries
  /-- The users that LOGOUT has left in the active map are stored with connections that are gone. -/
  activated : ∀ k r, (k, r) ∈ s.activeUsersMap.entries →
    d.standing (s.user r).connId ≠ .gone → (s.user r).isActivated = true
  follows : RepresentsLists s d.follows fun r ↦ (s.user r).followers
  blocks : RepresentsLists s d.blocks fun r ↦ (s.user r).blockingUsers

theorem represents_init (names : Set JString) (mode : ServerMode) :
    Represents names (Server.init mode) .empty where
  name_mem _ := fun ⟨_, h⟩ ↦ absurd h List.not_mem_nil
  password _ _ := iff_of_false (Option.some_ne_none _).symm
    fun ⟨_, ⟨⟨_, h⟩, _⟩, _⟩ ↦ absurd h List.not_mem_nil
  standing _ _ := iff_of_false (by simp [Directory.empty])
    fun ⟨_, ⟨⟨_, h⟩, _⟩, _⟩ ↦ absurd h List.not_mem_nil
  entry _ _ h := absurd h.1 Bool.false_ne_true
  activated _ _ h := absurd h List.not_mem_nil
  follows := ⟨fun _ _ ⟨_, h⟩ ↦ absurd h List.not_mem_nil, fun _ h ↦ h.elim⟩
  blocks := ⟨fun _ _ ⟨_, h⟩ ↦ absurd h List.not_mem_nil, fun _ h ↦ h.elim⟩

/-! ### The searches -/

section Searches

variable {names : Set JString} {s : Server} {d : ServerDirectory} {env : Surroundings} {c : ℤ}
  {n : JString} {r r' : UserRef}

/-- A separator behind a text adds no parts without separators to it. -/
theorem contains_concat_nul {a b : JString} (hb : nul ∉ b) :
    contains (a ++ [nul]) b = contains a b := by
  have hiff : contains (a ++ [nul]) b = true ↔ contains a b = true := by
    rw [contains_iff, contains_iff, List.infix_concat_iff]
    refine or_iff_right_of_imp fun hsuffix ↦ ?_
    obtain rfl | ⟨init, last, rfl⟩ := List.eq_nil_or_concat b
    · exact List.nil_infix
    · -- the last character of the part would be the separator
      obtain ⟨front, hfront⟩ := hsuffix
      rw [List.concat_eq_append, ← List.append_assoc] at hfront
      obtain ⟨-, hlast⟩ := List.append_inj' hfront rfl
      rw [List.concat_eq_append, hlast] at hb
      exact absurd (List.mem_append_right init (List.mem_singleton_self nul)) hb
  exact Bool.eq_iff_iff.2 hiff

/-- The search of LOGIN finds the named user. -/
theorem Represents.findContaining_iff (h : Represents names s d) (hN : WholeNames names)
    (hs : Coherent s) (hn : n ∈ names) : env.findContaining s n = some r ↔ s.Named n r := by
  have hnamed : ∀ r, env.findContaining s n = some r → s.Named n r := fun r hfind ↦ by
    obtain ⟨hreg, hpart⟩ := Surroundings.findContaining_eq_some hfind
    exact ⟨hreg, hN.eq_of_contains _ (h.name_mem r hreg) n hn hpart⟩
  refine ⟨hnamed r, fun hr ↦ ?_⟩
  obtain ⟨r', hr'⟩ := exists_findContaining env hr
  rw [hr', (hnamed r' hr').unique hs hr]

/-- The search of FOLLOW and BLOCK finds the named user. -/
theorem Represents.findContained_iff (h : Represents names s d) (hN : WholeNames names)
    (hs : Coherent s) (hn : n ∈ names) :
    env.findContained s (n ++ [nul]) = some r ↔ s.Named n r := by
  have hnamed : ∀ r, env.findContained s (n ++ [nul]) = some r → s.Named n r := fun r hfind ↦ by
    obtain ⟨hreg, hpart⟩ := Surroundings.findContained_eq_some hfind
    have hmem := h.name_mem r hreg
    rw [contains_concat_nul (hN.nul_not_mem _ hmem)] at hpart
    exact ⟨hreg, (hN.eq_of_contains n hn _ hmem hpart).symm⟩
  refine ⟨hnamed r, fun hr ↦ ?_⟩
  rcases hfind : env.findContained s (n ++ [nul]) with - | r'
  · have hnone := List.find?_eq_none.1 hfind r (Surroundings.mem_users.2 hr.1)
    rw [hr.2, contains_concat_nul (hN.nul_not_mem n hn), contains_self] at hnone
    exact absurd rfl hnone
  · rw [(hnamed r' hfind).unique hs hr]

/-- A session is a standing. -/
theorem Represents.standing_of_session (h : Represents names s d) (hs : Coherent s)
    (hr : HasSession r c s) : d.standing c = .user (s.user r).username :=
  (h.standing c _).2 ⟨r, ⟨hs.activated_registered hr.1, rfl⟩, hr⟩

/-- A connection has one session. -/
theorem Represents.session_unique (h : Represents names s d) (hs : Coherent s)
    (hr : HasSession r c s) (hr' : HasSession r' c s) : r = r' := by
  have hname : Standing.user (s.user r).username = .user (s.user r').username :=
    (h.standing_of_session hs hr).symm.trans (h.standing_of_session hs hr')
  exact Server.Named.unique hs ⟨hs.activated_registered hr.1, Standing.user.inj hname⟩
    ⟨hs.activated_registered hr'.1, rfl⟩

/-- The search for the user of a connection finds the one who has a session there. -/
theorem Represents.findActive_iff (h : Represents names s d) (hs : Coherent s)
    (hc : d.standing c ≠ .gone) : env.findActive s c = some r ↔ HasSession r c s := by
  have hsession : ∀ r, env.findActive s c = some r → HasSession r c s := fun r hfind ↦ by
    obtain ⟨⟨k, hk⟩, rfl⟩ := Surroundings.findActive_eq_some hfind
    exact ⟨h.activated k r hk hc, rfl⟩
  refine ⟨hsession r, fun hr ↦ ?_⟩
  obtain ⟨r', hr'⟩ : ∃ r', env.findActive s c = some r' :=
    Surroundings.exists_findActive (h.entry r c hr) hr.2
  rw [hr', h.session_unique hs (hsession r' hr') hr]

end Searches

/-! ### The relations -/

section Graph

variable {names : Set JString} {s s' : Server} {d d' : ServerDirectory} {c : ℤ} {n : JString}
  {r r' my other : UserRef} {pairs : Set (JString × JString)}
  {lists lists' : UserRef → List UserRef}

theorem SameAccounts.refl (s : Server) : SameAccounts s s :=
  ⟨rfl, rfl, fun _ ↦ rfl, fun _ ↦ rfl, fun _ ↦ rfl⟩

theorem SameAccounts.named_iff (h : SameAccounts s s') : s'.Named n r ↔ s.Named n r := by
  rw [Server.Named, Server.Named, Server.Registered, Server.Registered, h.usersMap, h.username]

theorem SameSessions.hasSession_iff (h : SameSessions s s') :
    HasSession r c s' ↔ HasSession r c s := by
  rw [HasSession, HasSession, h.isActivated, h.connId]

/-- What a request asks for is one pair of users. -/
theorem Represents.asks_iff (h : Represents names s d) (hs : Coherent s)
    (hmy : HasSession my c s) (hother : s.Named n other) (hr : s.Registered r)
    (hr' : s.Registered r') :
    d.Asks c n ((s.user r).username, (s.user r').username) ↔ r = my ∧ r' = other := by
  constructor
  · rintro ⟨hstanding, hname⟩
    rw [h.standing_of_session hs hmy] at hstanding
    have hmynamed : s.Named (s.user r).username my :=
      ⟨hs.activated_registered hmy.1, Standing.user.inj hstanding⟩
    exact ⟨Server.Named.unique hs ⟨hr, rfl⟩ hmynamed, Server.Named.unique hs ⟨hr', hname⟩ hother⟩
  · rintro ⟨rfl, rfl⟩
    exact ⟨h.standing_of_session hs hmy, hother.2⟩

/-- The relation as the lists of other users that have the same names. -/
theorem RepresentsLists.of_same (h : RepresentsLists s pairs lists) (hsame : SameAccounts s s')
    (hlists : ∀ r, lists' r = lists r) : RepresentsLists s' pairs lists' where
  mem_iff r r' hr hr' := by
    rw [hsame.username, hsame.username, hlists]
    exact h.mem_iff r r' (hsame.named_iff.1 ⟨hr, rfl⟩).1 (hsame.named_iff.1 ⟨hr', rfl⟩).1
  named x hx := by
    obtain ⟨r, r', hr, hr'⟩ := h.named x hx
    exact ⟨r, r', hsame.named_iff.2 hr, hsame.named_iff.2 hr'⟩

/-- One pair is added. -/
theorem RepresentsLists.insert (h : RepresentsLists s pairs lists) (hrep : Represents names s d)
    (hs : Coherent s) (hmy : HasSession my c s) (hother : s.Named n other)
    (hlists : ∀ r, lists' r = if r = my then lists my ++ [other] else lists r) :
    RepresentsLists s {x | x ∈ pairs ∨ d.Asks c n x} lists' where
  mem_iff r r' hr hr' := by
    rw [Set.mem_ofPred_eq, h.mem_iff r r' hr hr', hrep.asks_iff hs hmy hother hr hr', hlists]
    split
    case isTrue heq => simp [heq]
    case isFalse hne => simp [hne]
  named x hx := by
    rcases hx with hold | ⟨hstanding, hname⟩
    · exact h.named x hold
    · obtain ⟨r, hr, -⟩ := (hrep.standing c x.1).1 hstanding
      exact ⟨r, other, hr, hname ▸ hother⟩

/-- Some pairs are kept. -/
theorem RepresentsLists.filter (h : RepresentsLists s pairs lists)
    {keep : JString × JString → Prop}
    (hlists : ∀ r r', s.Registered r → s.Registered r' → (r' ∈ lists' r ↔
      r' ∈ lists r ∧ keep ((s.user r).username, (s.user r').username))) :
    RepresentsLists s {x | x ∈ pairs ∧ keep x} lists' where
  mem_iff r r' hr hr' := by
    rw [Set.mem_ofPred_eq, h.mem_iff r r' hr hr', hlists r r' hr hr']
  named x hx := h.named x hx.1

/-- What neither touches the accounts nor the sessions. -/
theorem Represents.of_lists (h : Represents names s d) (hsame : SameAccounts s s')
    (hsessions : SameSessions s s') (hpassword : d'.password = d.password)
    (hstanding : d'.standing = d.standing)
    (hfollows : RepresentsLists s d'.follows fun r ↦ (s'.user r).followers)
    (hblocks : RepresentsLists s d'.blocks fun r ↦ (s'.user r).blockingUsers) :
    Represents names s' d' where
  name_mem r hr := by
    rw [hsame.username]
    exact h.name_mem r (hsame.named_iff.1 ⟨hr, rfl⟩).1
  password n p := by
    rw [hpassword, h.password]
    exact exists_congr fun r ↦ by rw [hsame.named_iff, hsame.password]
  standing c n := by
    rw [hstanding, h.standing]
    exact exists_congr fun r ↦ by rw [hsame.named_iff, hsessions.hasSession_iff]
  entry r c hr := by
    rw [hsame.username, hsessions.activeUsersMap]
    exact h.entry r c (hsessions.hasSession_iff.1 hr)
  activated k r hk := by
    rw [hsessions.activeUsersMap] at hk
    rw [hsessions.connId, hsessions.isActivated, hstanding]
    exact h.activated k r hk
  follows := hfollows.of_same hsame fun _ ↦ rfl
  blocks := hblocks.of_same hsame fun _ ↦ rfl

/-- What changes nothing the directory knows of. -/
theorem Represents.of_same (h : Represents names s d) (hsame : SameAccounts s s')
    (hsessions : SameSessions s s') (hgraph : SameGraph s s') : Represents names s' d :=
  h.of_lists hsame hsessions rfl rfl (h.follows.of_same (.refl s) hgraph.followers)
    (h.blocks.of_same (.refl s) hgraph.blockingUsers)

end Graph

/-! ### Accounts and sessions -/

section Accounts

variable {names : Set JString} {s : Server} {d : ServerDirectory} {c : ℤ} {n : JString}
  {r : UserRef}

theorem registered_putUser_iff (hs : Coherent s) (hfree : ∀ r, ¬ s.Named n r) (u : User) :
    (s.putUser n u).Registered r ↔ r = s.nextUser ∨ s.Registered r := by
  constructor
  · rintro ⟨k, hk⟩
    rcases ConcurrentMap.mem_put.1 hk with ⟨-, hnew⟩ | ⟨-, hold⟩
    · exact Or.inl hnew
    · exact Or.inr ⟨k, hold⟩
  · rintro (rfl | ⟨k, hk⟩)
    · exact ⟨n, ConcurrentMap.mem_put_self _ n _⟩
    · refine ⟨k, ConcurrentMap.mem_put.2 (Or.inr ⟨?_, hk⟩)⟩
      rintro rfl
      exact hfree r ⟨⟨k, hk⟩, hs.username_of_mem hk⟩

/-- The users there have been are not the new one. -/
theorem putUser_user_of_registered (hs : Coherent s) (hr : s.Registered r) (u : User) :
    (s.putUser n u).user r = s.user r :=
  if_neg (Nat.ne_of_lt (hs.registered_lt hr))

theorem putUser_user_self (s : Server) (n : JString) (u : User) :
    (s.putUser n u).user s.nextUser = u := if_pos rfl

/-- A new user stands in no relation. -/
theorem RepresentsLists.putUser {pairs : Set (JString × JString)}
    {lists lists' : UserRef → List UserRef} (h : RepresentsLists s pairs lists) (hs : Coherent s)
    (hfree : ∀ r, ¬ s.Named n r) {u : User} (hu : u.username = n)
    (hregistered : ∀ r r', r' ∈ lists r → s.Registered r')
    (hnew : lists' s.nextUser = []) (hold : ∀ r, s.Registered r → lists' r = lists r) :
    RepresentsLists (s.putUser n u) pairs lists' where
  mem_iff r r' hr hr' := by
    rcases (registered_putUser_iff hs hfree u).1 hr with rfl | hr
    · rw [putUser_user_self, hu, hnew]
      refine iff_of_false (fun hmem ↦ ?_) List.not_mem_nil
      obtain ⟨x, -, hx, -⟩ := h.named _ hmem
      exact hfree x hx
    · rw [putUser_user_of_registered hs hr, hold r hr]
      rcases (registered_putUser_iff hs hfree u).1 hr' with rfl | hr'
      · rw [putUser_user_self, hu]
        refine iff_of_false (fun hmem ↦ ?_) fun hmem ↦ ?_
        · obtain ⟨-, x, -, hx⟩ := h.named _ hmem
          exact hfree x hx
        · exact Nat.lt_irrefl _ (hs.registered_lt (hregistered r _ hmem))
      · rw [putUser_user_of_registered hs hr']
        exact h.mem_iff r r' hr hr'
  named x hx := by
    obtain ⟨r, r', hr, hr'⟩ := h.named x hx
    have hkeep : ∀ {n' r}, s.Named n' r → (s.putUser n u).Named n' r := fun hr ↦
      ⟨(registered_putUser_iff hs hfree u).2 (Or.inr hr.1),
        by rw [putUser_user_of_registered hs hr.1, hr.2]⟩
    exact ⟨r, r', hkeep hr, hkeep hr'⟩

/-- An accepted REGISTER. -/
theorem Represents.register (h : Represents names s d) (hs : Coherent s) (hl : FollowLists s)
    (hn : n ∈ names) (hfree : ∀ r, ¬ s.Named n r) (password birthday : JString) :
    Represents names (s.putUser n (User.new n password birthday))
      (d.apply c (.register n password)) where
  name_mem r hr := by
    rcases (registered_putUser_iff hs hfree _).1 hr with rfl | hr
    · rw [putUser_user_self]
      exact hn
    · rw [putUser_user_of_registered hs hr]
      exact h.name_mem r hr
  password n' p := by
    show Function.update d.password n (some password) n' = some p ↔ _
    constructor
    · intro hp
      by_cases heq : n' = n
      · subst heq
        rw [Function.update_self] at hp
        refine ⟨s.nextUser, ⟨(registered_putUser_iff hs hfree _).2 (Or.inl rfl), ?_⟩, ?_⟩
        · rw [putUser_user_self]
          rfl
        · rw [putUser_user_self]
          exact Option.some.inj hp
      · rw [Function.update_of_ne heq] at hp
        obtain ⟨r, ⟨hr, hname⟩, hpassword⟩ := (h.password n' p).1 hp
        refine ⟨r, ⟨(registered_putUser_iff hs hfree _).2 (Or.inr hr), ?_⟩, ?_⟩
        · rw [putUser_user_of_registered hs hr, hname]
        · rw [putUser_user_of_registered hs hr, hpassword]
    · rintro ⟨r, ⟨hr, hname⟩, hpassword⟩
      rcases (registered_putUser_iff hs hfree _).1 hr with rfl | hr
      · rw [putUser_user_self] at hname hpassword
        obtain rfl : n = n' := hname
        obtain rfl : password = p := hpassword
        rw [Function.update_self]
      · rw [putUser_user_of_registered hs hr] at hname hpassword
        have hne : n' ≠ n := fun heq ↦ hfree r ⟨hr, hname.trans heq⟩
        rw [Function.update_of_ne hne]
        exact (h.password n' p).2 ⟨r, ⟨hr, hname⟩, hpassword⟩
  standing c' n' := by
    rw [show (d.apply c (.register n password)).standing = d.standing from rfl, h.standing]
    constructor
    · rintro ⟨r, ⟨hr, hname⟩, hsession⟩
      refine ⟨r, ⟨(registered_putUser_iff hs hfree _).2 (Or.inr hr), ?_⟩, ?_⟩
      · rw [putUser_user_of_registered hs hr, hname]
      · rw [HasSession, putUser_user_of_registered hs hr]
        exact hsession
    · rintro ⟨r, ⟨hr, hname⟩, hsession⟩
      rcases (registered_putUser_iff hs hfree _).1 hr with rfl | hr
      · rw [HasSession, putUser_user_self] at hsession
        exact absurd hsession.1 Bool.false_ne_true
      · rw [HasSession, putUser_user_of_registered hs hr] at hsession
        rw [putUser_user_of_registered hs hr] at hname
        exact ⟨r, ⟨hr, hname⟩, hsession⟩
  entry r c' hr := by
    have hold : r ≠ s.nextUser := by
      rintro rfl
      rw [HasSession, putUser_user_self] at hr
      exact absurd hr.1 Bool.false_ne_true
    have huser : (s.putUser n (User.new n password birthday)).user r = s.user r := if_neg hold
    rw [HasSession, huser] at hr
    rw [huser]
    exact h.entry r c' hr
  activated k r hk := by
    have hr : s.Registered r := hs.active_registered hk
    rw [putUser_user_of_registered hs hr]
    exact h.activated k r hk
  follows := h.follows.putUser hs hfree rfl (fun _ _ hmem ↦ hl.followers_registered hmem)
    (by rw [putUser_user_self]; rfl) fun r hr ↦ by rw [putUser_user_of_registered hs hr]
  blocks := h.blocks.putUser hs hfree rfl (fun _ _ hmem ↦ hl.blockingUsers_registered hmem)
    (by rw [putUser_user_self]; rfl) fun r hr ↦ by rw [putUser_user_of_registered hs hr]

/-- What leaves accounts and relations alone. -/
theorem Represents.of_sessions {s' : Server} {d' : ServerDirectory} (h : Represents names s d)
    (hsame : SameAccounts s s') (hgraph : SameGraph s s') (hpassword : d'.password = d.password)
    (hfollows : d'.follows = d.follows) (hblocks : d'.blocks = d.blocks)
    (hstanding : ∀ c n, d'.standing c = .user n ↔ ∃ r, s.Named n r ∧ HasSession r c s')
    (hentry : ∀ r c, HasSession r c s' → ((s.user r).username, r) ∈ s'.activeUsersMap.entries)
    (hactivated : ∀ k r, (k, r) ∈ s'.activeUsersMap.entries →
      d'.standing (s'.user r).connId ≠ .gone → (s'.user r).isActivated = true) :
    Represents names s' d' where
  name_mem r hr := by
    rw [hsame.username]
    exact h.name_mem r (hsame.named_iff.1 ⟨hr, rfl⟩).1
  password n p := by
    rw [hpassword, h.password]
    exact exists_congr fun r ↦ by rw [hsame.named_iff, hsame.password]
  standing c n := by
    rw [hstanding]
    exact exists_congr fun r ↦ by rw [hsame.named_iff]
  entry r c hr := by
    rw [hsame.username]
    exact hentry r c hr
  activated := hactivated
  follows := hfollows ▸ h.follows.of_same hsame hgraph.followers
  blocks := hblocks ▸ h.blocks.of_same hsame hgraph.blockingUsers

/-- An accepted LOGIN. -/
theorem Represents.login (h : Represents names s d) (hs : Coherent s) (hr : s.Named n r)
    (hinactive : (s.user r).isActivated = false) (hguest : d.standing c = .guest)
    (password : JString) :
    Represents names (startSession c s n r) (d.apply c (.login n password)) := by
  have hself : HasSession r c (startSession c s n r) := (onlyActivates_startSession r).session
  have hothers : ∀ r', r' ≠ r → ∀ c', HasSession r' c' (startSession c s n r) ↔
      HasSession r' c' s := fun r' hne c' ↦ by
    rw [HasSession, HasSession, startSession_user, if_neg hne]
  -- nobody else sits at the connection
  have halone : ∀ r', ¬ HasSession r' c s := fun r' hsession ↦ by
    have hstanding := h.standing_of_session hs hsession
    rw [hguest] at hstanding
    exact absurd hstanding (by simp)
  have hnosession : ∀ c', ¬ HasSession r c' s := fun c' hsession ↦
    absurd (hinactive.symm.trans hsession.1) Bool.false_ne_true
  have hstanding : ∀ c', (d.apply c (.login n password)).standing c' =
      if c' = c then .user n else d.standing c' := fun c' ↦ Function.update_apply _ _ _ _
  refine h.of_sessions
    ⟨rfl, rfl, fun r' ↦ by rw [startSession_eq_except], fun r' ↦ by rw [startSession_eq_except],
      fun r' ↦ by rw [startSession_eq_except]⟩
    ⟨fun r' ↦ by rw [startSession_eq_except], fun r' ↦ by rw [startSession_eq_except]⟩
    rfl rfl rfl (fun c' n' ↦ ?_) (fun r' c' hsession ↦ ?_) fun k r' hk ↦ ?_
  · rw [hstanding]
    constructor
    · intro hc'
      split at hc'
      case isTrue heq =>
        rw [heq]
        exact ⟨r, Standing.user.inj hc' ▸ hr, hself⟩
      case isFalse =>
        obtain ⟨r', hr', hsession⟩ := (h.standing c' n').1 hc'
        have hne : r' ≠ r := fun heq ↦ hnosession c' (heq ▸ hsession)
        exact ⟨r', hr', (hothers r' hne c').2 hsession⟩
    · rintro ⟨r', hr', hsession⟩
      by_cases heq : r' = r
      · subst heq
        rw [if_pos (hsession.2.symm.trans hself.2), ← hr.2, ← hr'.2]
      · rw [hothers r' heq] at hsession
        rw [if_neg (show ¬ c' = c from fun hc' ↦ halone r' (hc' ▸ hsession))]
        exact (h.standing c' n').2 ⟨r', hr', hsession⟩
  · by_cases heq : r' = r
    · subst heq
      rw [hr.2]
      exact ConcurrentMap.mem_put_self _ _ _
    · rw [hothers r' heq] at hsession
      have hne : (s.user r').username ≠ n := fun hname ↦
        heq (Server.Named.unique hs ⟨hs.activated_registered hsession.1, hname⟩ hr)
      exact ConcurrentMap.mem_put.2 (Or.inr ⟨hne, h.entry r' c' hsession⟩)
  · by_cases heq : r' = r
    · exact fun _ ↦ heq ▸ hself.1
    · rcases ConcurrentMap.mem_put.1 hk with ⟨-, hr'⟩ | ⟨-, hk⟩
      · exact absurd hr' heq
      · rw [startSession_user, if_neg heq, hstanding]
        split
        case isTrue hc' =>
          exact fun _ ↦ h.activated k r' hk (by rw [hc', hguest]; simp)
        case isFalse => exact h.activated k r' hk

/-- An accepted LOGOUT. -/
theorem Represents.logout (h : Represents names s d) (hs : Coherent s) (hr : HasSession r c s) :
    Represents names (s.modifyUser r User.deActivate) (d.apply c .logout) := by
  have hsession : ∀ r' c', HasSession r' c' (s.modifyUser r User.deActivate) ↔
      r' ≠ r ∧ HasSession r' c' s := fun r' c' ↦ by
    rw [HasSession, Server.modifyUser_user]
    split
    case isTrue heq => exact iff_of_false (fun h ↦ Bool.false_ne_true h.1) fun h ↦ h.1 heq
    case isFalse hne => exact (and_iff_right hne).symm
  have hstanding : ∀ c', (d.apply c .logout).standing c' =
      if c' = c then .gone else d.standing c' := fun c' ↦ Function.update_apply _ _ _ _
  refine h.of_sessions
    ⟨rfl, rfl, fun r' ↦ by rw [deActivate_eq_except], fun r' ↦ by rw [deActivate_eq_except],
      fun r' ↦ by rw [deActivate_eq_except]⟩
    ⟨fun r' ↦ by rw [deActivate_eq_except], fun r' ↦ by rw [deActivate_eq_except]⟩
    rfl rfl rfl (fun c' n' ↦ ?_) (fun r' c' hr' ↦ ?_) fun k r' hk ↦ ?_
  · rw [hstanding]
    constructor
    · intro hc'
      split at hc'
      case isTrue => exact absurd hc' (by simp)
      case isFalse hne =>
        obtain ⟨r', hnamed, hr'⟩ := (h.standing c' n').1 hc'
        refine ⟨r', hnamed, (hsession r' c').2 ⟨fun heq ↦ hne ?_, hr'⟩⟩
        rw [← hr'.2, heq, hr.2]
    · rintro ⟨r', hnamed, hr'⟩
      obtain ⟨hne, hr'⟩ := (hsession r' c').1 hr'
      rw [if_neg (show ¬ c' = c from fun hc' ↦ hne (h.session_unique hs (hc' ▸ hr') hr))]
      exact (h.standing c' n').2 ⟨r', hnamed, hr'⟩
  · exact h.entry r' c' ((hsession r' c').1 hr').2
  · have hconn : ((s.modifyUser r User.deActivate).user r').connId = (s.user r').connId := by
      rw [deActivate_eq_except]
    rw [hconn, hstanding]
    split
    case isTrue => exact fun hgone ↦ absurd rfl hgone
    case isFalse hne =>
      have hne' : r' ≠ r := fun heq ↦ hne (heq ▸ hr.2)
      rw [Server.modifyUser_user, if_neg hne']
      exact h.activated k r' hk

end Accounts

/-! ### FOLLOW and BLOCK -/

namespace GraphAction

/-- The request of this name. -/
def request (username : JString) : GraphAction → Request JString JString
  | follow => .follow username
  | unfollow => .unfollow username
  | block => .block username

section Represents

variable {names : Set JString} {s : Server} {d : ServerDirectory} {c : ℤ} {n : JString}
  {my other : UserRef}

theorem sameAccounts_carryOut (s : Server) (my other : UserRef) (a : GraphAction) :
    SameAccounts s (a.carryOut s my other) := by
  rw [carryOut_eq]
  exact ⟨rfl, rfl, fun _ ↦ rfl, fun _ ↦ rfl, fun _ ↦ rfl⟩

theorem sameSessions_carryOut (s : Server) (my other : UserRef) (a : GraphAction) :
    SameSessions s (a.carryOut s my other) := by
  rw [carryOut_eq]
  exact ⟨rfl, fun _ ↦ rfl, fun _ ↦ rfl⟩

/-- Carrying out a request does to the store what it does to the directory. -/
theorem represents_carryOut (h : Represents names s d) (hs : Coherent s) (hl : FollowLists s)
    (hmy : HasSession my c s) (hother : s.Named n other) (a : GraphAction) :
    Represents names (a.carryOut s my other) (d.apply c (a.request n)) := by
  have hasks : ∀ r r', s.Registered r → s.Registered r' →
      (d.Asks c n ((s.user r).username, (s.user r').username) ↔ r = my ∧ r' = other) :=
    fun r r' hr hr' ↦ h.asks_iff hs hmy hother hr hr'
  cases a with
  | follow =>
    refine h.of_lists (sameAccounts_carryOut s my other follow)
      (sameSessions_carryOut s my other follow) rfl rfl
      (h.follows.insert h hs hmy hother fun r ↦ addFollow_followers s my other r) ?_
    exact h.blocks.of_same (.refl s) fun r ↦ by rw [carryOut_eq]; rfl
  | unfollow =>
    refine h.of_lists (sameAccounts_carryOut s my other unfollow)
      (sameSessions_carryOut s my other unfollow) rfl rfl
      (h.follows.filter fun r r' hr hr' ↦ ?_) ?_
    · rw [hasks r r' hr hr', carryOut, dropFollow_followers]
      split
      case isTrue heq =>
        rw [heq, (hl.followers_nodup my).mem_erase_iff]
        simp [and_comm]
      case isFalse hne => simp [hne]
    · exact h.blocks.of_same (.refl s) fun r ↦ by rw [carryOut_eq]; rfl
  | block =>
    refine h.of_lists (sameAccounts_carryOut s my other block)
      (sameSessions_carryOut s my other block) rfl rfl
      (h.follows.filter fun r r' hr hr' ↦ ?_)
      (h.blocks.insert h hs hmy hother fun r ↦ blockUser_blockingUsers s my other r)
    show _ ↔ _ ∧ ¬ d.Asks c n ((s.user r).username, (s.user r').username) ∧
      ¬ d.Asks c n ((s.user r').username, (s.user r).username)
    rw [hasks r r' hr hr', hasks r' r hr' hr, carryOut, blockUser_followers]
    have hmynodup := hl.followers_nodup my
    have hnodup := hl.followers_nodup other
    split
    case isTrue heq =>
      subst heq
      split
      case isTrue hself =>
        subst hself
        rw [(hmynodup.erase _).mem_erase_iff, hmynodup.mem_erase_iff]
        grind
      case isFalse hne =>
        rw [hnodup.mem_erase_iff]
        grind
    case isFalse hne =>
      split
      case isTrue heq =>
        rw [heq, hmynodup.mem_erase_iff]
        grind
      case isFalse => grind

end Represents

end GraphAction

/-! ### The requests -/

namespace Request

/-- The frames of a request. -/
inductive Frame (names : Set JString) : Request JString JString → JString → Prop
  | register {n password birthday : JString} (hn : n ∈ names) (hp : nul ∉ password)
      (hb : nul ∉ birthday) (hne : birthday ≠ []) :
      Frame names (.register n password) (registerFrame n password birthday)
  | login {n password : JString} (hn : n ∈ names) (hp : nul ∉ password) :
      Frame names (.login n password) (loginFrame n password (str "1"))
  | logout (text : JString) : Frame names .logout (str "03" ++ text)
  | graph {n : JString} (hn : n ∈ names) (a : GraphAction) : Frame names (a.request n) (a.frame n)

/-- The acknowledgement. -/
def ack : Request JString JString → JString
  | .register _ _ => str "1001"
  | .login _ _ => str "1002"
  | .logout => str "1003"
  | .follow n => GraphAction.follow.ack n
  | .unfollow n => GraphAction.unfollow.ack n
  | .block n => GraphAction.block.ack n

/-- The error answer. -/
def refusal : Request JString JString → JString
  | .register _ _ => str "1101"
  | .login _ _ => str "1102"
  | .logout => str "1103"
  | .follow _ => GraphAction.follow.refusal
  | .unfollow _ => GraphAction.unfollow.refusal
  | .block _ => GraphAction.block.refusal

/-- What is sent for a request: its answer, and after an acknowledgement what has been queued. -/
def AnsweredBy (c : ℤ) (request : Request JString JString) (sent : List (ℤ × JString)) :
    Verdict → Prop
  | .granted => ∃ posts, sent = (c, request.ack) :: posts ∧ ∀ x ∈ posts, x.1 = c ∧ str "09" <+: x.2
  | .refused => sent = [(c, request.refusal)]
  | .ignored => sent = []

end Request

/-- The server does with the request what the directory does with it. -/
structure DoesAs (names : Set JString) (d : ServerDirectory) (c : ℤ)
    (request : Request JString JString) (o : Outcome) : Prop where
  represents : Represents names o.server (d.next c request)
  answered : request.AnsweredBy c o.sent (d.verdict c request)

section Requests

variable {names : Set JString} {s : Server} {d : ServerDirectory} {c : ℤ}
  {request : Request JString JString} {env : Surroundings} {o : Outcome}

theorem DoesAs.of_granted (hgrants : d.Grants c request)
    (hrep : Represents names o.server (d.apply c request)) {posts : List (ℤ × JString)}
    (hsent : o.sent = (c, request.ack) :: posts)
    (hposts : ∀ x ∈ posts, x.1 = c ∧ str "09" <+: x.2) :
    DoesAs names d c request o := by
  refine ⟨?_, ?_⟩
  · rw [Directory.next_of_grants hgrants]
    exact hrep
  · rw [Directory.verdict_of_grants hgrants]
    exact ⟨posts, hsent, hposts⟩

theorem DoesAs.of_refused (h : Represents names s d) (hgrants : ¬ d.Grants c request)
    (hignores : ¬ d.Ignores c request) (hserver : o.server = s)
    (hsent : o.sent = [(c, request.refusal)]) : DoesAs names d c request o := by
  refine ⟨?_, ?_⟩
  · rw [Directory.next_of_not_grants hgrants, hserver]
    exact h
  · rw [Directory.verdict_of_refuses hgrants hignores]
    exact hsent

theorem DoesAs.of_ignored (h : Represents names s d) (hgrants : ¬ d.Grants c request)
    (hignores : d.Ignores c request) : DoesAs names d c request (.done s) := by
  refine ⟨?_, ?_⟩
  · rw [Directory.next_of_not_grants hgrants]
    exact h
  · rw [Directory.verdict_of_ignores hgrants hignores]
    rfl

variable (h : Represents names s d) (hN : WholeNames names) (hs : Coherent s) (hl : FollowLists s)
  (hconn : c ∈ s.connectionsMap)

include h hs hconn

theorem doesAs_logout (hgone : d.standing c ≠ .gone) (text : JString) :
    DoesAs names d c .logout (process env c s (str "03" ++ text)) := by
  rw [process_03]
  rcases hfind : env.findActive s c with - | r
  · have hnone : ¬ d.Grants c .logout := fun ⟨my, hmy⟩ ↦ by
      obtain ⟨r, -, hr⟩ := (h.standing c my).1 hmy
      rw [(h.findActive_iff hs hgone).2 hr] at hfind
      exact Option.some_ne_none r hfind
    rw [processLogout, hfind]
    have hsend := (show Sendable (str "1103") by decide).send_of_mem hconn
    refine .of_refused h hnone id ?_ ?_
    · exact congrArg Outcome.server hsend
    · exact congrArg Outcome.sent hsend
  · have hr := (h.findActive_iff hs hgone).1 hfind
    rw [processLogout_of_session hfind]
    exact .of_granted ⟨_, h.standing_of_session hs hr⟩ (h.logout hs hr)
      (Server.delivery_of_mem hconn) fun _ hx ↦ absurd hx List.not_mem_nil

include hN

theorem doesAs_register (hl : FollowLists s) {n password birthday : JString} (hn : n ∈ names)
    (hp : nul ∉ password) (hb : nul ∉ birthday) (hne : birthday ≠ []) :
    DoesAs names d c (.register n password)
      (process env c s (registerFrame n password birthday)) := by
  have hnul := hN.nul_not_mem n hn
  by_cases hfree : ∃ r, s.Named n r
  · obtain ⟨r, hr⟩ := hfree
    have hknown : d.password n = some (s.user r).password := (h.password n _).2 ⟨r, hr, rfl⟩
    have hpart : contains (s.user r).username n = true := hr.2 ▸ contains_self _
    refine .of_refused h (fun hgrants : d.password n = none ↦ ?_) id ?_
      (register_of_taken hconn hnul hp hb hne hr.1 hpart)
    · exact absurd (hknown.symm.trans hgrants) (Option.some_ne_none _)
    · rw [registerFrame, process_01]
      refine (processRegister_refusal fun u p b haccepts ↦ ?_).server_eq
      obtain ⟨⟨rfl, -, -⟩, hfree⟩ := (registerAccepts_iff hnul hp hb hne).1 haccepts
      exact absurd ((hfree r hr.1).symm.trans hpart) Bool.false_ne_true
  · rw [not_exists] at hfree
    have hnone : d.password n = none := by
      rcases hpassword : d.password n with - | p
      · rfl
      · obtain ⟨r, hr, -⟩ := (h.password n p).1 hpassword
        exact absurd hr (hfree r)
    have haccepts := (registerAccepts_iff (s := s) hnul hp hb hne).2 ⟨⟨rfl, rfl, rfl⟩, fun r hr ↦ by
      by_contra hpart
      rw [Bool.not_eq_false] at hpart
      exact hfree r ⟨hr, hN.eq_of_contains _ (h.name_mem r hr) n hn hpart⟩⟩
    rw [registerFrame, process_01, processRegister_of_accepts haccepts]
    exact .of_granted hnone (h.register hs hl hn hfree password birthday)
      (Server.delivery_of_mem hconn) fun _ hx ↦ absurd hx List.not_mem_nil

theorem doesAs_login (hguest : d.standing c = .guest) {n password : JString} (hn : n ∈ names)
    (hp : nul ∉ password) :
    DoesAs names d c (.login n password) (process env c s (loginFrame n password (str "1"))) := by
  have hnul := hN.nul_not_mem n hn
  have haccepts_iff : ∀ {typed r}, LoginAccepts env s
      (n ++ nul :: (password ++ nul :: str "1")) typed r ↔
        typed = n ∧ s.Named n r ∧ Credentials s password (str "1") r := fun {_ _} ↦ by
    rw [loginAccepts_iff hnul hp (by decide) (by decide), h.findContaining_iff hN hs hn]
  rw [loginFrame, process_02]
  by_cases hgrants : d.Grants c (.login n password)
  · obtain ⟨r, hr, hpassword⟩ := (h.password n password).1 hgrants.1
    have hinactive : (s.user r).isActivated = false := by
      by_contra hactive
      rw [Bool.not_eq_false] at hactive
      have hstanding := h.standing_of_session hs (c := (s.user r).connId) ⟨hactive, rfl⟩
      exact hgrants.2 _ (hr.2 ▸ hstanding)
    have haccepts := haccepts_iff.2 ⟨rfl, hr, hpassword, rfl, hinactive⟩
    rw [processLogin_of_accepts haccepts fun _ hpost ↦ hs.blank_mem hpost,
      Server.delivery_of_mem hconn]
    refine .of_granted hgrants (h.login hs hr hinactive hguest password) rfl fun x hx ↦ ?_
    obtain ⟨m, -, hx'⟩ := List.mem_flatMap.1 hx
    exact ⟨(Server.mem_delivery.1 hx').1, replayDeliveries_start hx⟩
  · have hnot : ∀ typed r, ¬ LoginAccepts env s
        (n ++ nul :: (password ++ nul :: str "1")) typed r := fun typed r haccepts ↦ by
      obtain ⟨-, hr, hpassword, -, hinactive⟩ := haccepts_iff.1 haccepts
      refine hgrants ⟨(h.password n password).2 ⟨r, hr, hpassword⟩, fun c' hc' ↦ ?_⟩
      obtain ⟨r', hr', hsession⟩ := (h.standing c' n).1 hc'
      rw [hr.unique hs hr', hsession.1] at hinactive
      exact absurd hinactive.symm Bool.false_ne_true
    have hthrown : (processLogin env c s (n ++ nul :: (password ++ nul :: str "1"))).thrown =
        none := by
      rw [thrown_processLogin_iff fun r _ hpost ↦ hs.blank_mem hpost,
        split_three hnul hp (by decide) (by decide)]
      exact Nat.le_refl 3
    refine .of_refused h hgrants id (processLogin_refusal hnot).server_eq ?_
    rw [(processLogin_refusal hnot).sent_of_thrown_none hthrown]
    exact Server.delivery_of_mem hconn

end Requests

/-! ### FOLLOW and BLOCK requests -/

namespace GraphAction

section Requests

variable {names : Set JString} {s : Server} {d : ServerDirectory} {c : ℤ} {env : Surroundings}
  {n : JString} {my other : UserRef} {a : GraphAction}

theorem known_iff (h : Represents names s d) : d.password n ≠ none ↔ ∃ r, s.Named n r := by
  constructor
  · intro hknown
    obtain ⟨p, hp⟩ := Option.ne_none_iff_exists'.1 hknown
    obtain ⟨r, hr, -⟩ := (h.password n p).1 hp
    exact ⟨r, hr⟩
  · rintro ⟨r, hr⟩
    rw [(h.password n _).2 ⟨r, hr, rfl⟩]
    exact Option.some_ne_none _

/-- A request of a user about a user is granted when the store permits it. -/
theorem grants_request_iff (h : Represents names s d) (hs : Coherent s) (hmy : HasSession my c s)
    (hother : s.Named n other) : d.Grants c (a.request n) ↔ a.Permits s my other := by
  have hknown : d.password n ≠ none := (known_iff h).2 ⟨other, hother⟩
  have hstanding := h.standing_of_session hs hmy
  have hreg := hs.activated_registered hmy.1
  have hfollows := h.follows.mem_iff my other hreg hother.1
  have hblocks := h.blocks.mem_iff my other hreg hother.1
  have hblocked := h.blocks.mem_iff other my hother.1 hreg
  rw [hother.2] at hfollows hblocks hblocked
  -- the client is one user only
  have hone : ∀ {P : JString → Prop}, (∃ my, d.standing c = .user my ∧ P my) ↔
      P (s.user my).username := fun {P} ↦
    ⟨fun ⟨my', hmy', hP⟩ ↦ Standing.user.inj (hmy'.symm.trans hstanding) ▸ hP,
      fun hP ↦ ⟨_, hstanding, hP⟩⟩
  cases a with
  | follow =>
    show (_ ∧ ∃ my, _) ↔ _
    rw [and_iff_right hknown, hone, hfollows, hblocked]
    rfl
  | unfollow =>
    show (_ ∧ ∃ my, _) ↔ _
    rw [and_iff_right hknown, hone, hfollows]
    rfl
  | block =>
    show (_ ∧ ∃ my, _) ↔ _
    rw [and_iff_right hknown, hone, hblocks]
    rfl

/-- A request that is granted is about a user that exists, of a client that is a user. -/
theorem of_grants_request (h : Represents names s d) (hgrants : d.Grants c (a.request n)) :
    (∃ r, s.Named n r) ∧ ∃ r, HasSession r c s := by
  have hboth : d.password n ≠ none ∧ ∃ my, d.standing c = .user my := by
    cases a with
    | follow => exact ⟨hgrants.1, hgrants.2.imp fun _ hmy ↦ hmy.1⟩
    | unfollow => exact ⟨hgrants.1, hgrants.2.imp fun _ hmy ↦ hmy.1⟩
    | block => exact ⟨hgrants.1, hgrants.2.imp fun _ hmy ↦ hmy.1⟩
  obtain ⟨hknown, my, hmy⟩ := hboth
  obtain ⟨r, -, hr⟩ := (h.standing c my).1 hmy
  exact ⟨(known_iff h).1 hknown, r, hr⟩

theorem ack_request : (a.request n).ack = a.ack n := by
  cases a <;> rfl

theorem refusal_request : (a.request n).refusal = a.refusal := by
  cases a <;> rfl

/-- A client that is a user has its requests granted or refused. -/
theorem not_ignores_request (hmy : ∃ my, d.standing c = .user my) :
    ¬ d.Ignores c (a.request n) := by
  obtain ⟨my, hmy⟩ := hmy
  cases a with
  | follow => exact fun hignores ↦ hignores.2 my hmy
  | unfollow => exact fun hignores ↦ hignores.2 my hmy
  | block => exact id

variable (h : Represents names s d) (hN : WholeNames names) (hs : Coherent s)
  (hconn : c ∈ s.connectionsMap) (hgone : d.standing c ≠ .gone) (hn : n ∈ names)

include h hN hs hconn hgone hn

/-- The request of a user. -/
theorem doesAs_request_of_session (hl : FollowLists s) (hmy : HasSession my c s) :
    DoesAs names d c (a.request n) (process env c s (a.frame n)) := by
  have hfind : env.findActive s c = some my := (h.findActive_iff hs hgone).2 hmy
  have hanswered : a.Answered env c s n := Or.inr (Or.inr ⟨my, hfind, hmy.1⟩)
  have hignores : ¬ d.Ignores c (a.request n) :=
    not_ignores_request ⟨_, h.standing_of_session hs hmy⟩
  by_cases hgrants : d.Grants c (a.request n)
  · obtain ⟨⟨other, hother⟩, -⟩ := of_grants_request h hgrants
    obtain ⟨hsent, hserver⟩ := process_of_permits hconn hfind
      ((h.findContained_iff hN hs hn).2 hother) hanswered
      ((grants_request_iff h hs hmy hother).1 hgrants)
    refine .of_granted hgrants ?_ (hsent.trans (congrArg (fun m ↦ [(c, m)]) ack_request.symm))
      fun _ hx ↦ absurd hx List.not_mem_nil
    rw [hserver]
    exact represents_carryOut h hs hl hmy hother a
  · obtain ⟨hsent, hserver⟩ := process_of_not_permits hconn hanswered fun my' other hmy' hother ↦ by
      obtain rfl := h.session_unique hs ((h.findActive_iff hs hgone).1 hmy') hmy
      exact fun hpermits ↦ hgrants ((grants_request_iff h hs hmy
        ((h.findContained_iff hN hs hn).1 hother)).2 hpermits)
    exact .of_refused h hgrants hignores hserver
      (hsent.trans (congrArg (fun m ↦ [(c, m)]) refusal_request.symm))

/-- The request of a client that is no user. -/
theorem doesAs_request_of_guest (hguest : ∀ r, ¬ HasSession r c s) :
    DoesAs names d c (a.request n) (process env c s (a.frame n)) := by
  have hfind : ∀ r, env.findActive s c ≠ some r := fun r hr ↦
    hguest r ((h.findActive_iff hs hgone).1 hr)
  have hgrants : ¬ d.Grants c (a.request n) := fun hgrants ↦ by
    obtain ⟨-, r, hr⟩ := of_grants_request h hgrants
    exact hguest r hr
  have hstanding : ∀ my, d.standing c ≠ .user my := fun my hmy ↦ by
    obtain ⟨r, -, hr⟩ := (h.standing c my).1 hmy
    exact hguest r hr
  by_cases hignores : d.Ignores c (a.request n)
  · have hsilent : ∀ action, FollowSilent env c s (action :: (n ++ [nul])) := fun action ↦ by
      have hknown : d.password n ≠ none := by
        cases a with
        | follow => exact hignores.1
        | unfollow => exact hignores.1
        | block => exact absurd hignores id
      obtain ⟨other, hother⟩ := (known_iff h).1 hknown
      exact ⟨action, _, other, rfl, (h.findContained_iff hN hs hn).2 hother,
        fun my hmy ↦ absurd hmy (hfind my)⟩
    cases a with
    | follow =>
      rw [frame, process_04, processFollow_of_silent (hsilent _)]
      exact .of_ignored h hgrants hignores
    | unfollow =>
      rw [frame, process_04, processFollow_of_silent (hsilent _)]
      exact .of_ignored h hgrants hignores
    | block => exact absurd hignores id
  · have hanswered : a.Answered env c s n := by
      have hnone : a ≠ block → env.findContained s (n ++ [nul]) = none := fun hne ↦ by
        rcases hother : env.findContained s (n ++ [nul]) with - | other
        · rfl
        · have hknown := (known_iff h).2 ⟨other, (h.findContained_iff hN hs hn).1 hother⟩
          cases a with
          | follow => exact absurd ⟨hknown, hstanding⟩ hignores
          | unfollow => exact absurd ⟨hknown, hstanding⟩ hignores
          | block => exact absurd rfl hne
      exact or_iff_not_imp_left.2 fun hne ↦ Or.inl (hnone hne)
    obtain ⟨hsent, hserver⟩ := process_of_not_permits hconn hanswered
      fun my other hmy _ ↦ absurd hmy (hfind my)
    exact .of_refused h hgrants hignores hserver
      (hsent.trans (congrArg (fun m ↦ [(c, m)]) refusal_request.symm))

end Requests

end GraphAction

/-- **One request**: the server does with it what the directory does with it. -/
theorem Represents.process {names : Set JString} {s : Server} {d : ServerDirectory} {c : ℤ}
    {request : Request JString JString} {message : JString} (h : Represents names s d)
    (hN : WholeNames names) (hs : Coherent s) (hl : FollowLists s) (hconn : c ∈ s.connectionsMap)
    (hframe : request.Frame names message) (hexpects : d.Expects c request) (env : Surroundings) :
    DoesAs names d c request (process env c s message) := by
  cases hframe with
  | register hn hp hb hne => exact doesAs_register h hN hs hconn hl hn hp hb hne
  | login hn hp => exact doesAs_login h hN hs hconn (hexpects.2 _ _ rfl) hn hp
  | logout text => exact doesAs_logout h hs hconn hexpects.1 text
  | graph hn a =>
    rcases Classical.em (∃ r, HasSession r c s) with ⟨r, hr⟩ | hguest
    · exact a.doesAs_request_of_session h hN hs hconn hexpects.1 hn hl hr
    · exact a.doesAs_request_of_guest h hN hs hconn hexpects.1 hn (not_exists.1 hguest)

end SplNet
