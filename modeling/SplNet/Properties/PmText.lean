import SplNet.Java.WordFilter
import SplNet.Properties.NamedUsers
import SplNet.Properties.PrivateMessages
import SplNet.Properties.ServerModes

/-!
# The addressee and the text of a private message

A PM frame holds the name of the addressee, a blank and the text. The server looks for the first
user whose name appears anywhere in the frame, goes on with the last user it has looked at when
there is none, filters name and text together, and cuts as many characters off as the user it has
found has in his name.

* A PM goes to the named user with the filtered text exactly when the searches leave the sender and
  a user who stands in for the addressee (`pm_to_named_iff`).
* The text that is sent has no filtered word in it exactly when the cut is not in front of one
  inside a longer word (`pm_filtered_iff`).
-/

namespace SplNet

open Java IteratorSearch WordRuns

/-- `my` may write to `other`. -/
def MayWrite (s : Server) (my other : UserRef) : Prop :=
  other ∈ (s.user my).followers ∧ my ∉ (s.user other).blockingUsers

instance (s : Server) (my other : UserRef) : Decidable (MayWrite s my other) :=
  inferInstanceAs (Decidable (_ ∧ _))

section Outcomes

variable {env : Surroundings} {connectionId : ℤ} {s : Server} {text : JString}
  {my other : UserRef} {content : JString}

/-- What PM needs, from the searches to the cut. -/
theorem pmAccepts_iff (hne : text ≠ []) :
    PmAccepts env connectionId s text my other content ↔
      sessionVariable env connectionId s = some my ∧
        recipientVariable env s text.dropLast = some other ∧ MayWrite s my other ∧
        (s.user other).username.length < (filterWords env s text.dropLast).length ∧
        content = (filterWords env s text.dropLast).drop ((s.user other).username.length + 1) := by
  constructor
  · intro h
    exact ⟨h.sender, h.recipient, ⟨h.followed, h.unblocked⟩, h.content_eq.1, h.content_eq.2⟩
  · rintro ⟨hsender, hrecipient, hmay, hlong, rfl⟩
    exact ⟨hne, hsender, hrecipient, hmay.1, hmay.2, substringFrom_of_le hlong⟩

/-- A PM between users who may not write to each other is refused. -/
theorem processPm_of_not_mayWrite (hne : text ≠ []) (hconn : connectionId ∈ s.connectionsMap)
    (hnot : ∀ my other, sessionVariable env connectionId s = some my →
      recipientVariable env s text.dropLast = some other → ¬ MayWrite s my other) :
    (processPm env connectionId s text).sent = [(connectionId, str "1106")] := by
  have hsend : (s.send connectionId (str "1106")).sent = [(connectionId, str "1106")] := by
    rw [(show Sendable (str "1106") by decide).send_of_mem hconn]
  simp only [processPm, substring_dropLast, hne, if_false]
  split
  case h_1 my other hmy hother =>
    rw [if_pos, hsend]
    by_contra hmay
    rw [not_or, not_not] at hmay
    exact hnot my other hmy hother hmay
  case h_2 => exact hsend

/-- A text that ends within the name of the user who was found cannot be cut. -/
theorem processPm_of_short (hne : text ≠ []) (hmy : sessionVariable env connectionId s = some my)
    (hother : recipientVariable env s text.dropLast = some other) (hmay : MayWrite s my other)
    (hshort : (filterWords env s text.dropLast).length ≤ (s.user other).username.length) :
    (processPm env connectionId s text).sent = [] := by
  have hguard : ¬ (other ∉ (s.user my).followers ∨ my ∈ (s.user other).blockingUsers) := by
    rw [not_or, not_not]
    exact hmay
  have hthrows : substringFrom (filterWords env s text.dropLast)
      ((s.user other).username.length + 1) = .error .stringIndexOutOfBounds :=
    substringFrom_of_lt (Nat.lt_succ_of_le hshort)
  simp only [processPm, substring_dropLast, hne, if_false, hmy, hother, if_neg hguard, hthrows,
    Outcome.throws]

end Outcomes

/-! ### The addressee -/

/-- The frame of a PM. -/
def pmFrame (username text : JString) : JString :=
  str "06" ++ (username ++ space :: text ++ [nul])

/-- **A PM goes to the named user**: when `my` may write to the user of this name, the text is sent
to him, filtered, and to nobody else; otherwise the PM is not acknowledged. -/
structure GoesToNamed (env : Surroundings) (connectionId : ℤ) (s : Server) (my : UserRef)
    (username text : JString) : Prop where
  permitted : ∀ other, s.Named username other → MayWrite s my other →
    (process env connectionId s (pmFrame username text)).sent =
      [((s.user other).connId,
          notification (str "090") (s.user my).username (filterWords env s text)),
        (connectionId, str "1006")]
  refused : (∀ other, s.Named username other → ¬ MayWrite s my other) →
    (connectionId, str "1006") ∉ (process env connectionId s (pmFrame username text)).sent
  unknown : (∀ other, ¬ s.Named username other) →
    (process env connectionId s (pmFrame username text)).sent = [(connectionId, str "1106")]

/-- When `my` may write to the named user, the searches leave `my` and a user to whom `my` may
write, on the connection of the named one and with a name of the same length; otherwise they leave
users who may not write to each other, or a name that is too long to be cut off. -/
structure FindsAddressee (env : Surroundings) (connectionId : ℤ) (s : Server) (my : UserRef)
    (username text : JString) : Prop where
  permitted : ∀ other, s.Named username other → MayWrite s my other →
    sessionVariable env connectionId s = some my ∧
      ∃ y, recipientVariable env s (username ++ space :: text) = some y ∧ MayWrite s my y ∧
        (s.user y).connId = (s.user other).connId ∧ (s.user y).connId ∈ s.connectionsMap ∧
        (s.user y).username.length = (filterWords env s username).length
  refused : (∀ other, s.Named username other → ¬ MayWrite s my other) →
    ∀ x y, sessionVariable env connectionId s = some x →
      recipientVariable env s (username ++ space :: text) = some y → MayWrite s x y →
        (∃ other, s.Named username other) ∧
          (filterWords env s (username ++ space :: text)).length ≤ (s.user y).username.length

section Addressee

variable {env : Surroundings} {connectionId : ℤ} {s : Server} {my : UserRef}
  {username text : JString}

/-- Name and text are filtered by themselves. -/
theorem filterWords_append_space {mode : ServerMode} (hs : (serverMachine mode).Reachable s)
    (hblank : Separates env.wordBoundary space) (username text : JString) :
    filterWords env s (username ++ space :: text) =
      filterWords env s username ++ space :: filterWords env s text := by
  refine replaceEach_append_cons hblank (fun w hw ↦ ?_) username text
  rw [filteredWords_of_reachable hs] at hw
  have hwords : ∀ mode : ServerMode, ∀ w ∈ mode.filteredWords, w ≠ [] ∧ space ∉ w := by
    rintro (- | -)
    · decide
    · decide
  exact hwords mode w hw

/-- Notifications of users with different names are different. -/
theorem notification_inj {author author' content content' : JString} (ha : nul ∉ author)
    (ha' : nul ∉ author')
    (h : notification (str "090") author content = notification (str "090") author' content') :
    author = author' ∧ content = content' := by
  have hrest : author ++ nul :: (content ++ [nul]) = author' ++ nul :: (content' ++ [nul]) := by
    simpa only [notification, List.append_assoc, List.append_cancel_left_eq, List.singleton_append,
      List.cons_append, List.nil_append] using h
  have hauthor : author = author' := by
    have hsplit := congrArg (List.splitOn nul) hrest
    rw [List.splitOn_append_cons_self_of_not_mem ha,
      List.splitOn_append_cons_self_of_not_mem ha'] at hsplit
    exact (List.cons.inj hsplit).1
  subst hauthor
  exact ⟨rfl, by simpa using hrest⟩

theorem process_pmFrame : process env connectionId s (pmFrame username text) =
    processPm env connectionId s (username ++ space :: text ++ [nul]) := by
  rw [pmFrame, process_06]

theorem pmFrame_ne_nil : username ++ space :: text ++ [nul] ≠ [] := by simp

/-- A PM that is carried out, in the words of the frame. -/
theorem sent_of_mayWrite {x y : UserRef} (hconn : connectionId ∈ s.connectionsMap)
    (hx : sessionVariable env connectionId s = some x)
    (hy : recipientVariable env s (username ++ space :: text) = some y) (hmay : MayWrite s x y)
    (hlong : (s.user y).username.length < (filterWords env s (username ++ space :: text)).length) :
    (process env connectionId s (pmFrame username text)).sent =
      s.delivery (s.user y).connId (notification (str "090") (s.user x).username
          ((filterWords env s (username ++ space :: text)).drop
            ((s.user y).username.length + 1))) ++
        [(connectionId, str "1006")] := by
  have haccepts : PmAccepts env connectionId s (username ++ space :: text ++ [nul]) x y
      ((filterWords env s (username ++ space :: text)).drop ((s.user y).username.length + 1)) := by
    rw [pmAccepts_iff pmFrame_ne_nil, List.dropLast_concat]
    exact ⟨hx, hy, hmay, hlong, rfl⟩
  rw [process_pmFrame, processPm_of_accepts haccepts, Server.delivery_of_mem hconn]

/-- An acknowledged PM has been carried out. -/
theorem exists_mayWrite_of_acknowledged
    (h : (connectionId, str "1006") ∈ (process env connectionId s (pmFrame username text)).sent) :
    ∃ x y, sessionVariable env connectionId s = some x ∧
      recipientVariable env s (username ++ space :: text) = some y ∧ MayWrite s x y ∧
      (s.user y).username.length < (filterWords env s (username ++ space :: text)).length := by
  rw [process_pmFrame] at h
  obtain ⟨x, y, content, haccepts⟩ := exists_pmAccepts_of_acknowledged h
  rw [pmAccepts_iff pmFrame_ne_nil, List.dropLast_concat] at haccepts
  exact ⟨x, y, haccepts.1, haccepts.2.1, haccepts.2.2.1, haccepts.2.2.2.1⟩

theorem GoesToNamed.finds {mode : ServerMode} (hs : (serverMachine mode).Reachable s)
    (hmy : HasSession my connectionId s) (hblank : Separates env.wordBoundary space)
    (h : GoesToNamed env connectionId s my username text) :
    FindsAddressee env connectionId s my username text := by
  have hcoherent := coherent_of_reachable hs
  have hconn := hmy.mem_connectionsMap hcoherent
  refine ⟨fun other hnamed hmay ↦ ?_, fun hnone x y hx hy hmay ↦ ?_⟩
  · have hsent := h.permitted other hnamed hmay
    obtain ⟨x, y, hx, hy, hmayxy, hlong⟩ := exists_mayWrite_of_acknowledged (by rw [hsent]; simp)
    rw [sent_of_mayWrite hconn hx hy hmayxy hlong] at hsent
    have hyconn : (s.user y).connId ∈ s.connectionsMap := by
      by_contra hnot
      rw [Server.delivery, if_neg hnot] at hsent
      exact absurd (congrArg List.length hsent) (by simp)
    rw [Server.delivery_of_mem hyconn, List.singleton_append, List.cons.injEq,
      Prod.mk.injEq] at hsent
    obtain ⟨hnames, hcontents⟩ := notification_inj (nul_not_mem_username hs x)
      (nul_not_mem_username hs my) hsent.1.2
    -- two users of one name are one user
    have hxreg : s.Registered x := by
      obtain ⟨k, hk⟩ := Surroundings.mem_activeUsers.1 (mem_of_loopVariable_eq_some hx)
      exact hcoherent.active_registered hk
    obtain rfl : x = my := Server.Named.unique hcoherent ⟨hxreg, hnames⟩
      ⟨hcoherent.activated_registered hmy.1, rfl⟩
    refine ⟨hx, y, hy, hmayxy, hsent.1.1, hyconn, ?_⟩
    have hlen := congrArg List.length hcontents
    rw [filterWords_append_space hs hblank, List.length_drop] at hlen
    rw [filterWords_append_space hs hblank] at hlong
    simp only [List.length_append, List.length_cons] at hlen hlong
    omega
  · have hshort : (filterWords env s (username ++ space :: text)).length ≤
        (s.user y).username.length := by
      by_contra hlong
      refine h.refused hnone ?_
      rw [sent_of_mayWrite hconn hx hy hmay (Nat.lt_of_not_le hlong)]
      exact List.mem_append_right _ List.mem_cons_self
    refine ⟨?_, hshort⟩
    by_contra hunknown
    have hsent := h.unknown fun other hnamed ↦ hunknown ⟨other, hnamed⟩
    rw [process_pmFrame, processPm_of_short pmFrame_ne_nil hx
      (by rwa [List.dropLast_concat]) hmay (by rwa [List.dropLast_concat])] at hsent
    exact absurd hsent.symm (List.cons_ne_nil _ _)

theorem FindsAddressee.goes {mode : ServerMode} (hs : (serverMachine mode).Reachable s)
    (hmy : HasSession my connectionId s) (hblank : Separates env.wordBoundary space)
    (h : FindsAddressee env connectionId s my username text) :
    GoesToNamed env connectionId s my username text := by
  have hconn := hmy.mem_connectionsMap (coherent_of_reachable hs)
  refine ⟨fun other hnamed hmay ↦ ?_, fun hnone hack ↦ ?_, fun hunknown ↦ ?_⟩
  · obtain ⟨hx, y, hy, hmayy, hyconn, hmem, hlen⟩ := h.permitted other hnamed hmay
    have hlong : (s.user y).username.length <
        (filterWords env s (username ++ space :: text)).length := by
      rw [filterWords_append_space hs hblank, List.length_append, List.length_cons]
      omega
    have hcut : (filterWords env s (username ++ space :: text)).drop
        ((s.user y).username.length + 1) = filterWords env s text := by
      rw [filterWords_append_space hs hblank, hlen, List.append_cons]
      exact List.drop_left' (by simp)
    rw [sent_of_mayWrite hconn hx hy hmayy hlong, hcut, Server.delivery_of_mem hmem, hyconn,
      List.singleton_append]
  · obtain ⟨x, y, hx, hy, hmay, hlong⟩ := exists_mayWrite_of_acknowledged hack
    exact absurd hlong (Nat.not_lt.2 (h.refused hnone x y hx hy hmay).2)
  · have hnot : ∀ x y, sessionVariable env connectionId s = some x →
        recipientVariable env s (username ++ space :: text) = some y → ¬ MayWrite s x y := by
      intro x y hx hy hmay
      obtain ⟨⟨other, hnamed⟩, -⟩ :=
        h.refused (fun other hnamed ↦ absurd hnamed (hunknown other)) x y hx hy hmay
      exact hunknown other hnamed
    rw [process_pmFrame, processPm_of_not_mayWrite pmFrame_ne_nil hconn
      (by rwa [List.dropLast_concat])]

/-- **A PM goes to the named user** exactly when the searches leave the sender and a user who stands
in for the addressee, or users who may not write to each other. -/
theorem pm_to_named_iff {mode : ServerMode} (hs : (serverMachine mode).Reachable s)
    (hmy : HasSession my connectionId s) (hblank : Separates env.wordBoundary space) :
    GoesToNamed env connectionId s my username text ↔
      FindsAddressee env connectionId s my username text :=
  ⟨fun h ↦ h.finds hs hmy hblank, fun h ↦ h.goes hs hmy hblank⟩

end Addressee

/-- Bob, on the connection 0, follows Alice, who is logged in on the connection 1. -/
def bobFollowsAlice : Server :=
  (serverMachine .threadPerClient).stateAfter
    [.accept, .accept, .frame 0 "01alice\x00a\x0001-01-1990\x00",
      .frame 0 "01bob\x00b\x0002-02-1990\x00", .frame 0 "02bob\x00b\x001",
      .frame 1 "02alice\x00a\x001", .frame 0 "040alice\x00"]

theorem bobFollowsAlice_reachable :
    (serverMachine .threadPerClient).Reachable bobFollowsAlice := ⟨_, rfl⟩

theorem eq_alice_of_named {r : UserRef} (h : bobFollowsAlice.Named (str "alice") r) : r = 0 := by
  have husers : ∀ r, bobFollowsAlice.Registered r →
      (bobFollowsAlice.user r).username = str "alice" → r = 0 := by decide
  exact husers r h.1 h.2

/-- Bob writes to Alice. -/
theorem pm_to_named_iff_alice :
    GoesToNamed .listed 0 bobFollowsAlice 1 (str "alice") (str "eat a Banana") := by
  have hmy : sessionVariable .listed 0 bobFollowsAlice = some 1 := by decide
  have hother : recipientVariable .listed bobFollowsAlice
      (str "alice" ++ space :: str "eat a Banana") = some 0 := by decide
  refine (pm_to_named_iff bobFollowsAlice_reachable ⟨by decide, by decide⟩
    (separates_asciiBoundary (by decide))).2 ⟨fun other hnamed _ ↦ ?_, fun hnone ↦ ?_⟩
  · obtain rfl := eq_alice_of_named hnamed
    exact ⟨hmy, 0, hother, by decide, rfl, by decide, by decide⟩
  · exact absurd ⟨by decide, by decide⟩ (hnone 0 ⟨by decide, by decide⟩)

/-- **Bob's PM to `xalice` is delivered to Alice**, although nobody has this name. -/
theorem pm_to_another :
    (serverMachine .threadPerClient).Reachable bobFollowsAlice ∧ HasSession 1 0 bobFollowsAlice ∧
      (∀ r, ¬ bobFollowsAlice.Named (str "xalice") r) ∧
      (process .listed 0 bobFollowsAlice (pmFrame (str "xalice") (str "hi"))).sent =
        [(1, str "090bob\x00 hi\x00"), (0, str "1006")] ∧
      ¬ GoesToNamed .listed 0 bobFollowsAlice 1 (str "xalice") (str "hi") := by
  have hnone : ∀ r, ¬ bobFollowsAlice.Named (str "xalice") r := by
    rintro r ⟨hreg, hname⟩
    have husers : ∀ r, bobFollowsAlice.Registered r →
        (bobFollowsAlice.user r).username ≠ str "xalice" := by decide
    exact husers r hreg hname
  have hsent : (process .listed 0 bobFollowsAlice (pmFrame (str "xalice") (str "hi"))).sent =
      [(1, str "090bob\x00 hi\x00"), (0, str "1006")] := by decide
  refine ⟨bobFollowsAlice_reachable, ⟨by decide, by decide⟩, hnone, hsent, fun h ↦ ?_⟩
  have hrefused := h.unknown hnone
  rw [hsent] at hrefused
  exact absurd hrefused (by decide)

/-! ### The filter -/

/-- **The filter is not bypassed**: no notification of a PM has a filtered word in its content. -/
def FilteredOut (env : Surroundings) (s : Server) (o : Outcome) : Prop :=
  ∀ d author content, nul ∉ author → (d, notification (str "090") author content) ∈ o.sent →
    ∀ w ∈ s.filteredWords, ¬ HasWord env.wordBoundary w [] content

theorem replaceable_filteredWords :
    Replaceable ServerMode.threadPerClient.filteredWords (str "<filtered>") where
  nonempty := by decide
  wordChars := by decide
  shortest v w hw hmem := by
    have hsuffix : ∀ w ∈ ServerMode.threadPerClient.filteredWords,
        ∀ w' ∈ ServerMode.threadPerClient.filteredWords, w <:+ w' → w' = w := by decide
    exact List.append_left_eq_self.1 (hsuffix w hw _ hmem (List.suffix_append v w))
  replacement n w hw := by
    have hcuts : ∀ n < 11, ∀ w ∈ ServerMode.threadPerClient.filteredWords,
        w ∉ runs isWordChar ((str "<filtered>").drop n) := by decide
    rcases Nat.lt_or_ge n 11 with hlt | hge
    · exact hcuts n hlt w hw
    · rw [List.drop_eq_nil_of_le (Nat.le_trans (by decide) hge), runs_of_forall (by simp),
        List.mem_singleton]
      rintro rfl
      exact absurd hw (by decide)

section Filter

variable {env : Surroundings} {connectionId : ℤ} {s : Server} {text : JString}

/-- A carried-out PM is filtered out when no filtered word stands behind the cut. -/
theorem PmAccepts.filteredOut_iff {my other : UserRef} {content : JString}
    (h : PmAccepts env connectionId s text my other content)
    (hmy : nul ∉ (s.user my).username) (hmem : (s.user other).connId ∈ s.connectionsMap) :
    FilteredOut env s (processPm env connectionId s text) ↔
      ∀ w ∈ s.filteredWords, ¬ HasWord env.wordBoundary w [] content := by
  constructor
  · intro hout
    refine hout (s.user other).connId (s.user my).username content hmy ?_
    exact ((h.notification_iff _ _).2 ⟨rfl, rfl, hmem⟩).1
  · intro hnone d author content' hauthor hsent
    have hstart : str "09" <+: notification (str "090") author content' :=
      notification_start ⟨str "0", rfl⟩
    obtain ⟨-, heq, -⟩ := (h.notification_iff _ _).1 ⟨hsent, hstart⟩
    rw [(notification_inj hauthor hmy heq).2]
    exact hnone

theorem filteredOut_of_no_notification {o : Outcome}
    (h : ∀ d m, (d, m) ∈ o.sent → ¬ str "09" <+: m) : FilteredOut env s o :=
  fun d _ _ _ hsent ↦ absurd (notification_start ⟨str "0", rfl⟩) (h d _ hsent)

/-- **No filtered word gets through** exactly when the name of the user who was found is not cut off
in front of a filtered word that ends a longer word of the text. -/
theorem pm_filtered_iff (hs : (serverMachine .threadPerClient).Reachable s)
    (hascii : env.wordBoundary = asciiBoundary) :
    FilteredOut env s (process env connectionId s (str "06" ++ text)) ↔
      ∀ x y, sessionVariable env connectionId s = some x →
        recipientVariable env s text.dropLast = some y → MayWrite s x y →
          (s.user y).connId ∈ s.connectionsMap →
            ¬ CutsWord s.filteredWords (str "<filtered>") text.dropLast
                ((s.user y).username.length + 1) := by
  have hwords := filteredWords_of_reachable hs
  have hreplaceable : Replaceable s.filteredWords (str "<filtered>") :=
    hwords ▸ replaceable_filteredWords
  -- the content of a PM has a filtered word when its name is cut off in front of one
  have hcut : ∀ n, (∀ w ∈ s.filteredWords,
      ¬ HasWord env.wordBoundary w [] ((filterWords env s text.dropLast).drop n)) ↔
        ¬ CutsWord s.filteredWords (str "<filtered>") text.dropLast n := by
    intro n
    rw [← hreplaceable.mem_runs_drop_iff, not_exists]
    refine forall_congr' fun w ↦ ?_
    rw [not_and]
    refine imp_congr_right fun hw ↦ ?_
    rw [hascii, hasWord_asciiBoundary_iff (hreplaceable.nonempty w hw)
      (hreplaceable.wordChars w hw)]
    rw [filterWords, hascii]
    rfl
  rw [process_06]
  constructor
  · intro hout x y hx hy hmay hmem hcuts
    have hlong : (s.user y).username.length + 1 < (filterWords env s text.dropLast).length := by
      rw [filterWords, hascii]
      exact hcuts.lt_length hreplaceable
    have hne : text ≠ [] := by
      rintro rfl
      have hnil : filterWords env s [] = [] := replaceEach_nil s.filteredWords
      rw [List.dropLast_nil, hnil] at hlong
      exact absurd hlong (Nat.not_lt_zero _)
    have haccepts := (pmAccepts_iff hne).2 ⟨hx, hy, hmay, Nat.lt_of_succ_lt hlong, rfl⟩
    exact (hcut _).1 ((haccepts.filteredOut_iff (nul_not_mem_username hs x) hmem).1 hout) hcuts
  · intro hnot
    by_cases haccepts : ∃ x y content, PmAccepts env connectionId s text x y content
    · obtain ⟨x, y, content, haccepts⟩ := haccepts
      by_cases hmem : (s.user y).connId ∈ s.connectionsMap
      · obtain ⟨hx, hy, hmay, -, rfl⟩ := (pmAccepts_iff haccepts.nonempty).1 haccepts
        refine (haccepts.filteredOut_iff (nul_not_mem_username hs x) hmem).2 ?_
        exact (hcut _).2 (hnot x y hx hy hmay hmem)
      · refine filteredOut_of_no_notification fun d m hsent hstart ↦ ?_
        obtain ⟨rfl, -, hd⟩ := (haccepts.notification_iff d m).1 ⟨hsent, hstart⟩
        exact hmem hd
    · simp only [not_exists] at haccepts
      refine filteredOut_of_no_notification fun d m hsent ↦ ?_
      rcases (processPm_refusal haccepts).sent_eq with hanswer | hanswer
      · rw [hanswer] at hsent
        obtain ⟨-, rfl, -⟩ := Server.mem_delivery.1 hsent
        decide
      · rw [hanswer] at hsent
        exact absurd hsent List.not_mem_nil

end Filter

/-- Bob writes to Alice about a Banana. -/
theorem pm_filtered_iff_alice :
    FilteredOut .listed bobFollowsAlice
      (process .listed 0 bobFollowsAlice (str "06" ++ str "alice eat a Banana\x00")) := by
  have hother : recipientVariable .listed bobFollowsAlice (str "alice eat a Banana") = some 0 := by
    decide
  refine (pm_filtered_iff bobFollowsAlice_reachable rfl).2 fun x y _ hy _ _ hcut ↦ ?_
  obtain rfl := Option.some.inj (hother.symm.trans hy)
  have hwords : bobFollowsAlice.filteredWords = ServerMode.threadPerClient.filteredWords := by
    decide
  rw [hwords] at hcut
  exact absurd (replaceable_filteredWords.mem_runs_drop_iff.2 hcut) (by decide)

/-- **A Banana gets through** behind a name that is cut off too late. -/
theorem pm_bypasses_filter :
    (serverMachine .threadPerClient).Reachable bobFollowsAlice ∧
      (process .listed 0 bobFollowsAlice (str "06" ++ str "alicexBanana\x00")).sent =
        [(1, str "090bob\x00Banana\x00"), (0, str "1006")] ∧
      ¬ FilteredOut .listed bobFollowsAlice
        (process .listed 0 bobFollowsAlice (str "06" ++ str "alicexBanana\x00")) := by
  have hsent : (process .listed 0 bobFollowsAlice (str "06" ++ str "alicexBanana\x00")).sent =
      [(1, str "090bob\x00Banana\x00"), (0, str "1006")] := by decide
  refine ⟨bobFollowsAlice_reachable, hsent, fun h ↦ ?_⟩
  refine h 1 (str "bob") (str "Banana") (by decide) (by rw [hsent]; exact List.mem_cons_self)
    (str "Banana") (by decide) ?_
  exact ⟨[], str "Banana", rfl, by decide, by decide⟩

end SplNet
