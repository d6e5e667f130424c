import SplNet.Properties.FollowGraph
import SplNet.Srv.History

/-!
# Blocking

What a BLOCK promises: after it, no POST or PM of either of the two users reaches the other
(`BlockEnforced`). A message reaches a user who has a session when a notification is sent to the
connection of that session, and a user without one when its queue changes.

BLOCK removes the two users from each other's follow lists and closes one guard of FOLLOW and one of
PM. What stays open is exactly this (`KeepsApart`): a mention of a part of the other's name, a
follow list the **blocker** fills again, a PM the **blocker** sends, and a receiver that shares the
other's connection. A run keeps all its blocks exactly when none of its POST and PM events takes one
of these ways (`block_enforced_iff`).
-/

namespace SplNet

open Java LabelledMachine

/-! ### Reaching a user -/

/-- A notification is sent to the session of the user, or its queue changes. -/
def Reaches (y : UserRef) (s : Server) (o : Outcome) : Prop :=
  (∃ d m, (d, m) ∈ o.sent ∧ str "09" <+: m ∧ HasSession y d s) ∨
    (o.server.user y).awaitingPosts ≠ (s.user y).awaitingPosts

/-- The two users have sessions on one connection. -/
def ShareConnection (y z : UserRef) (s : Server) : Prop :=
  ∃ d, HasSession y d s ∧ HasSession z d s

section Reaching

variable {env : Surroundings} {connectionId : ℤ} {s : Server} {message : JString}

theorem Refusal.not_reaches {optCode : JString} {o : Outcome}
    (h : Refusal connectionId s optCode o) (y : UserRef) : ¬ Reaches y s o := by
  rintro (⟨d, m, hm, hstart, -⟩ | hqueue)
  · rcases h.sent_eq with hsent | hsent
    · rw [hsent] at hm
      obtain ⟨-, rfl, -⟩ := Server.mem_delivery.1 hm
      have h11 : str "11" <+: str "11" ++ optCode := List.prefix_append _ _
      exact not_start_of_start (q := str "11") hstart rfl (by decide) h11
    · rw [hsent] at hm
      exact absurd hm List.not_mem_nil
  · exact hqueue (by rw [h.server_eq])

/-- **A post reaches its receivers and whoever shares a connection with one.** -/
theorem post_reaches_iff (hs : Coherent s) {my : UserRef}
    (h : PostAccepts env connectionId s message my) (y : UserRef) :
    Reaches y s (processPost env connectionId s message) ↔
      ∃ z ∈ postReceivers env s my message.dropLast, z = y ∨ ShareConnection y z s := by
  rw [processPost_of_accepts h]
  constructor
  · rintro (⟨d, m, hm, hstart, hy⟩ | hqueue)
    · rcases List.mem_append.1 hm with hm | hm
      · obtain ⟨z, hz, hm⟩ := List.mem_flatMap.1 hm
        split at hm
        case isTrue hactive =>
          obtain ⟨rfl, -, -⟩ := Server.mem_delivery.1 hm
          exact ⟨z, hz, Or.inr ⟨_, hy, hactive, rfl⟩⟩
        case isFalse => exact absurd hm List.not_mem_nil
      · obtain ⟨-, rfl, -⟩ := Server.mem_delivery.1 hm
        exact absurd hstart (by decide)
    · by_contra hnot
      have hy : y ∉ postReceivers env s my message.dropLast := fun hy ↦ hnot ⟨y, hy, Or.inl rfl⟩
      exact hqueue (by rw [queuePost_user_of_not_mem hy])
  · rintro ⟨z, hz, hy⟩
    -- an active receiver's notification goes to its own connection
    have hsend : ∀ s' d, HasSession z d s → HasSession y d s →
        Reaches y s ⟨s', postDeliveries s (notification (str "091") (s.user my).username
          message.dropLast) (postReceivers env s my message.dropLast) ++
            s.delivery connectionId (str "1005"), none⟩ := by
      rintro s' d ⟨hactive, rfl⟩ hy
      have hstart : str "09" <+:
          notification (str "091") (s.user my).username message.dropLast :=
        notification_start ⟨str "1", rfl⟩
      refine Or.inl ⟨_, _, List.mem_append_left _ (List.mem_flatMap.2 ⟨z, hz, ?_⟩), hstart, hy⟩
      rw [if_pos hactive]
      exact Server.mem_delivery.2 ⟨rfl, rfl, hs.activated_connId hactive⟩
    rcases hy with rfl | ⟨d, hy, hz⟩
    · rcases hactive : (s.user z).isActivated with - | -
      · refine Or.inr ?_
        rw [queuePost_awaitingPosts, hactive]
        intro heq
        have hcount : (postReceivers env s my message.dropLast).count z = 0 := by simpa using heq
        exact List.count_eq_zero.1 hcount hz
      · exact hsend _ _ ⟨hactive, rfl⟩ ⟨hactive, rfl⟩
    · exact hsend _ d hz hy

/-- **A PM reaches whoever has a session on the recipient's connection.** -/
theorem pm_reaches_iff (hs : Coherent s) {my other : UserRef} {content : JString}
    (h : PmAccepts env connectionId s message my other content) (y : UserRef) :
    Reaches y s (processPm env connectionId s message) ↔ HasSession y (s.user other).connId s := by
  rw [processPm_of_accepts h]
  constructor
  · rintro (⟨d, m, hm, hstart, hy⟩ | hqueue)
    · rcases List.mem_append.1 hm with hm | hm
      · obtain ⟨rfl, -, -⟩ := Server.mem_delivery.1 hm
        exact hy
      · obtain ⟨-, rfl, -⟩ := Server.mem_delivery.1 hm
        exact absurd hstart (by decide)
    · exact absurd rfl hqueue
  · intro hy
    have hmem := hy.mem_connectionsMap hs
    have hstart : str "09" <+: notification (str "090") (s.user my).username content :=
      notification_start ⟨str "0", rfl⟩
    exact Or.inl ⟨_, _, List.mem_append_left _ (Server.mem_delivery.2 ⟨rfl, rfl, hmem⟩), hstart, hy⟩

end Reaching

/-! ### Keeping two users apart -/

/-- The event is a POST or a PM on a session of the user. -/
def WritesFrom (x : UserRef) (s : Server) (e : Event) : Prop :=
  ∃ env connectionId text optCode, (optCode = str "05" ∨ optCode = str "06") ∧
    e = .request env connectionId (optCode ++ text) ∧ HasSession x connectionId s

/-- A POST or a PM on a session of `x` does not go to `y`: neither `y` nor a user who shares its
connection follows the author or has a mentioned text in its name, and the connection of the
recipient of a PM is not that of a session of `y`. -/
structure KeepsApart (x y : UserRef) (s : Server) (e : Event) : Prop where
  post : ∀ env connectionId text my, e = .request env connectionId (str "05" ++ text) →
    HasSession x connectionId s → PostAccepts env connectionId s text my →
      ∀ z, s.Registered z → z = y ∨ ShareConnection y z s →
        my ∉ (s.user z).followers ∧
          ∀ userName ∈ mentions text.dropLast, contains (s.user z).username userName = false
  pm : ∀ env connectionId text my other content,
    e = .request env connectionId (str "06" ++ text) → HasSession x connectionId s →
      PmAccepts env connectionId s text my other content → ¬ HasSession y (s.user other).connId s

/-- **The step lemma**: a POST or PM on a session of `x` reaches `y` exactly on the ways
`KeepsApart` excludes. -/
theorem keepsApart_iff (mode : ServerMode) {s : Server} (hs : Coherent s) (x y : UserRef)
    (e : Event) :
    KeepsApart x y s e ↔ (WritesFrom x s e → ¬ Reaches y s ((serverMachine mode).output s e)) := by
  constructor
  · rintro hapart ⟨env, c, text, op, rfl | rfl, rfl, hx⟩
    · have hmem := hx.mem_connectionsMap hs
      rw [output_request_of_mem mode s hmem, process_05]
      rcases Classical.em (∃ my, PostAccepts env c s text my) with ⟨my, hpost⟩ | hrefused
      · rw [post_reaches_iff hs hpost]
        rintro ⟨z, hz, hy⟩
        obtain ⟨hreg, hroute⟩ := mem_postReceivers.1 hz
        obtain ⟨hfollows, hmentions⟩ := hapart.post env c text my rfl hx hpost z hreg hy
        rcases hroute with hroute | ⟨userName, hmention, hcontains⟩
        · exact hfollows hroute
        · rw [hmentions userName hmention] at hcontains
          exact Bool.false_ne_true hcontains
      · exact (processPost_refusal (not_exists.1 hrefused)).not_reaches y
    · have hmem := hx.mem_connectionsMap hs
      rw [output_request_of_mem mode s hmem, process_06]
      rcases Classical.em (∃ my other content, PmAccepts env c s text my other content) with
        ⟨my, other, content, hpm⟩ | hrefused
      · rw [pm_reaches_iff hs hpm]
        exact hapart.pm env c text my other content rfl hx hpm
      · simp only [not_exists] at hrefused
        exact (processPm_refusal hrefused).not_reaches y
  · refine fun hnot ↦ ⟨?_, ?_⟩
    · rintro env c text my rfl hx hpost z hreg hz
      have hmem := hx.mem_connectionsMap hs
      have hreaches := hnot ⟨env, c, text, str "05", Or.inl rfl, rfl, hx⟩
      rw [output_request_of_mem mode s hmem, process_05, post_reaches_iff hs hpost] at hreaches
      refine ⟨fun hfollows ↦ hreaches ⟨z, mem_postReceivers.2 ⟨hreg, Or.inl hfollows⟩, hz⟩,
        fun userName hmention ↦ ?_⟩
      rw [← Bool.not_eq_true]
      exact fun hcontains ↦ hreaches
        ⟨z, mem_postReceivers.2 ⟨hreg, Or.inr ⟨userName, hmention, hcontains⟩⟩, hz⟩
    · rintro env c text my other content rfl hx hpm
      have hmem := hx.mem_connectionsMap hs
      have hreaches := hnot ⟨env, c, text, str "06", Or.inr rfl, rfl, hx⟩
      rwa [output_request_of_mem mode s hmem, process_06, pm_reaches_iff hs hpm] at hreaches

/-! ### The law -/

/-- **The block law.** After a BLOCK, no POST or PM on a session of one of the two users reaches the
other. -/
def BlockEnforced (mode : ServerMode) (es : List Event) : Prop :=
  ∀ pre e a b, Occurs es pre e → Blocks a b ((serverMachine mode).stateAfter pre) e →
    ∀ pre' e' x y, x = a ∧ y = b ∨ x = b ∧ y = a → pre ++ [e] <+: pre' → Occurs es pre' e' →
      WritesFrom x ((serverMachine mode).stateAfter pre') e' →
        ¬ Reaches y ((serverMachine mode).stateAfter pre')
          ((serverMachine mode).output ((serverMachine mode).stateAfter pre') e')

/-- The event keeps apart every two users one of whom has blocked the other. -/
def RespectsBlocks (s : Server) (e : Event) : Prop :=
  ∀ a b, b ∈ (s.user a).blockingUsers → KeepsApart a b s e ∧ KeepsApart b a s e

/-- **A run keeps its blocks exactly when each of its events keeps apart the users that are blocked
at the time.** -/
theorem block_enforced_iff (mode : ServerMode) (es : List Event) :
    BlockEnforced mode es ↔
      ∀ pre e, Occurs es pre e → RespectsBlocks ((serverMachine mode).stateAfter pre) e := by
  constructor
  · intro henforced pre e hocc a b hab
    have hcoherent := coherent_of_reachable ((serverMachine mode).reachable_stateAfter pre)
    obtain ⟨pre₁, e₁, hocc₁, hblocks⟩ := (mem_blockingUsers_iff mode pre a b).1 hab
    have hlaw := henforced pre₁ e₁ a b (hocc₁.mono hocc.before) hblocks pre e
    exact ⟨(keepsApart_iff mode hcoherent a b e).2 (hlaw a b (Or.inl ⟨rfl, rfl⟩) hocc₁ hocc),
      (keepsApart_iff mode hcoherent b a e).2 (hlaw b a (Or.inr ⟨rfl, rfl⟩) hocc₁ hocc)⟩
  · intro hrespects pre e a b hocc hblocks pre' e' x y hxy hpre' hocc'
    have hcoherent := coherent_of_reachable ((serverMachine mode).reachable_stateAfter pre')
    have hab := (mem_blockingUsers_iff mode pre' a b).2 ⟨pre, e, hpre', hblocks⟩
    obtain ⟨hapart, hapart'⟩ := hrespects pre' e' hocc' a b hab
    rcases hxy with ⟨rfl, rfl⟩ | ⟨rfl, rfl⟩
    · exact (keepsApart_iff mode hcoherent x y e').1 hapart
    · exact (keepsApart_iff mode hcoherent x y e').1 hapart'

/-- What a BLOCK does close: the blocked user can neither follow the blocker nor send it a PM. -/
theorem closed_by_block {mode : ServerMode} {es : List Event} {a b : UserRef}
    (hab : b ∈ (((serverMachine mode).stateAfter es).user a).blockingUsers) :
    a ∉ (((serverMachine mode).stateAfter es).user b).followers ∧
      ∀ env connectionId text content,
        ¬ PmAccepts env connectionId ((serverMachine mode).stateAfter es) text b a content :=
  ⟨enforced_stateAfter mode es a b hab, fun _ _ _ _ hpm ↦ hpm.unblocked hab⟩

/-- Alice and Bob log in, Alice blocks Bob, and Bob posts a mention of Alice. -/
def mentionAfterBlock : List Event :=
  [.accept, .accept, .frame 0 "01alice\x00a\x0001-01-1990\x00",
    .frame 1 "01bob\x00b\x0002-02-1990\x00", .frame 0 "02alice\x00a\x001",
    .frame 1 "02bob\x00b\x001",
    .frame 0 "12bob\x00", .frame 1 "05@alice hi\x00"]

/-- **Alice is notified of the post of Bob, whom she has blocked.** -/
theorem mention_reaches_blocker :
    (0, str "1012") ∈ ((serverMachine .threadPerClient).output
        ((serverMachine .threadPerClient).stateAfter (mentionAfterBlock.take 6))
        (.frame 0 "12bob\x00")).sent ∧
      (0, str "091bob\x00@alice hi\x00") ∈ ((serverMachine .threadPerClient).output
        ((serverMachine .threadPerClient).stateAfter (mentionAfterBlock.take 7))
        (.frame 1 "05@alice hi\x00")).sent ∧
      ¬ BlockEnforced .threadPerClient mentionAfterBlock := by
  have hsent : (0, str "091bob\x00@alice hi\x00") ∈ ((serverMachine .threadPerClient).output
      ((serverMachine .threadPerClient).stateAfter (mentionAfterBlock.take 7))
      (.frame 1 "05@alice hi\x00")).sent := by decide
  have hblocks : Blocks 0 1 ((serverMachine .threadPerClient).stateAfter
      (mentionAfterBlock.take 6)) (.frame 0 "12bob\x00") :=
    ⟨.listed, 0, str "bob\x00", rfl, by decide, by decide, by decide, by decide, by decide⟩
  have hwrites : WritesFrom 1 ((serverMachine .threadPerClient).stateAfter
      (mentionAfterBlock.take 7)) (.frame 1 "05@alice hi\x00") :=
    ⟨.listed, 1, str "@alice hi\x00", str "05", Or.inl rfl, rfl, by decide⟩
  refine ⟨by decide, hsent, fun henforced ↦ ?_⟩
  exact henforced (mentionAfterBlock.take 6) _ 0 1 ⟨[_], rfl⟩ hblocks (mentionAfterBlock.take 7) _
    1 0 (Or.inr ⟨rfl, rfl⟩) ⟨[], rfl⟩ ⟨[], rfl⟩ hwrites
    (Or.inl ⟨0, _, hsent, by decide, by decide⟩)

end SplNet
