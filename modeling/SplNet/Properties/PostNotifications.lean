import SplNet.Api.Spec.Mentions
import SplNet.Srv.History

/-!
# Who gets a post

POST collects the mentioned users, drops the followers of the author from the queue it has collected
them in, and delivers the post to the followers and to the users left in the queue.

* Every follower gets the post exactly once, whatever the post mentions
  (`followers_get_post_once`).
* Another user gets it once for every scanned name that is a part of his own. This is once when he
  is mentioned, and never when he is not, exactly when the scanned names are as `ScannedOnce` says
  (`mentioned_get_post_iff`).
-/

namespace SplNet

open Java WordRuns

/-- `v` gets the post `n` times: it is `n` times among the receivers, of whom every active one is
sent a notification, and for an inactive one the post is queued as often. -/
structure GetsPost (env : Surroundings) (connectionId : ℤ) (s : Server) (my : UserRef)
    (message : JString) (v : UserRef) (n : ℕ) : Prop where
  count : (postReceivers env s my message.dropLast).count v = n
  sent : (process env connectionId s (str "05" ++ message)).sent =
    ((postReceivers env s my message.dropLast).filter fun r ↦ (s.user r).isActivated).map
        (fun r ↦ ((s.user r).connId,
          notification (str "091") (s.user my).username message.dropLast)) ++
      [(connectionId, str "1005")]
  queued : ((process env connectionId s (str "05" ++ message)).server.user v).awaitingPosts =
    if (s.user v).isActivated then (s.user v).awaitingPosts
    else (s.user v).awaitingPosts ++ List.replicate n (postEntry s my message.dropLast)

section Posts

variable {env : Surroundings} {connectionId : ℤ} {s : Server} {my v : UserRef} {message : JString}

/-- Every active receiver is on an accepted connection. -/
theorem postDeliveries_eq_map (hs : Coherent s) (m : JString) (rs : List UserRef) :
    postDeliveries s m rs =
      (rs.filter fun r ↦ (s.user r).isActivated).map fun r ↦ ((s.user r).connId, m) := by
  induction rs with
  | nil => rfl
  | cons r rs ih =>
    rw [← List.singleton_append, postDeliveries_append, ih, List.filter_append, List.map_append]
    by_cases hactive : (s.user r).isActivated = true
    · simp [postDeliveries, hactive, Server.delivery_of_mem (hs.activated_connId hactive)]
    · simp [postDeliveries, hactive]

/-- An accepted POST delivers the post to its receivers. -/
theorem getsPost_iff (hs : Coherent s) (h : PostAccepts env connectionId s message my) (n : ℕ) :
    GetsPost env connectionId s my message v n ↔
      (postReceivers env s my message.dropLast).count v = n := by
  refine ⟨fun hgets ↦ hgets.count, fun hcount ↦ ⟨hcount, ?_, ?_⟩⟩
  · rw [process_05, processPost_of_accepts h, postDeliveries_eq_map hs,
      Server.delivery_of_mem (hs.mem_of_findActive h.session)]
  · rw [process_05, processPost_of_accepts h, queuePost_awaitingPosts, hcount]

/-- A follower is a receiver once, however often the post mentions him. -/
theorem count_postReceivers_of_follower (hs : Coherent s) (hv : s.Registered v)
    (hfollows : my ∈ (s.user v).followers) (text : JString) :
    (postReceivers env s my text).count v = 1 := by
  rw [postReceivers, List.count_append, List.count_filter (by simpa using hfollows),
    Server.count_users (fun _ _ ↦ hs.username_of_mem) hv,
    List.count_eq_zero_of_not_mem (by simp [hfollows])]

/-- Another user is a receiver once for every scanned name that is a part of his own. -/
theorem count_postReceivers_of_not_follower (hs : Coherent s) (hv : s.Registered v)
    (hother : my ∉ (s.user v).followers) (text : JString) :
    (postReceivers env s my text).count v =
      (scannedNames text).countP fun name ↦ contains (s.user v).username name := by
  have hmentioned : (mentionedUsers env s text).count v =
      (scannedNames text).countP fun name ↦ contains (s.user v).username name := by
    rw [mentionedUsers, mentions_eq]
    induction scannedNames text with
    | nil => rfl
    | cons name names ih =>
      rw [List.flatMap_cons, List.count_append, ih, List.countP_cons, Nat.add_comm]
      by_cases hpart : contains (s.user v).username name = true
      · rw [if_pos hpart, List.count_filter (by simpa using hpart),
          Server.count_users (fun _ _ ↦ hs.username_of_mem) hv]
      · rw [if_neg hpart, List.count_eq_zero_of_not_mem (by simp [hpart])]
  rw [postReceivers, List.count_append, List.count_eq_zero_of_not_mem (by simp [hother]),
    List.count_filter (by simpa using hother), hmentioned, Nat.zero_add]

/-- **Every follower gets an accepted post exactly once**, whatever it mentions. -/
theorem followers_get_post_once {mode : ServerMode} (hs : (serverMachine mode).Reachable s)
    (h : PostAccepts env connectionId s message my) (hv : s.Registered v)
    (hfollows : my ∈ (s.user v).followers) : GetsPost env connectionId s my message v 1 := by
  have hcoherent := coherent_of_reachable hs
  exact (getsPost_iff hcoherent h 1).2
    (count_postReceivers_of_follower hcoherent hv hfollows message.dropLast)

/-- The scanned names that are a part of the name: exactly one when the post mentions the name, and
none when it does not. -/
structure ScannedOnce (text name : JString) : Prop where
  mentioned : Mentions text name →
    (scannedNames text).countP (fun scanned ↦ contains name scanned) = 1
  other : ¬ Mentions text name → ∀ scanned ∈ scannedNames text, contains name scanned = false

/-- **Another user gets the post once when it mentions him and not otherwise**, exactly when one of
the scanned names is a part of his own in the first case and none in the second. -/
theorem mentioned_get_post_iff {mode : ServerMode} (hs : (serverMachine mode).Reachable s)
    (h : PostAccepts env connectionId s message my) (hv : s.Registered v)
    (hother : my ∉ (s.user v).followers) :
    ((Mentions message.dropLast (s.user v).username → GetsPost env connectionId s my message v 1) ∧
        (¬ Mentions message.dropLast (s.user v).username →
          GetsPost env connectionId s my message v 0)) ↔
      ScannedOnce message.dropLast (s.user v).username := by
  have hcoherent := coherent_of_reachable hs
  rw [getsPost_iff hcoherent h, getsPost_iff hcoherent h,
    count_postReceivers_of_not_follower hcoherent hv hother, List.countP_eq_zero]
  constructor
  · rintro ⟨hone, hnone⟩
    exact ⟨hone, fun hnot scanned hscanned ↦ by simpa using hnone hnot scanned hscanned⟩
  · intro hscan
    exact ⟨hscan.mentioned, fun hnot scanned hscanned ↦ by simp [hscan.other hnot scanned hscanned]⟩

end Posts

/-- Alice is logged in on the connection 0 and Bob, who follows her, on the connection 1; Carol is
registered. -/
def bobAndCarol : Server :=
  (serverMachine .threadPerClient).stateAfter
    [.accept, .accept, .frame 0 "01alice\x00a\x0001-01-1990\x00",
      .frame 1 "01bob\x00b\x0002-02-1990\x00", .frame 1 "01carol\x00c\x0003-03-1990\x00",
      .frame 0 "02alice\x00a\x001", .frame 1 "02bob\x00b\x001", .frame 1 "040alice\x00"]

theorem bobAndCarol_reachable : (serverMachine .threadPerClient).Reachable bobAndCarol := ⟨_, rfl⟩

theorem postAccepts_alice {message : JString} (hne : message ≠ []) :
    PostAccepts .listed 0 bobAndCarol message 0 :=
  ⟨hne, by decide⟩

/-- Bob gets a post that mentions him three times. -/
theorem followers_get_post_once_bob :
    GetsPost .listed 0 bobAndCarol 0 (str "@bob @bo hi @bob\x00") 1 1 :=
  followers_get_post_once bobAndCarol_reachable (postAccepts_alice (by decide)) (by decide)
    (by decide)

/-- Carol gets a post that mentions her. -/
theorem mentioned_get_post_iff_carol :
    GetsPost .listed 0 bobAndCarol 0 (str "hi @carol all\x00") 2 1 := by
  have hmentions : Mentions (str "hi @carol all\x00").dropLast (bobAndCarol.user 2).username :=
    ⟨by decide, by decide, str "hi ", str " all", by decide,
      by simp [str, isNoBlank_eq_false, space]⟩
  refine ((mentioned_get_post_iff bobAndCarol_reachable (postAccepts_alice (by decide))
    (by decide) (by decide)).2 ⟨fun _ ↦ by decide, fun hnot ↦ absurd hmentions hnot⟩).1 hmentions

/-- **Carol gets a post that mentions `@car`**, which is only a part of her name, and a post that
mentions her twice twice. -/
theorem post_for_not_mentioned :
    (serverMachine .threadPerClient).Reachable bobAndCarol ∧
      ¬ Mentions (str "hi @car all\x00").dropLast (bobAndCarol.user 2).username ∧
      GetsPost .listed 0 bobAndCarol 0 (str "hi @car all\x00") 2 1 ∧
      GetsPost .listed 0 bobAndCarol 0 (str "@carol hi @carol all\x00") 2 2 ∧
      ¬ (¬ Mentions (str "hi @car all\x00").dropLast (bobAndCarol.user 2).username →
          GetsPost .listed 0 bobAndCarol 0 (str "hi @car all\x00") 2 0) := by
  have hcoherent : Coherent bobAndCarol := coherent_of_reachable bobAndCarol_reachable
  have hgets : GetsPost .listed 0 bobAndCarol 0 (str "hi @car all\x00") 2 1 :=
    (getsPost_iff hcoherent (postAccepts_alice (by decide)) 1).2 (by decide)
  have hnot : ¬ Mentions (str "hi @car all\x00").dropLast (bobAndCarol.user 2).username := by
    rintro ⟨-, -, a, b, heq, -⟩
    have hinfix : (bobAndCarol.user 2).username <:+: (str "hi @car all\x00").dropLast :=
      ⟨a ++ [char '@'], b, by rw [heq]; simp⟩
    exact absurd hinfix (by decide)
  refine ⟨bobAndCarol_reachable, hnot, hgets,
    (getsPost_iff hcoherent (postAccepts_alice (by decide)) 2).2 (by decide), fun h ↦ ?_⟩
  have hcount := (h hnot).count
  rw [hgets.count] at hcount
  exact absurd hcount Nat.one_ne_zero

end SplNet
