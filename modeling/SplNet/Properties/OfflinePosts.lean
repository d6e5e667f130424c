import SplNet.Srv.History

/-!
# Posts for offline users

A post for an inactive user is queued and replayed at a LOGIN. The queue is never emptied, so an
entry is known by its place in the queue for the rest of the run, and the notification with the same
place in a replay is the one for it (`Replays`). The law is that an entry is replayed at the first
LOGIN after it was queued and at no other (`DeliveredOnce`). Every LOGIN replays the whole queue, so
a run obeys the law exactly when no user whose LOGIN found queued posts logs in again
(`delivered_once_iff`).

An entry is the author, a blank and the text (`QueuedPost`). The replay collects the name of the
author in a variable it never clears, so it gives the authors of all earlier entries to an entry as
well: the entries are replayed as they were queued exactly when only the last of them has an author
(`replay_as_queued_iff`).
-/

namespace SplNet

open Java LabelledMachine

variable {mode : ServerMode}

/-- The event puts an entry in this place of the user's queue. -/
def Appends (mode : ServerMode) (v : UserRef) (i : ℕ) (s : Server) (e : Event) : Prop :=
  (s.user v).awaitingPosts.length ≤ i ∧
    i < (((serverMachine mode).next s e).user v).awaitingPosts.length

/-- Behind the acknowledgement, the notification in this place is sent to the connection and has the
content of the entry. Its author is left open: which names stand there is the subject of
`replay_as_queued_iff`. -/
def Replays (connectionId : ℤ) (i : ℕ) (post : JString) (o : Outcome) : Prop :=
  ∃ author, (o.sent.drop 1)[i]? =
    some (connectionId, notification (str "091") author (post.dropWhile (· ≠ space)).tail)

/-- The user logs in after the event `e` of the run `es`, which happened after `pre`. -/
def LogsInAfter (mode : ServerMode) (v : UserRef) (pre : List Event) (e : Event)
    (es : List Event) : Prop :=
  ∃ pre' e' c, pre ++ [e] <+: pre' ∧ Occurs es pre' e' ∧
    LogsIn c v ((serverMachine mode).stateAfter pre') e'

/-- **The delivery law.** A queued entry is replayed at the first LOGIN after it was queued and at
no other LOGIN, and nothing else is replayed. -/
structure DeliveredOnce (mode : ServerMode) (es : List Event) : Prop where
  once : ∀ v i pre e, Occurs es pre e → Appends mode v i ((serverMachine mode).stateAfter pre) e →
    ∀ post, (((serverMachine mode).stateAfter (pre ++ [e])).user v).awaitingPosts[i]? = some post →
      ∀ pre' e' c, pre ++ [e] <+: pre' → Occurs es pre' e' →
        LogsIn c v ((serverMachine mode).stateAfter pre') e' →
          (Replays c i post
              ((serverMachine mode).output ((serverMachine mode).stateAfter pre') e') ↔
            ¬ LogsInAfter mode v pre e pre')
  only : ∀ v i pre' e' c, Occurs es pre' e' →
    LogsIn c v ((serverMachine mode).stateAfter pre') e' →
      i < (((serverMachine mode).output
          ((serverMachine mode).stateAfter pre') e').sent.drop 1).length →
        ∃ pre e, Occurs pre' pre e ∧ Appends mode v i ((serverMachine mode).stateAfter pre) e ∧
          ¬ LogsInAfter mode v pre e pre'

/-- The runs in which no user whose LOGIN found queued posts logs in again. -/
def NoLoginAfterReplay (mode : ServerMode) (es : List Event) : Prop :=
  ∀ v pre e c, Occurs es pre e → LogsIn c v ((serverMachine mode).stateAfter pre) e →
    LogsInAfter mode v pre e es → (((serverMachine mode).stateAfter pre).user v).awaitingPosts = []

/-! ### Replays -/

theorem length_replayMessages (senderName : JString) (posts : List JString) :
    (replayMessages senderName posts).length = posts.length := by
  induction posts generalizing senderName with
  | nil => rfl
  | cons post posts ih => rw [replayMessages, List.length_cons, List.length_cons, ih]

/-- The replay has a notification for every entry, in the same place. -/
theorem getElem?_replayMessages (senderName : JString) {posts : List JString} {i : ℕ}
    {post : JString} (h : posts[i]? = some post) :
    ∃ author, (replayMessages senderName posts)[i]? =
      some (notification (str "091") author (post.dropWhile (· ≠ space)).tail) := by
  induction posts generalizing senderName i with
  | nil => simp at h
  | cons p posts ih =>
    cases i with
    | zero =>
      obtain rfl : p = post := by simpa using h
      exact ⟨_, rfl⟩
    | succ i =>
      rw [List.getElem?_cons_succ] at h
      rw [replayMessages, List.getElem?_cons_succ]
      exact ih _ h

section Replay

variable {s : Server} {e : Event} {c : ℤ} {v : UserRef}

theorem LogsIn.drop_sent (mode : ServerMode) (h : LogsIn c v s e) (hs : Coherent s) :
    ((serverMachine mode).output s e).sent.drop 1 =
      (replayMessages [] (s.user v).awaitingPosts).map fun m ↦ (c, m) := by
  rw [h.sent_eq mode hs, List.drop_one, List.tail_cons]

/-- **Every LOGIN replays the whole queue.** -/
theorem LogsIn.replays (mode : ServerMode) (h : LogsIn c v s e) (hs : Coherent s) {i : ℕ}
    {post : JString} (hpost : (s.user v).awaitingPosts[i]? = some post) :
    Replays c i post ((serverMachine mode).output s e) := by
  obtain ⟨author, hmessage⟩ := getElem?_replayMessages [] hpost
  refine ⟨author, ?_⟩
  rw [h.drop_sent mode hs, List.getElem?_map, hmessage]
  rfl

theorem LogsIn.length_drop_sent (mode : ServerMode) (h : LogsIn c v s e) (hs : Coherent s) :
    (((serverMachine mode).output s e).sent.drop 1).length = (s.user v).awaitingPosts.length := by
  rw [h.drop_sent mode hs, List.length_map, length_replayMessages]

end Replay

/-! ### Queued entries along a run -/

/-- Whatever is in the queue was put there by some event. -/
theorem exists_appends {es : List Event} {v : UserRef} {i : ℕ}
    (h : i < (((serverMachine mode).stateAfter es).user v).awaitingPosts.length) :
    ∃ pre e, Occurs es pre e ∧ Appends mode v i ((serverMachine mode).stateAfter pre) e := by
  obtain ⟨pre, e, hocc, hold, hnew⟩ := exists_occurs_of_change (M := serverMachine mode)
    (P := fun s ↦ i < (s.user v).awaitingPosts.length) (Nat.not_lt_zero i) h
  exact ⟨pre, e, hocc, Nat.le_of_not_lt hold, hnew⟩

/-- An entry is still in its place later. -/
theorem getElem?_awaitingPosts_along {pre es : List Event} (hpre : pre <+: es) {v : UserRef} {i : ℕ}
    {post : JString}
    (h : (((serverMachine mode).stateAfter pre).user v).awaitingPosts[i]? = some post) :
    (((serverMachine mode).stateAfter es).user v).awaitingPosts[i]? = some post := by
  obtain ⟨rest, hrest⟩ := awaitingPosts_along mode hpre v
  obtain ⟨hlt, -⟩ := List.getElem?_eq_some_iff.1 h
  rw [← hrest, List.getElem?_append_left hlt, h]

theorem length_awaitingPosts_along (mode : ServerMode) {pre es : List Event} (hpre : pre <+: es)
    (v : UserRef) :
    (((serverMachine mode).stateAfter pre).user v).awaitingPosts.length ≤
      (((serverMachine mode).stateAfter es).user v).awaitingPosts.length :=
  (awaitingPosts_along mode hpre v).length_le

/-- In a run of the good kind, an entry has met no LOGIN before the one under consideration. -/
theorem not_logsInAfter_of_appends {es pre' : List Event} {e' : Event} {c : ℤ} {v : UserRef}
    (hgood : NoLoginAfterReplay mode es) (hocc' : Occurs es pre' e')
    (hlogin : LogsIn c v ((serverMachine mode).stateAfter pre') e') {pre : List Event} {e : Event}
    {i : ℕ} (happends : Appends mode v i ((serverMachine mode).stateAfter pre) e) :
    ¬ LogsInAfter mode v pre e pre' := by
  rintro ⟨pre'', e'', c'', hpre'', hocc'', hlogin''⟩
  have hagain : LogsInAfter mode v pre'' e'' es := ⟨pre', e', c, hocc'', hocc', hlogin⟩
  have hempty := hgood v pre'' e'' c'' (hocc''.mono hocc'.before) hlogin'' hagain
  have hlen := length_awaitingPosts_along mode hpre'' v
  rw [hempty, List.length_nil, stateAfter_concat] at hlen
  exact absurd (happends.2.trans_le hlen) (Nat.not_lt_zero i)

theorem deliveredOnce_of_noLoginAfterReplay {es : List Event}
    (hgood : NoLoginAfterReplay mode es) : DeliveredOnce mode es where
  once v i pre e _ happends post hpost pre' e' c hpre' hocc' hlogin := by
    have hcoherent := coherent_of_reachable ((serverMachine mode).reachable_stateAfter pre')
    have hreplays := hlogin.replays mode hcoherent
      (getElem?_awaitingPosts_along hpre' hpost)
    exact iff_of_true hreplays (not_logsInAfter_of_appends hgood hocc' hlogin happends)
  only v i pre' e' c hocc' hlogin hi := by
    have hcoherent := coherent_of_reachable ((serverMachine mode).reachable_stateAfter pre')
    rw [hlogin.length_drop_sent mode hcoherent] at hi
    obtain ⟨pre, e, hocc, happends⟩ := exists_appends hi
    exact ⟨pre, e, hocc, happends, not_logsInAfter_of_appends hgood hocc' hlogin happends⟩

theorem noLoginAfterReplay_of_deliveredOnce {es : List Event} (h : DeliveredOnce mode es) :
    NoLoginAfterReplay mode es := by
  rintro v pre e c hocc hlogin ⟨pre', e', c', hpre', hocc', hlogin'⟩
  by_contra hne
  -- the first entry of the queue is replayed by both LOGINs
  have hpos : 0 < (((serverMachine mode).stateAfter pre).user v).awaitingPosts.length :=
    List.length_pos_of_ne_nil hne
  obtain ⟨pre₀, e₀, hocc₀, happends⟩ := exists_appends hpos
  have hnew :
      0 < (((serverMachine mode).stateAfter (pre₀ ++ [e₀])).user v).awaitingPosts.length := by
    rw [stateAfter_concat]
    exact happends.2
  have hpost := List.getElem?_eq_getElem hnew
  have hbefore : pre₀ ++ [e₀] <+: pre' := (hocc₀.trans (List.prefix_append pre [e])).trans hpre'
  have hcoherent := coherent_of_reachable ((serverMachine mode).reachable_stateAfter pre')
  have hreplays := hlogin'.replays mode hcoherent
    (getElem?_awaitingPosts_along hbefore hpost)
  have hfirst := (h.once v 0 pre₀ e₀ (hocc₀.mono hocc.before) happends _ hpost pre' e' c' hbefore
    hocc' hlogin').1 hreplays
  exact hfirst ⟨pre, e, c, hocc₀, hpre', hlogin⟩

/-- **Queued posts are delivered exactly once exactly in the runs in which no user whose LOGIN found
queued posts logs in again.** -/
theorem delivered_once_iff (mode : ServerMode) (es : List Event) :
    DeliveredOnce mode es ↔ NoLoginAfterReplay mode es :=
  ⟨noLoginAfterReplay_of_deliveredOnce, deliveredOnce_of_noLoginAfterReplay⟩

/-- Bob follows Alice and logs out, Alice posts, and Bob logs in, out and in again. -/
def postForBob : List Event :=
  [.accept, .accept, .frame 0 "01alice\x00a\x0001-01-1990\x00",
    .frame 1 "01bob\x00b\x0002-02-1990\x00", .frame 0 "02alice\x00a\x001",
    .frame 1 "02bob\x00b\x001",
    .frame 1 "040alice\x00", .frame 1 "03", .frame 0 "05hi\x00", .frame 1 "02bob\x00b\x001",
    .frame 1 "03", .frame 1 "02bob\x00b\x001"]

/-- **The one post is replayed by both LOGINs.** -/
theorem post_replayed_twice :
    (1, str "091alice\x00hi\x00") ∈ ((serverMachine .threadPerClient).output
        ((serverMachine .threadPerClient).stateAfter (postForBob.take 9))
        (.frame 1 "02bob\x00b\x001")).sent ∧
      (1, str "091alice\x00hi\x00") ∈ ((serverMachine .threadPerClient).output
        ((serverMachine .threadPerClient).stateAfter (postForBob.take 11))
        (.frame 1 "02bob\x00b\x001")).sent ∧
      ¬ DeliveredOnce .threadPerClient postForBob := by
  have hlogin : LogsIn 1 1 ((serverMachine .threadPerClient).stateAfter (postForBob.take 9))
      (.frame 1 "02bob\x00b\x001") :=
    ⟨.listed, str "bob\x00b\x001", str "bob", rfl, by decide, ⟨[], by decide⟩, by decide, by decide⟩
  have hagain : LogsIn 1 1 ((serverMachine .threadPerClient).stateAfter (postForBob.take 11))
      (.frame 1 "02bob\x00b\x001") :=
    ⟨.listed, str "bob\x00b\x001", str "bob", rfl, by decide, ⟨[], by decide⟩, by decide, by decide⟩
  refine ⟨by decide, by decide, fun h ↦ ?_⟩
  have hempty := noLoginAfterReplay_of_deliveredOnce h 1 _ _ 1 ⟨_, rfl⟩ hlogin
    ⟨_, _, 1, ⟨[_], rfl⟩, ⟨[], rfl⟩, hagain⟩
  exact absurd hempty (by decide)

/-! ### The authors of replayed posts -/

/-- A post in a queue. Names of authors have no blank. -/
structure QueuedPost where
  author : JString
  text : JString
  blank_not_mem : space ∉ author

namespace QueuedPost

/-- The entry POST appends to the queue. -/
def entry (post : QueuedPost) : JString := post.author ++ [space] ++ post.text

/-- The notification POST sends to an active user. -/
def posted (post : QueuedPost) : JString := notification (str "091") post.author post.text

theorem ne_space (post : QueuedPost) : ∀ c ∈ post.author, decide (c ≠ space) = true := by
  intro c hc
  rw [decide_eq_true_eq]
  intro heq
  exact post.blank_not_mem (heq ▸ hc)

theorem takeWhile_entry (post : QueuedPost) : post.entry.takeWhile (· ≠ space) = post.author := by
  rw [entry, List.append_assoc, List.takeWhile_append_of_pos post.ne_space, List.singleton_append,
    List.takeWhile_cons_of_neg (by simp), List.append_nil]

theorem tail_dropWhile_entry (post : QueuedPost) :
    (post.entry.dropWhile (· ≠ space)).tail = post.text := by
  rw [entry, List.append_assoc, List.dropWhile_append_of_pos post.ne_space, List.singleton_append,
    List.dropWhile_cons_of_neg (by simp), List.tail_cons]

/-- The replay puts the names it has collected before the name of the author. -/
theorem replayMessages_cons (senderName : JString) (post : QueuedPost) (posts : List QueuedPost) :
    replayMessages senderName ((post :: posts).map entry) =
      notification (str "091") (senderName ++ post.author) post.text ::
        replayMessages (senderName ++ post.author) (posts.map entry) := by
  rw [List.map_cons, replayMessages, takeWhile_entry, tail_dropWhile_entry]

/-- The replay of a queue, from any collected names on. -/
theorem replayMessages_eq_iff (senderName : JString) (posts : List QueuedPost) :
    replayMessages senderName (posts.map entry) = posts.map posted ↔
      posts = [] ∨ senderName = [] ∧ ∀ post ∈ posts.dropLast, post.author = [] := by
  induction posts generalizing senderName with
  | nil => exact iff_of_true rfl (Or.inl rfl)
  | cons post posts ih =>
    have hfirst : notification (str "091") (senderName ++ post.author) post.text = post.posted ↔
        senderName = [] := by
      simp only [notification, posted, List.append_assoc, List.append_cancel_left_eq]
      rw [← List.append_assoc, List.append_left_inj, List.append_left_eq_self]
    rw [replayMessages_cons, List.map_cons, List.cons.injEq, hfirst, ih,
      or_iff_right (List.cons_ne_nil post posts)]
    refine and_congr_right fun hnil ↦ ?_
    rw [hnil, List.nil_append]
    rcases posts with - | ⟨next, posts⟩
    · simp
    · rw [or_iff_right (List.cons_ne_nil next posts), List.dropLast_cons_of_ne_nil
        (List.cons_ne_nil next posts), List.forall_mem_cons]

end QueuedPost

/-- **A queue is replayed as it was queued** exactly when every entry but the last has an empty
author. -/
theorem replay_as_queued_iff {env : Surroundings} {connectionId : ℤ} {s : Server}
    {message username : JString} {r : UserRef} (hconn : connectionId ∈ s.connectionsMap)
    (h : LoginAccepts env s message username r) {posts : List QueuedPost}
    (hqueue : (s.user r).awaitingPosts = posts.map QueuedPost.entry) :
    (process env connectionId s (str "02" ++ message)).sent =
        (connectionId, str "1002") :: posts.map (fun post ↦ (connectionId, post.posted)) ↔
      ∀ post ∈ posts.dropLast, post.author = [] := by
  have hblank : ∀ post ∈ (s.user r).awaitingPosts, space ∈ post := by
    intro post hpost
    rw [hqueue] at hpost
    obtain ⟨post, -, rfl⟩ := List.mem_map.1 hpost
    simp [QueuedPost.entry]
  have hmap : posts.map (fun post ↦ (connectionId, post.posted)) =
      (posts.map QueuedPost.posted).map fun m ↦ (connectionId, m) := by
    rw [List.map_map]
    rfl
  have hpair : Function.Injective fun m : JString ↦ (connectionId, m) :=
    fun _ _ heq ↦ (Prod.mk.inj heq).2
  rw [process_02, processLogin_of_accepts h hblank, hqueue,
    Server.flatMap_delivery_of_mem hconn, Server.delivery_of_mem hconn, List.singleton_append,
    List.cons.injEq, and_iff_right rfl, hmap,
    (List.map_injective_iff.2 hpair).eq_iff, QueuedPost.replayMessages_eq_iff]
  constructor
  · rintro (rfl | ⟨-, hauthors⟩)
    · exact fun _ hpost ↦ absurd hpost List.not_mem_nil
    · exact hauthors
  · exact fun hauthors ↦ Or.inr ⟨rfl, hauthors⟩

/-- Bob logs in, with one post in his queue. -/
theorem replay_as_queued_iff_bob :
    (process .listed 1 ((serverMachine .threadPerClient).stateAfter (postForBob.take 9))
        (str "02" ++ str "bob\x00b\x001")).sent =
      [(1, str "1002"), (1, str "091alice\x00hi\x00")] := by
  have haccepts : LoginAccepts .listed ((serverMachine .threadPerClient).stateAfter
      (postForBob.take 9)) (str "bob\x00b\x001") (str "bob") 1 :=
    ⟨⟨[], by decide⟩, by decide, by decide⟩
  have hqueue : (((serverMachine .threadPerClient).stateAfter
      (postForBob.take 9)).user 1).awaitingPosts =
        [⟨str "alice", str "hi", by decide⟩].map QueuedPost.entry := by decide
  exact (replay_as_queued_iff (by decide) haccepts hqueue).2 (by simp)

/-- **The second of two posts is replayed under the name `alicealice`.** -/
theorem replay_of_two_posts :
    (serverMachine .threadPerClient).Reachable ((serverMachine .threadPerClient).stateAfter
        (postForBob.take 9 ++ [.frame 0 "05you\x00"])) ∧
      (((serverMachine .threadPerClient).stateAfter
        (postForBob.take 9 ++ [.frame 0 "05you\x00"])).user 1).awaitingPosts =
          [⟨str "alice", str "hi", by decide⟩, ⟨str "alice", str "you", by decide⟩].map
            QueuedPost.entry ∧
      (process .listed 1 ((serverMachine .threadPerClient).stateAfter
          (postForBob.take 9 ++ [.frame 0 "05you\x00"])) (str "02" ++ str "bob\x00b\x001")).sent =
        [(1, str "1002"), (1, str "091alice\x00hi\x00"), (1, str "091alicealice\x00you\x00")] ∧
      (process .listed 1 ((serverMachine .threadPerClient).stateAfter
          (postForBob.take 9 ++ [.frame 0 "05you\x00"])) (str "02" ++ str "bob\x00b\x001")).sent ≠
        [(1, str "1002"), (1, str "091alice\x00hi\x00"), (1, str "091alice\x00you\x00")] := by
  refine ⟨⟨_, rfl⟩, by decide, by decide, by decide⟩

end SplNet
