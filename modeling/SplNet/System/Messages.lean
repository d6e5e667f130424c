import SplNet.Properties.ServerToClient
import SplNet.System.Replies

/-!
# What concurrent handlers say

What the users have typed (`TypedTexts`) is enough to say who speaks. As long as the handlers take
up requests of the client only, the name and the password of every account come from a REGISTER,
every connection a user is stored with has asked for a login with that user's password, and whatever
is queued is an author, a blank and a text that was posted in that author's name
(`TypedTexts.Posted`). So **every message a handler sends is an `Answer`, and a notification of a
post ends in the name of its author and has the author's text** (`vouched_taskStep`), in any
interleaving: between the check of a password and the moment the connection is stored, neither the
name nor the password of the user changes.

The statistics LOGSTAT sends are of another format; they go to the connection that asked for them.
-/

namespace SplNet

open Java Client

/-- What the users have typed. -/
structure TypedTexts where
  /-- A REGISTER with this name and this password. -/
  account : JString → JString → Prop
  /-- A LOGIN with this password, on this connection. -/
  login : ℤ → JString → Prop
  /-- A POST with this text, on this connection. -/
  post : ℤ → JString → Prop

/-- The text was posted on a connection that gave the password of an account of this name. -/
def TypedTexts.Posted (T : TypedTexts) (author text : JString) : Prop :=
  ∃ d password, T.post d text ∧ T.login d password ∧ T.account author password

/-! ### The store -/

section Vouched

variable (T : TypedTexts)

/-- A name, as REGISTER finds it in a request of the client. -/
def IsName (name : JString) : Prop := nul ∉ name ∧ space ∉ name

/-- An entry of a queue: an author, a blank and a text of this author. -/
def QueueEntry (post : JString) : Prop :=
  ∃ author text, post = author ++ [space] ++ text ∧ IsName author ∧ T.Posted author text

/-- The account of the user has been registered. -/
structure KnownUser (s : Server) (r : UserRef) : Prop where
  lt : r < s.nextUser
  account : T.account (s.user r).username (s.user r).password

/-- The connection has given the password of the user. -/
structure OwnedBy (s : Server) (c : ℤ) (r : UserRef) : Prop extends KnownUser T s r where
  login : T.login c (s.user r).password

/-- The names are words, the accounts are registered, the connections have given the passwords, and
what is queued has been posted. -/
structure VouchedStore (s : Server) : Prop where
  username : ∀ r, IsName (s.user r).username
  awaitingPosts : ∀ r, ∀ post ∈ (s.user r).awaitingPosts, QueueEntry T post
  registered : ∀ r, s.Registered r → KnownUser T s r
  /-- A user nobody has logged in as has the connection `-1`. -/
  session : ∀ r, (s.user r).connId ≠ -1 → OwnedBy T s (s.user r).connId r

end Vouched

/-- The accounts of the users that exist stay what they are. -/
structure KeptAccounts (s s' : Server) : Prop where
  nextUser : s.nextUser ≤ s'.nextUser
  username : ∀ r, r < s.nextUser → (s'.user r).username = (s.user r).username
  password : ∀ r, r < s.nextUser → (s'.user r).password = (s.user r).password

/-- Nothing that is vouched for changes. -/
structure SameTexts (s s' : Server) : Prop where
  nextUser : s'.nextUser = s.nextUser
  usersMap : s'.usersMap = s.usersMap
  user : ∀ r, (s'.user r).username = (s.user r).username ∧
    (s'.user r).password = (s.user r).password ∧ (s'.user r).connId = (s.user r).connId ∧
      (s'.user r).awaitingPosts = (s.user r).awaitingPosts

section Store

variable {T : TypedTexts} {c : ℤ} {s s' : Server} {r : UserRef}

theorem SameTexts.refl (s : Server) : SameTexts s s :=
  ⟨rfl, rfl, fun _ ↦ ⟨rfl, rfl, rfl, rfl⟩⟩

theorem SameTexts.keptAccounts (h : SameTexts s s') : KeptAccounts s s' :=
  ⟨h.nextUser.ge, fun r _ ↦ (h.user r).1,
    fun r _ ↦ (h.user r).2.1⟩

/-- A method of one user that leaves its name and its password alone. -/
theorem keptAccounts_modifyUser (s : Server) (r : UserRef) {f : User → User}
    (hname : ∀ u, (f u).username = u.username) (hpassword : ∀ u, (f u).password = u.password) :
    KeptAccounts s (s.modifyUser r f) := by
  refine ⟨Nat.le_refl _, fun r' _ ↦ ?_, fun r' _ ↦ ?_⟩
  all_goals
    rw [Server.modifyUser_user]
    split
  · next heq => rw [hname, heq]
  · rfl
  · next heq => rw [hpassword, heq]
  · rfl

/-- A method of one user that leaves alone what is vouched for. -/
theorem sameTexts_modifyUser (s : Server) (r : UserRef) {f : User → User}
    (hf : ∀ u, (f u).username = u.username ∧ (f u).password = u.password ∧
      (f u).connId = u.connId ∧ (f u).awaitingPosts = u.awaitingPosts) :
    SameTexts s (s.modifyUser r f) := by
  refine ⟨rfl, rfl, fun r' ↦ ?_⟩
  rw [Server.modifyUser_user]
  split
  case isTrue heq =>
    rw [heq]
    exact hf (s.user r)
  case isFalse => exact ⟨rfl, rfl, rfl, rfl⟩

theorem KnownUser.mono (h : KnownUser T s r) (hs : KeptAccounts s s') : KnownUser T s' r where
  lt := Nat.lt_of_lt_of_le h.lt hs.nextUser
  account := by
    rw [hs.username r h.lt, hs.password r h.lt]
    exact h.account

theorem OwnedBy.mono (h : OwnedBy T s c r) (hs : KeptAccounts s s') : OwnedBy T s' c r where
  toKnownUser := h.toKnownUser.mono hs
  login := by
    rw [hs.password r h.lt]
    exact h.login

theorem VouchedStore.of_same (h : VouchedStore T s) (hs : SameTexts s s') : VouchedStore T s' where
  username r := by
    rw [(hs.user r).1]
    exact h.username r
  awaitingPosts r := by
    rw [(hs.user r).2.2.2]
    exact h.awaitingPosts r
  registered r hr := by
    have hold : s.Registered r := by
      rw [Server.Registered, ← hs.usersMap]
      exact hr
    exact (h.registered r hold).mono hs.keptAccounts
  session r hr := by
    rw [(hs.user r).2.2.1] at hr ⊢
    exact (h.session r hr).mono hs.keptAccounts

theorem VouchedStore.nulFreeStore (h : VouchedStore T s) (hposted : ∀ c t, T.post c t → nul ∉ t) :
    NulFreeStore s where
  username r := (h.username r).1
  awaitingPosts r post hpost := by
    obtain ⟨author, text, rfl, hauthor, d, password, htext, -⟩ := h.awaitingPosts r post hpost
    simp only [List.mem_append, List.mem_singleton, not_or]
    exact ⟨⟨hauthor.1, by decide⟩, hposted d text htext⟩

/-- A new user. -/
theorem keptAccounts_putUser (s : Server) (username : JString) (u : User) :
    KeptAccounts s (s.putUser username u) :=
  ⟨Nat.le_succ _, fun _ h ↦ congrArg User.username (if_neg h.ne),
    fun _ h ↦ congrArg User.password (if_neg h.ne)⟩

theorem VouchedStore.putUser (h : VouchedStore T s) {username password : JString}
    (hname : IsName username) (haccount : T.account username password) (birthday : JString) :
    VouchedStore T (s.putUser username (User.new username password birthday)) := by
  have hsame := keptAccounts_putUser s username (User.new username password birthday)
  have huser : ∀ r, (s.putUser username (User.new username password birthday)).user r =
      if r = s.nextUser then User.new username password birthday else s.user r := fun _ ↦ rfl
  refine ⟨fun r ↦ ?_, fun r ↦ ?_, fun r hr ↦ ?_, fun r hr ↦ ?_⟩
  · rw [huser]
    split
    · exact hname
    · exact h.username r
  · rw [huser]
    split
    · exact fun post hpost ↦ absurd hpost List.not_mem_nil
    · exact h.awaitingPosts r
  · obtain ⟨k, hk⟩ := hr
    rcases ConcurrentMap.mem_put.1 hk with ⟨-, rfl⟩ | ⟨-, hold⟩
    · refine ⟨Nat.lt_succ_self _, ?_⟩
      rw [huser, if_pos rfl]
      exact haccount
    · exact (h.registered r ⟨k, hold⟩).mono hsame
  · rcases eq_or_ne r s.nextUser with rfl | hne
    · rw [huser, if_pos rfl] at hr
      exact absurd rfl hr
    · rw [huser, if_neg hne] at hr ⊢
      exact (h.session r hr).mono hsame

/-- A text is queued. -/
theorem VouchedStore.addAwaitingPost (h : VouchedStore T s) (r : UserRef) {author text : JString}
    (hauthor : IsName author) (htext : T.Posted author text) :
    VouchedStore T (s.modifyUser r (User.addAwaitingPost (author ++ [space] ++ text))) := by
  have hsame := keptAccounts_modifyUser s r
    (f := User.addAwaitingPost (author ++ [space] ++ text)) (fun _ ↦ rfl) fun _ ↦ rfl
  refine ⟨fun r' ↦ ?_, fun r' ↦ ?_, fun r' hr ↦ (h.registered r' hr).mono hsame, fun r' hr ↦ ?_⟩
  · rw [Server.modifyUser_user]
    split
    · exact h.username r
    · exact h.username r'
  · rw [Server.modifyUser_user]
    split
    · intro post hpost
      rcases List.mem_append.1 hpost with hold | hnew
      · exact h.awaitingPosts r post hold
      · exact ⟨author, text, List.mem_singleton.1 hnew, hauthor, htext⟩
    · exact h.awaitingPosts r'
  · have hconn : ((s.modifyUser r
        (User.addAwaitingPost (author ++ [space] ++ text))).user r').connId =
          (s.user r').connId := by
      rw [Server.modifyUser_user]
      split
      case isTrue heq =>
        rw [heq]
        rfl
      case isFalse => rfl
    rw [hconn] at hr ⊢
    exact (h.session r' hr).mono hsame

/-- A connection that has given the password is stored. -/
theorem VouchedStore.setConnId (h : VouchedStore T s) (howned : OwnedBy T s c r) :
    VouchedStore T (s.modifyUser r (User.setConnId c)) := by
  have hsame := keptAccounts_modifyUser s r (f := User.setConnId c) (fun _ ↦ rfl) fun _ ↦ rfl
  refine ⟨fun r' ↦ ?_, fun r' ↦ ?_, fun r' hr ↦ (h.registered r' hr).mono hsame, fun r' hr ↦ ?_⟩
  · rw [Server.modifyUser_user]
    split
    · exact h.username r
    · exact h.username r'
  · rw [Server.modifyUser_user]
    split
    · exact h.awaitingPosts r
    · exact h.awaitingPosts r'
  · rcases eq_or_ne r' r with rfl | hne
    · have hconn : ((s.modifyUser r' (User.setConnId c)).user r').connId = c := by
        rw [Server.modifyUser_user, if_pos rfl]
        rfl
      rw [hconn]
      exact howned.mono hsame
    · have hconn : (s.modifyUser r (User.setConnId c)).user r' = s.user r' := if_neg hne
      rw [hconn] at hr ⊢
      exact (h.session r' hr).mono hsame

/-- **A frame that is carried out in one step only changes users**, and of these nothing that is
vouched for. -/
theorem exists_dispatch_user (env : Surroundings) (c : ℤ) (s : Server) (f : WholeFrame) :
    ∃ user : UserRef → User, (dispatch env c s f.optCode f.text).server = { s with user := user } ∧
      ∀ r, (user r).username = (s.user r).username ∧ (user r).password = (s.user r).password ∧
        (user r).connId = (s.user r).connId ∧
          (user r).awaitingPosts = (s.user r).awaitingPosts := by
  have hwhole : f.optCode ≠ str "01" ∧ f.optCode ≠ str "02" ∧ f.optCode ≠ str "05" := by
    simpa [steppedOpCodes] using f.whole
  obtain ⟨h₁, h₂, h₅⟩ := hwhole
  have hsame : ∀ o : Outcome, o.server = s → ∃ user : UserRef → User,
      o.server = { s with user := user } ∧
        ∀ r, (user r).username = (s.user r).username ∧ (user r).password = (s.user r).password ∧
          (user r).connId = (s.user r).connId ∧
            (user r).awaitingPosts = (s.user r).awaitingPosts :=
    fun o ho ↦ ⟨s.user, ho, fun _ ↦ ⟨rfl, rfl, rfl, rfl⟩⟩
  rw [SplNet.dispatch, if_neg h₁, if_neg h₂, if_neg h₅]
  split_ifs with h₃ h₄ h₆ h₇ h₈ h₁₂
  · rcases hfind : env.findActive s c with - | r
    · exact hsame _ (processLogout_refusal hfind).server_eq
    · rw [processLogout_of_session hfind]
      refine ⟨(s.modifyUser r User.deActivate).user, rfl, ?_⟩
      exact (sameTexts_modifyUser s r (f := User.deActivate) fun _ ↦ ⟨rfl, rfl, rfl, rfl⟩).user
  · by_cases hfollow : ∃ text my other, FollowAccepts env c s f.text text my other
    · obtain ⟨text, my, other, hf⟩ := hfollow
      rw [processFollow_of_accepts hf]
      refine ⟨(addFollow s my other).user, rfl, fun r ↦ ?_⟩
      rw [addFollow_eq_except]
      exact ⟨rfl, rfl, rfl, rfl⟩
    · by_cases hunfollow : ∃ text my other, UnfollowAccepts env c s f.text text my other
      · obtain ⟨text, my, other, hf⟩ := hunfollow
        rw [processFollow_of_unfollow hf]
        refine ⟨(dropFollow s my other).user, rfl, fun r ↦ ?_⟩
        rw [dropFollow_eq_except]
        exact ⟨rfl, rfl, rfl, rfl⟩
      · by_cases hsilent : FollowSilent env c s f.text
        · rw [processFollow_of_silent hsilent]
          exact hsame _ rfl
        · simp only [not_exists] at hfollow hunfollow
          exact hsame _ (processFollow_refusal hfollow hunfollow hsilent).server_eq
  · exact hsame _ (processPm_server ..)
  · exact hsame _ (processLogstat_server ..)
  · exact hsame _ (processStat_server ..)
  · by_cases hblock : ∃ my other, BlockAccepts env c s f.text my other
    · obtain ⟨my, other, hb⟩ := hblock
      rw [processBlock_of_accepts hb]
      refine ⟨(blockUser s my other).user, blockUser_eq_user s my other, fun r ↦ ?_⟩
      rw [blockUser_eq_except]
      exact ⟨rfl, rfl, rfl, rfl⟩
    · simp only [not_exists] at hblock
      exact hsame _ (processBlock_refusal hblock).server_eq
  · exact hsame _ rfl

end Store

/-! ### Tasks and answers -/

section Tasks

variable (T : TypedTexts)

/-- Names of authors, one behind the other, each of whom has posted a text. -/
def AuthorNames (names : JString) : Prop :=
  ∃ authors : List JString, names = authors.flatten ∧
    ∀ author ∈ authors, IsName author ∧ ∃ text, T.Posted author text

/-- The replay loop holds the authors of the entries so far, and an entry. -/
structure VouchedReplay (loop : ReplayLoop) : Prop where
  senderName : AuthorNames T loop.senderName
  nextItem : ∀ post ∈ loop.nextItem, QueueEntry T post

/-- The loops of POST hold the author and a text of the author. -/
structure VouchedPost (s : Server) (my : UserRef) (message : JString) : Prop where
  lt : my < s.nextUser
  posted : T.Posted (s.user my).username message

/-- The text is one of the author the name ends in: the name of a replayed author has those of the
authors of the posts before it in front, and nothing else. -/
def SaidBy (name text : JString) : Prop :=
  ∃ before author, name = before ++ author ∧ AuthorNames T before ∧ T.Posted author text

/-- The task of a connection comes from a request of its client. -/
def HandlerTask.Vouched (s : Server) (c : ℤ) : HandlerTask → Prop
  | .frame f => IsClientRequest (f.optCode ++ f.text)
  | .answer msg => msg ∈ [str "1101", str "1102", str "1105", str "1005"]
  | .registerScan username password _ | .registerPut username password _ =>
    IsName username ∧ T.account username password
  | .loginScan _ password _ => T.login c password
  | .loginCheck _ password _ r => T.login c password ∧ KnownUser T s r
  | .loginPut _ r | .loginActivate r | .loginSetConnId r => OwnedBy T s c r
  | .replayNext loop => VouchedReplay T loop
  | .replayConnId content loop | .replaySend _ content loop =>
    SaidBy T loop.senderName content ∧ VouchedReplay T loop
  | .postFind message => T.post c message
  | .postMentions my message | .postIterator my message _ => VouchedPost T s my message
  | .postNext loop | .postTest _ loop | .postAppend _ loop | .postConnId _ loop
  | .postSend _ _ loop => VouchedPost T s loop.myUser loop.message
  | _ => True

/-- The answer notifies of posts of their authors only. -/
def Client.Answer.Vouched : Answer → Prop
  | .notification .post author content => SaidBy T author.1 content.1
  | _ => True

/-- What a step of a handler leaves, holds and says. -/
structure VouchedStep (s : Server) (c : ℤ) (task : HandlerTask) (t : TaskStep) : Prop where
  server : VouchedStore T t.server
  kept : KeptAccounts s t.server
  connections : t.server.connectionsMap = s.connectionsMap ∧
    t.server.connectionId = s.connectionId
  goesOn : t.task.Vouched T t.server c
  sent : ∀ d m, (d, m) ∈ t.sent → (∃ a : Answer, a.Vouched T ∧ m = a.message) ∨
    d = c ∧ ∃ f, task = .frame f ∧ f.optCode = str "07"

end Tasks

section Steps

variable {T : TypedTexts} {env : Surroundings} {c : ℤ} {s s' : Server}

theorem VouchedPost.mono {my : UserRef} {message : JString} (h : VouchedPost T s my message)
    (hs : KeptAccounts s s') : VouchedPost T s' my message where
  lt := Nat.lt_of_lt_of_le h.lt hs.nextUser
  posted := by
    rw [hs.username my h.lt]
    exact h.posted

/-- What a handler holds stays vouched for when another one makes a step. -/
theorem HandlerTask.Vouched.mono {task : HandlerTask} (h : task.Vouched T s c)
    (hs : KeptAccounts s s') : task.Vouched T s' c := by
  cases task with
  | loginCheck => exact ⟨h.1, h.2.mono hs⟩
  | loginPut => exact OwnedBy.mono h hs
  | loginActivate => exact OwnedBy.mono h hs
  | loginSetConnId => exact OwnedBy.mono h hs
  | postMentions => exact VouchedPost.mono h hs
  | postIterator => exact VouchedPost.mono h hs
  | postNext => exact VouchedPost.mono h hs
  | postTest => exact VouchedPost.mono h hs
  | postAppend => exact VouchedPost.mono h hs
  | postConnId => exact VouchedPost.mono h hs
  | postSend => exact VouchedPost.mono h hs
  | _ => exact h

/-! ### What is said -/

theorem AuthorNames.nil : AuthorNames T [] := ⟨[], rfl, fun _ h ↦ absurd h List.not_mem_nil⟩

theorem AuthorNames.append {names author : JString} (h : AuthorNames T names)
    (hauthor : IsName author) (hposted : ∃ text, T.Posted author text) :
    AuthorNames T (names ++ author) := by
  obtain ⟨authors, rfl, hauthors⟩ := h
  refine ⟨authors ++ [author], by simp, List.forall_mem_append.2 ⟨hauthors, ?_⟩⟩
  exact List.forall_mem_singleton.2 ⟨hauthor, hposted⟩

theorem AuthorNames.nul_not_mem {names : JString} (h : AuthorNames T names) : nul ∉ names := by
  obtain ⟨authors, rfl, hauthors⟩ := h
  intro hmem
  obtain ⟨author, hauthor, hnul⟩ := List.mem_flatten.1 hmem
  exact (hauthors author hauthor).1.1 hnul

/-- An answer to another request than POST and LOGIN does not notify of a post. -/
theorem RightAnswer.vouched {op text : JString} {d : ℤ} {a : Answer}
    (h : RightAnswer env c s op text d a) (hop : op ∉ [str "02", str "05"]) : a.Vouched T := by
  cases h with
  | post => exact absurd (by decide) hop
  | replay => exact absurd (by decide) hop
  | _ => trivial

/-- A message without a notification of a post. -/
theorem exists_answer_of_reply {op : JString} (hlen : op.length = 2)
    (hascii : ∀ c ∈ op, c.toNat < 0x80) {msg : JString}
    (hmsg : msg = str "11" ++ op ∨ msg = str "10" ++ op ∧ op ∉ [str "04", str "07", str "08"]) :
    ∃ a : Answer, a.Vouched T ∧ msg = a.message := by
  rcases hmsg with rfl | ⟨rfl, hplain⟩
  · exact ⟨.error ⟨op, hlen, hascii⟩, trivial, rfl⟩
  · exact ⟨.ack ⟨op, hlen, hascii⟩ hplain, trivial, rfl⟩

/-- What a frame says that is carried out in one step. -/
theorem dispatch_sent (hs : VouchedStore T s) (hposted : ∀ c t, T.post c t → nul ∉ t)
    {f : WholeFrame} (hclient : IsClientRequest (f.optCode ++ f.text)) {d : ℤ} {m : JString}
    (hm : (d, m) ∈ (dispatch env c s f.optCode f.text).sent) :
    (∃ a : Answer, a.Vouched T ∧ m = a.message) ∨ d = c ∧ f.optCode = str "07" := by
  have hwhole : f.optCode ≠ str "01" ∧ f.optCode ≠ str "02" ∧ f.optCode ≠ str "05" := by
    simpa [steppedOpCodes] using f.whole
  obtain ⟨h₁, h₂, h₅⟩ := hwhole
  have hreply : ∀ {op msg : JString}, op ∈ [str "03", str "08", str "12"] →
      (msg = str "11" ++ op ∨ msg = str "10" ++ op ∧ op ≠ str "08") → m = msg →
        ∃ a : Answer, a.Vouched T ∧ m = a.message := by
    intro op msg hop hmsg heq
    subst heq
    have hall : ∀ op ∈ [str "03", str "08", str "12"], op.length = 2 ∧
        (∀ c ∈ op, c.toNat < 0x80) ∧
          (op ≠ str "08" → op ∉ [str "04", str "07", str "08"]) := by decide
    obtain ⟨hlen, hascii, hplain⟩ := hall op hop
    exact exists_answer_of_reply hlen hascii (hmsg.imp_right fun h ↦ ⟨h.1, hplain h.2⟩)
  have hrefusal : ∀ {op : JString} {o : Outcome}, op ∈ [str "03", str "08", str "12"] →
      Refusal c s op o → (d, m) ∈ o.sent → ∃ a : Answer, a.Vouched T ∧ m = a.message := by
    intro op o hop h hm
    rcases h.sent_eq with hsent | hsent
    · rw [hsent] at hm
      exact hreply hop (.inl rfl) (Server.mem_delivery.1 hm).2.1
    · rw [hsent] at hm
      exact absurd hm List.not_mem_nil
  rw [dispatch, if_neg h₁, if_neg h₂, if_neg h₅] at hm
  split_ifs at hm with h₃ h₄ h₆ h₇ h₈ h₁₂
  · left
    rcases hfind : env.findActive s c with - | r
    · exact hrefusal (by decide) (processLogout_refusal hfind) hm
    · rw [processLogout_of_session hfind] at hm
      have hack : str "1003" = str "11" ++ str "03" ∨
          str "1003" = str "10" ++ str "03" ∧ str "03" ≠ str "08" := by decide
      exact hreply (by decide) hack (Server.mem_delivery.1 hm).2.1
  · left
    rw [h₄] at hclient
    obtain ⟨body, htext⟩ := hclient.text_eq (by decide)
    rw [htext] at hm
    obtain ⟨a, ha, hmsg⟩ := rightAnswer_follow body hm
    exact ⟨a, ha.vouched (by decide), hmsg⟩
  · left
    rw [h₆] at hclient
    obtain ⟨body, htext⟩ := hclient.text_eq (by decide)
    rw [htext] at hm
    obtain ⟨a, ha, hmsg⟩ := rightAnswer_pm (hs.nulFreeStore hposted) body hm
    exact ⟨a, ha.vouched (by decide), hmsg⟩
  · exact .inr ⟨logstat_sent hm, h₇⟩
  · left
    rw [processStat] at hm
    split at hm
    · have hsend : Refusal c s (str "08") (s.send c (str "1108")) := Refusal.of_send (by decide)
      exact hrefusal (by decide) hsend hm
    · exact absurd hm List.not_mem_nil
  · left
    by_cases hblock : ∃ my other, BlockAccepts env c s f.text my other
    · obtain ⟨my, other, hb⟩ := hblock
      rw [processBlock_of_accepts hb] at hm
      have hack : str "1012" = str "11" ++ str "12" ∨
          str "1012" = str "10" ++ str "12" ∧ str "12" ≠ str "08" := by decide
      exact hreply (by decide) hack (Server.mem_delivery.1 hm).2.1
    · simp only [not_exists] at hblock
      exact hrefusal (by decide) (processBlock_refusal hblock) hm
  · exact absurd hm List.not_mem_nil

/-! ### Steps -/

theorem KeptAccounts.refl (s : Server) : KeptAccounts s s := (SameTexts.refl s).keptAccounts

theorem VouchedStep.of_quiet {task task' : HandlerTask} (hs : VouchedStore T s')
    (hkept : KeptAccounts s s') (hconnections : s'.connectionsMap = s.connectionsMap ∧
      s'.connectionId = s.connectionId) (h : task'.Vouched T s' c) :
    VouchedStep T s c task ⟨s', task', []⟩ :=
  ⟨hs, hkept, hconnections, h, fun _ _ hm ↦ absurd hm List.not_mem_nil⟩

theorem VouchedStep.of_goOn {task task' : HandlerTask} (hs : VouchedStore T s)
    (h : task'.Vouched T s c) : VouchedStep T s c task (.goOn s task') :=
  .of_quiet hs (.refl s) ⟨rfl, rfl⟩ h

/-- An answer is sent. -/
theorem VouchedStep.of_send {task task' : HandlerTask} {d : ℤ} {msg : JString}
    (hs : VouchedStore T s) (hmsg : ∃ a : Answer, a.Vouched T ∧ msg = a.message)
    (h : task'.Vouched T s c) : VouchedStep T s c task (.send s d msg task') := by
  refine ⟨hs, .refl s, ⟨rfl, rfl⟩, ?_, fun e m hm ↦ .inl ?_⟩
  · rw [TaskStep.send]
    split
    · exact h
    · trivial
  · have hdelivery := (send_sent_sublist s d msg).subset hm
    rw [(Server.mem_delivery.1 hdelivery).2.1]
    exact hmsg

/-- The notification of a post. -/
theorem exists_answer_of_post (hposted : ∀ c t, T.post c t → nul ∉ t) {author text : JString}
    (hauthor : nul ∉ author) (htext : SaidBy T author text) :
    ∃ a : Answer, a.Vouched T ∧ notification (str "091") author text = a.message := by
  have hnul : nul ∉ text := by
    obtain ⟨_, _, -, -, d, _, hpost, -⟩ := htext
    exact hposted d text hpost
  exact ⟨.notification .post ⟨author, hauthor⟩ ⟨text, hnul⟩, htext, rfl⟩

/-- The replay loop takes an entry apart. -/
theorem vouched_replayEntry (hs : VouchedStore T s) {loop : ReplayLoop} {post : JString}
    (hloop : VouchedReplay T loop) (hpost : QueueEntry T post) (task : HandlerTask) :
    VouchedStep T s c task (replayEntry s loop post) := by
  obtain ⟨author, text, rfl, hauthor, htext⟩ := hpost
  have hblank : space ∈ author ++ [space] ++ text := by simp
  -- the scan stops at the blank behind the author
  have htake : (author ++ [space] ++ text).takeWhile (· ≠ space) = author := by
    rw [List.append_assoc, List.takeWhile_append_of_pos, List.singleton_append,
      List.takeWhile_cons_of_neg (by simp), List.append_nil]
    exact fun a ha ↦ decide_eq_true fun h ↦ hauthor.2 (h ▸ ha)
  have hdrop : ((author ++ [space] ++ text).dropWhile (· ≠ space)).tail = text := by
    rw [List.append_assoc, List.dropWhile_append_of_pos, List.singleton_append,
      List.dropWhile_cons_of_neg (by simp), List.tail_cons]
    exact fun a ha ↦ decide_eq_true fun h ↦ hauthor.2 (h ▸ ha)
  have hcontent := substringFrom_of_mem_space hblank
  rw [htake, hdrop] at hcontent
  rw [replayEntry, replayScan_eq hblank, htake]
  dsimp only
  rw [Nat.zero_add, hcontent]
  refine .of_goOn hs ⟨⟨loop.senderName, author, rfl, hloop.senderName, htext⟩, ?_, ?_⟩
  · exact hloop.senderName.append hauthor ⟨text, htext⟩
  · intro next hnext
    exact hs.awaitingPosts loop.user next (List.mem_of_getElem? hnext)

/-- **The step lemma**: what a handler leaves in the store, holds and says is vouched for. The
connections are numbered from `0` on. -/
theorem vouched_taskStep (hposted : ∀ c t, T.post c t → nul ∉ t) (hs : VouchedStore T s)
    {task : HandlerTask} (htask : task.Vouched T s c) (hc : task ≠ .idle → c ≠ -1) :
    VouchedStep T s c task (taskStep env c s task) := by
  have hconst : ∀ msg ∈ [str "1101", str "1102", str "1105", str "1005", str "1001", str "1002"],
      ∃ a : Answer, a.Vouched T ∧ msg = a.message := by
    intro msg hmsg
    have hall : ∀ msg ∈ [str "1101", str "1102", str "1105", str "1005", str "1001", str "1002"],
        ∃ op ∈ [str "01", str "02", str "05"], msg = str "11" ++ op ∨ msg = str "10" ++ op := by
      decide
    have hops : ∀ op ∈ [str "01", str "02", str "05"], op.length = 2 ∧
        (∀ c ∈ op, c.toNat < 0x80) ∧ op ∉ [str "04", str "07", str "08"] := by decide
    obtain ⟨op, hop, heq⟩ := hall msg hmsg
    obtain ⟨hlen, hascii, hplain⟩ := hops op hop
    exact exists_answer_of_reply hlen hascii (heq.imp_right fun h ↦ ⟨h, hplain⟩)
  cases task with
  | idle => exact .of_goOn hs trivial
  | frame f =>
    obtain ⟨user, hserver, huser⟩ := exists_dispatch_user env c s f
    have hsame : SameTexts s (taskStep env c s (.frame f)).server := by
      show SameTexts s (dispatch env c s f.optCode f.text).server
      rw [hserver]
      exact ⟨rfl, rfl, huser⟩
    have hconnections : (dispatch env c s f.optCode f.text).server.connectionsMap =
        s.connectionsMap ∧
          (dispatch env c s f.optCode f.text).server.connectionId = s.connectionId := by
      rw [hserver]
      exact ⟨rfl, rfl⟩
    refine ⟨hs.of_same hsame, hsame.keptAccounts, hconnections, trivial, fun d m hm ↦ ?_⟩
    exact (dispatch_sent hs hposted htask hm).imp_right fun h ↦ ⟨h.1, f, rfl, h.2⟩
  | answer msg =>
    exact .of_send hs (hconst msg (List.mem_append_left [str "1001", str "1002"] htask)) trivial
  | registerScan username password birthday =>
    rw [taskStep]
    split
    · exact .of_goOn hs (show _ ∈ _ by decide)
    · exact .of_goOn hs htask
  | registerPut username password birthday =>
    exact .of_quiet (hs.putUser htask.1 htask.2 birthday) (keptAccounts_putUser s _ _)
      ⟨rfl, rfl⟩ trivial
  | registerReply username r => exact .of_send hs (hconst _ (by decide)) trivial
  | loginScan username password captcha =>
    rw [taskStep]
    split
    case h_1 r hfind =>
      exact .of_goOn hs ⟨htask, hs.registered r (Surroundings.findContaining_eq_some hfind).1⟩
    case h_2 => exact .of_goOn hs (show _ ∈ _ by decide)
  | loginCheck username password captcha r =>
    rw [taskStep]
    split
    case isTrue h =>
      -- the password in the store is the one the connection gave
      exact .of_goOn hs ⟨htask.2, h.1 ▸ htask.1⟩
    case isFalse => exact .of_goOn hs (show _ ∈ _ by decide)
  | loginPut username r =>
    have hsame : SameTexts s (s.putActiveUser username r) :=
      ⟨rfl, rfl, fun _ ↦ ⟨rfl, rfl, rfl, rfl⟩⟩
    exact .of_quiet (hs.of_same hsame) hsame.keptAccounts ⟨rfl, rfl⟩
      (OwnedBy.mono htask hsame.keptAccounts)
  | loginActivate r =>
    have hsame := sameTexts_modifyUser s r (f := User.activate) fun _ ↦ ⟨rfl, rfl, rfl, rfl⟩
    exact .of_quiet (hs.of_same hsame) hsame.keptAccounts ⟨rfl, rfl⟩
      (OwnedBy.mono htask hsame.keptAccounts)
  | loginSetConnId r =>
    exact .of_quiet (hs.setConnId htask)
      (keptAccounts_modifyUser s r (fun _ ↦ rfl) fun _ ↦ rfl) ⟨rfl, rfl⟩ trivial
  | loginReply r => exact .of_send hs (hconst _ (by decide)) trivial
  | replayTest r =>
    rw [taskStep]
    split
    · exact .of_goOn hs trivial
    · exact .of_goOn hs trivial
  | replayIterator r =>
    refine .of_goOn hs ⟨.nil, fun post hpost ↦ ?_⟩
    exact hs.awaitingPosts r post (List.mem_of_getElem? hpost)
  | replayNext loop =>
    rw [taskStep]
    split
    case h_1 post hpost => exact vouched_replayEntry hs htask (htask.nextItem post hpost) _
    case h_2 => exact .of_goOn hs trivial
  | replayConnId content loop => exact .of_goOn hs htask
  | replaySend connId content loop =>
    exact .of_send hs (exists_answer_of_post hposted htask.2.senderName.nul_not_mem htask.1) htask.2
  | postFind message =>
    rw [taskStep]
    split
    case h_1 my hfind =>
      -- the connection of the user that is found is this one, so it has given the password
      have hconn := (Surroundings.findActive_eq_some hfind).2
      have howned := hs.session my (hconn ▸ hc (by simp))
      rw [hconn] at howned
      exact .of_goOn hs ⟨howned.lt, c, _, htask, howned.login, howned.account⟩
    case h_2 => exact .of_goOn hs (show _ ∈ _ by decide)
  | postMentions my message => exact .of_goOn hs htask
  | postIterator my message others => exact .of_goOn hs htask
  | postNext loop =>
    rw [taskStep, postVisit]
    split
    · split
      · exact .of_goOn hs htask
      · exact .of_goOn hs htask
    · exact .of_goOn hs htask
    · exact .of_goOn hs (show _ ∈ _ by decide)
  | postTest r loop =>
    rw [taskStep]
    split
    · exact .of_goOn hs htask
    · exact .of_goOn hs htask
  | postAppend r loop =>
    have hkept := keptAccounts_modifyUser s r
      (f := User.addAwaitingPost ((s.user loop.myUser).username ++ [space] ++ loop.message))
      (fun _ ↦ rfl) fun _ ↦ rfl
    exact .of_quiet (hs.addAwaitingPost r (hs.username loop.myUser) htask.posted) hkept
      ⟨rfl, rfl⟩ (VouchedPost.mono htask hkept)
  | postConnId r loop => exact .of_goOn hs htask
  | postSend connId r loop =>
    exact .of_send hs (exists_answer_of_post hposted (hs.username loop.myUser).1
      ⟨[], _, rfl, .nil, htask.posted⟩) htask

end Steps

/-! ### The first task of a frame -/

/-- The commands and their opcodes. -/
def commandOpcodes : List (String × String) :=
  [("REGISTER", "01"), ("LOGIN", "02"), ("LOGOUT", "03"), ("FOLLOW", "04"), ("POST", "05"),
    ("PM", "06"), ("LOGSTAT", "07"), ("STAT", "08"), ("BLOCK", "12")]

/-- Each command has an opcode of its own. -/
theorem opCode_eq_of_take {line : List UInt8} {command op : String}
    (hcommand : (command, op) ∈ commandOpcodes) (h : (encodedLine line).take 2 = ascii op) :
    opCode line = ascii command := by
  have hown : ∀ x ∈ commandOpcodes, ∀ y ∈ commandOpcodes, ascii x.2 = ascii y.2 → x.1 = y.1 := by
    decide
  have hlen : ∀ x ∈ commandOpcodes, (ascii x.2).length = 2 := by decide
  have hbranch : ∀ command' op' rest, (command', op') ∈ commandOpcodes →
      opCode line = ascii command' → (ascii op' ++ rest).take 2 = ascii op →
        opCode line = ascii command := by
    intro command' op' rest hmem hline htake
    rw [List.take_left' (hlen _ hmem)] at htake
    exact hline.trans (congrArg ascii (hown _ hmem _ hcommand htake))
  rw [encodedLine] at h
  simp only [List.append_assoc] at h
  split at h
  case isTrue hop => exact hbranch "REGISTER" "01" _ (by decide) hop h
  split at h
  case isTrue hop => exact hbranch "LOGIN" "02" _ (by decide) hop h
  split at h
  case isTrue hop => exact hbranch "LOGOUT" "03" _ (by decide) hop h
  split at h
  case isTrue hop => exact hbranch "FOLLOW" "04" _ (by decide) hop h
  split at h
  case isTrue hop => exact hbranch "POST" "05" _ (by decide) hop h
  split at h
  case isTrue hop => exact hbranch "PM" "06" _ (by decide) hop h
  split at h
  case isTrue hop => exact hbranch "LOGSTAT" "07" _ (by decide) hop h
  split at h
  case isTrue hop => exact hbranch "STAT" "08" _ (by decide) hop h
  split at h
  case isTrue hop => exact hbranch "BLOCK" "12" _ (by decide) hop h
  case isFalse =>
    -- nothing is sent
    have hnil := congrArg List.length h
    rw [hlen _ hcommand] at hnil
    exact absurd hnil (by simp)

/-- The arguments of REGISTER have no blank: `Encoder` makes separators of them. -/
theorem blank_not_mem_of_register {line frame : List UInt8}
    (h : encodedLine line = frame ++ [Decoder.semicolon]) (hop : ascii "01" <+: frame) :
    blank ∉ frame := by
  have hregister : opCode line = ascii "REGISTER" := by
    have htake : (encodedLine line).take 2 = ascii "01" := by
      obtain ⟨rest, rfl⟩ := hop
      rw [h, List.append_assoc]
      exact List.take_left' rfl
    exact opCode_eq_of_take (by decide) htake
  rw [encodedLine, if_pos hregister] at h
  obtain ⟨rfl, -⟩ := List.append_inj' h rfl
  simp only [List.mem_append, not_or]
  refine ⟨⟨by decide, fun hmem ↦ ?_⟩, by decide⟩
  obtain ⟨b, -, hb⟩ := List.mem_map.1 hmem
  split at hb
  · exact absurd hb (by decide)
  · rename_i hne
    exact hne hb

/-- A frame starts with the opcode of its command. -/
theorem exists_opcode {line frame : List UInt8}
    (h : encodedLine line = frame ++ [Decoder.semicolon]) :
    ∃ opCode ∈ ["01", "02", "03", "07", "04", "05", "06", "08", "12"], ascii opCode <+: frame := by
  have hcases := encodedAs line
  rw [h] at hcases
  generalize hbytes : frame ++ [Decoder.semicolon] = bytes at hcases
  cases hcases with
  | unknown => exact absurd hbytes (by simp)
  | plain opCode body hop =>
    obtain ⟨rfl, -⟩ := List.append_inj' hbytes rfl
    exact ⟨opCode, List.mem_append_left ["04", "05", "06", "08", "12"] hop,
      List.prefix_append _ _⟩
  | terminated opCode body hop =>
    obtain ⟨rfl, -⟩ := List.append_inj' hbytes rfl
    exact ⟨opCode, List.mem_append_right ["01", "02", "03", "07"] hop, List.prefix_append _ _⟩

/-- The names in a request of the client are words. -/
theorem IsClientRequest.isName {text name : JString} (h : IsClientRequest (str "01" ++ text))
    (hname : name ∈ split text nul) : IsName name := by
  obtain ⟨line, frame, -, -, hframe, hmessage⟩ := h
  refine ⟨not_mem_of_mem_split hname, fun hspace ↦ ?_⟩
  obtain ⟨opCode, hmem, hop⟩ := exists_opcode hframe
  have hall : ∀ opCode ∈ ["01", "02", "03", "07", "04", "05", "06", "08", "12"],
      (∀ c ∈ ascii opCode, c < 0x80) ∧ (ascii opCode).length = 2 ∧
        ((ascii opCode).map UInt8.toUInt16 = str "01" → opCode = "01") := by decide
  obtain ⟨hascii, hlen, heq⟩ := hall opCode hmem
  obtain ⟨body, rfl⟩ := hop
  have htext := hmessage
  rw [utf8Decode_ascii_append hascii] at htext
  obtain rfl := heq (List.append_inj htext (by rw [List.length_map, hlen]; rfl)).1.symm
  have hop : ascii "01" <+: ascii "01" ++ body := List.prefix_append _ _
  have hblank := not_mem_utf8Decode (b := blank) (by decide) (blank_not_mem_of_register hframe hop)
  rw [← hmessage] at hblank
  exact hblank (List.mem_append_right _ (subset_of_mem_split hname hspace))

/-- **What a request of the client begins with is vouched for**, if its texts have been typed. -/
theorem startTask_vouched {T : TypedTexts} {s : Server} {c : ℤ} {message : JString}
    (hclient : IsClientRequest message)
    (haccount : ∀ text username password rest, message = str "01" ++ text →
      split text nul = username :: password :: rest → T.account username password)
    (hlogin : ∀ text username password rest, message = str "02" ++ text →
      split text nul = username :: password :: rest → T.login c password)
    (hposted : ∀ text, message = str "05" ++ (text ++ [nul]) → T.post c text) :
    (startTask message).Vouched T s c := by
  rw [startTask]
  split
  case h_1 optCode text hop htext =>
    obtain ⟨hlen, hdrop⟩ := (substringFrom_eq_ok_iff (n := 2)).1 htext
    have htake : optCode = message.take 2 := by
      rw [substring, if_pos ⟨by omega, by omega, by omega⟩] at hop
      exact (Except.ok.inj hop).symm
    obtain rfl : message = optCode ++ text := by
      rw [htake, hdrop, List.take_append_drop]
    clear hop htext hlen hdrop htake
    split_ifs with h₁ h₂ h₅
    · subst h₁
      split
      case h_1 username password birthday rest hargs =>
        exact ⟨hclient.isName (hargs ▸ List.mem_cons_self), haccount text _ _ _ rfl hargs⟩
      case h_2 => trivial
    · subst h₂
      split
      case h_1 username password captcha rest hargs => exact hlogin text _ _ _ rfl hargs
      case h_2 => trivial
    · subst h₅
      obtain ⟨body, rfl⟩ := hclient.text_eq (by decide)
      rw [substring_dropLast, if_neg (by simp), List.dropLast_concat]
      exact hposted body.1 rfl
    · exact hclient
  case h_2 => trivial

end SplNet
