import SplNet.Foundations.ExclusiveGrant
import SplNet.Srv.HandlerInvariant

/-!
# Concurrent REGISTER and LOGIN

REGISTER looks for its name before it stores the new user, and LOGIN looks at the flag of the user
before it sets it. Neither holds a lock in between, so two handlers can both find a name free, or a
user inactive, and both be acknowledged (`racing_accounts`).

A username is a resource that `put` claims and the reply 1001 acknowledges; a user is one that
`activate` claims, the reply 1002 acknowledges and a LOGOUT releases. **In a run whose steps find at
the update what they saw at the check** (`Unraced`), a username is acknowledged once, an
acknowledged registration is never overwritten, and two acknowledged LOGINs of a user have an
acknowledged LOGOUT of that user between them (`atomic_of_unraced`).
-/

namespace SplNet

open Java LabelledMachine

/-! ### The law -/

/-- The step acknowledges the REGISTER that stored this user under this name. -/
def AcksRegister (username : JString) (r : UserRef) (σ : Handlers) (e : HandlerEvent) : Prop :=
  ∃ env c, e = .step env c ∧ σ.task c = .registerReply username r ∧
    (c, str "1001") ∈ (σ.stepOf env c).sent

/-- The step acknowledges a LOGIN of this user. -/
def AcksLogin (r : UserRef) (σ : Handlers) (e : HandlerEvent) : Prop :=
  ∃ env c, e = .step env c ∧ σ.task c = .loginReply r ∧ (c, str "1002") ∈ (σ.stepOf env c).sent

/-- The step carries out a LOGOUT of this user and acknowledges it. -/
def AcksLogout (r : UserRef) (σ : Handlers) (e : HandlerEvent) : Prop :=
  ∃ env c f, e = .step env c ∧ σ.task c = .frame f ∧ f.optCode = str "03" ∧
    env.findActive σ.server c = some r ∧ (c, str "1003") ∈ (σ.stepOf env c).sent

/-- **REGISTER and LOGIN are atomic** in this run. -/
structure AtomicAccounts (mode : ServerMode) (es : List HandlerEvent) : Prop where
  register_once : ∀ username r r' pre pre' e e', Occurs es pre e → Occurs es pre' e' →
    AcksRegister username r ((startedHandlers mode).stateAfter pre) e →
      AcksRegister username r' ((startedHandlers mode).stateAfter pre') e' → pre = pre'
  not_overwritten : ∀ username r pre e, Occurs es pre e →
    AcksRegister username r ((startedHandlers mode).stateAfter pre) e →
      ∀ pre', pre ++ [e] <+: pre' → pre' <+: es →
        (username, r) ∈ ((startedHandlers mode).stateAfter pre').server.usersMap.entries
  logout_between : ∀ r pre pre' e e', Occurs es pre' e' → pre ++ [e] <+: pre' →
    AcksLogin r ((startedHandlers mode).stateAfter pre) e →
      AcksLogin r ((startedHandlers mode).stateAfter pre') e' →
        ∃ pre'' e'', pre ++ [e] <+: pre'' ∧ Occurs pre' pre'' e'' ∧
          AcksLogout r ((startedHandlers mode).stateAfter pre'') e''

/-- The name the next step of a task puts. -/
def HandlerTask.puts : HandlerTask → Option JString
  | .registerPut username _ _ => some username
  | _ => none

/-- The user the next step of a task activates. -/
def HandlerTask.activates : HandlerTask → Option UserRef
  | .loginActivate r => some r
  | _ => none

/-- The user the next step of a task logs out. -/
def HandlerTask.logsOut (env : Surroundings) (connectionId : ℤ) (s : Server) :
    HandlerTask → Option UserRef
  | .frame f => if f.optCode = str "03" then env.findActive s connectionId else none
  | _ => none

/-- The step finds at its update what was seen at the check: the name it puts is no key, the user it
activates is not activated, and the user it logs out is in the middle of no LOGIN. -/
def Unraced (σ : Handlers) : HandlerEvent → Prop
  | .step env c =>
    (∀ username ∈ (σ.task c).puts, ∀ entry ∈ σ.server.usersMap.entries, entry.1 ≠ username) ∧
    (∀ r ∈ (σ.task c).activates, (σ.server.user r).isActivated = false) ∧
    ∀ r ∈ (σ.task c).logsOut env c σ.server, ∀ d ∈ σ.server.connectionsMap,
      ¬ (σ.task d).LoggingIn r
  | _ => True

instance (r : UserRef) (task : HandlerTask) : Decidable (task.LoggingIn r) :=
  inferInstanceAs (Decidable (_ ∨ _))

instance (σ : Handlers) : ∀ e, Decidable (Unraced σ e)
  | .step _ _ => inferInstanceAs (Decidable (_ ∧ _ ∧ _))
  | .accept => isTrue trivial
  | .request _ _ => isTrue trivial

/-! ### The two resources -/

section Unraced

variable {σ : Handlers} {env : Surroundings} {c : ℤ}

theorem Unraced.put (h : Unraced σ (.step env c)) {username password birthday : JString}
    (htask : σ.task c = .registerPut username password birthday) (r : UserRef) :
    (username, r) ∉ σ.server.usersMap.entries := by
  have hput := h.1
  rw [htask] at hput
  exact fun hmem ↦ hput username rfl _ hmem rfl

theorem Unraced.activate (h : Unraced σ (.step env c)) {r : UserRef}
    (htask : σ.task c = .loginActivate r) : (σ.server.user r).isActivated = false := by
  have hactivate := h.2.1
  rw [htask] at hactivate
  exact hactivate r rfl

theorem Unraced.logout (h : Unraced σ (.step env c)) {f : WholeFrame}
    (htask : σ.task c = .frame f) (hop : f.optCode = str "03") {r : UserRef}
    (hfind : env.findActive σ.server c = some r) (hσ : σ.Sound) (d : ℤ) :
    ¬ (σ.task d).LoggingIn r := by
  have hlogout := h.2.2
  rw [htask, HandlerTask.logsOut, if_pos hop] at hlogout
  intro hd
  refine hlogout r hfind d (hσ.connected d fun hidle ↦ ?_) hd
  rw [hidle] at hd
  exact hd.elim nofun nofun

end Unraced

/-- The name is a key of `UsersMap`. -/
def NameTaken (username : JString) (σ : Handlers) : Prop :=
  ∃ r, (username, r) ∈ σ.server.usersMap.entries

section Grants

variable (σ₀ : Handlers) {σ : Handlers} {e : HandlerEvent}

/-- The task of a handler after one of its steps. -/
def stepped (σ : Handlers) (c : ℤ) (task' : HandlerTask) (d : ℤ) : HandlerTask :=
  if d = c then task' else σ.task d

/-- What does not hold of the new task holds of an old one, on another connection. -/
theorem of_stepped (P : HandlerTask → Prop) {c d : ℤ} {task' : HandlerTask} (hnot : ¬ P task')
    (h : P (stepped σ c task' d)) : d ≠ c ∧ P (σ.task d) := by
  rw [stepped] at h
  split at h
  case isTrue => exact absurd h hnot
  case isFalse heq => exact ⟨heq, h⟩

theorem of_stepped_or (P : HandlerTask → Prop) {c d : ℤ} {task' : HandlerTask}
    (h : P (stepped σ c task' d)) : d = c ∨ P (σ.task d) := by
  rw [stepped] at h
  split at h
  case isTrue heq => exact Or.inl heq
  case isFalse => exact Or.inr h

section Step

variable {env : Surroundings} {c : ℤ} {task task' : HandlerTask} {s' : Server}

/-- **`put` claims a name** and the reply acknowledges it; nothing releases it. -/
theorem HandlerEffect.grantStep_register (h : HandlerEffect env c σ.server task s' task')
    (htask : σ.task c = task) (hun : Unraced σ (.step env c)) (username : JString) {ack : Prop}
    (hack : ack → task.Registering username) :
    GrantStep (NameTaken username σ) (∃ r, (username, r) ∈ s'.usersMap.entries)
      (fun d ↦ (σ.task d).Registering username)
      (fun d ↦ (stepped σ c task' d).Registering username) ack False := by
  -- a step that keeps the map, and neither begins nor ends a reply
  have hkeep : s'.usersMap = σ.server.usersMap → ¬ task'.Registering username →
      ¬ task.Registering username → GrantStep (NameTaken username σ)
        (∃ r, (username, r) ∈ s'.usersMap.entries) (fun d ↦ (σ.task d).Registering username)
        (fun d ↦ (stepped σ c task' d).Registering username) ack False := by
    intro hmap hnot' hnot
    refine .keep ?_ (fun d hd ↦ (of_stepped _ hnot' hd).2) (fun h ↦ hnot (hack h)) id
    rw [hmap]
    exact id
  cases h with
  | quiet hs hplain hlogout hplain' =>
    exact hkeep hs.usersMap (hplain'.not_registering username) (hplain.not_registering username)
  | registerPut u password birthday =>
    by_cases heq : u = username
    · subst heq
      exact .claim c (fun ⟨r, hr⟩ ↦ hun.put htask r hr) ⟨_, ConcurrentMap.mem_put_self _ _ _⟩
        (fun d hd ↦ of_stepped_or _ hd) fun h ↦ (hack h).elim nofun
    · refine .keep (fun ⟨r, hr⟩ ↦ ⟨r, ConcurrentMap.mem_put.2 (Or.inr ⟨Ne.symm heq, hr⟩)⟩)
        (fun d hd ↦ (of_stepped _ ?_ hd).2) (fun h ↦ (hack h).elim nofun) id
      rintro ⟨r, hr⟩
      injection hr with hname
      exact heq hname
  | registerReply u r =>
    by_cases heq : u = username
    · subst heq
      have hidle : ¬ HandlerTask.idle.Registering u := fun h ↦ h.elim nofun
      exact .acknowledge c ⟨r, htask⟩ id fun d hd ↦ of_stepped _ hidle hd
    · refine hkeep rfl (fun h ↦ h.elim nofun) ?_
      rintro ⟨r', hr⟩
      injection hr with hname
      exact heq hname
  | loginActivate => exact hkeep rfl (fun h ↦ h.elim nofun) fun h ↦ h.elim nofun
  | loginSetConnId => exact hkeep rfl (fun h ↦ h.elim nofun) fun h ↦ h.elim nofun
  | loginReply => exact hkeep rfl (fun h ↦ h.elim nofun) fun h ↦ h.elim nofun
  | logout => exact hkeep rfl (fun h ↦ h.elim nofun) fun h ↦ h.elim nofun

/-- A step that puts no name that is taken removes no registration. -/
theorem HandlerEffect.mem_usersMap (h : HandlerEffect env c σ.server task s' task')
    (htask : σ.task c = task) (hun : Unraced σ (.step env c)) {username : JString} {r : UserRef}
    (hmem : (username, r) ∈ σ.server.usersMap.entries) :
    (username, r) ∈ s'.usersMap.entries := by
  cases h with
  | quiet hs =>
    rw [hs.usersMap]
    exact hmem
  | registerPut =>
    refine ConcurrentMap.mem_put.2 (Or.inr ⟨?_, hmem⟩)
    rintro rfl
    exact hun.put htask r hmem
  | _ => exact hmem

/-- **`activate` claims a user**, the reply acknowledges it and a LOGOUT releases it. -/
theorem HandlerEffect.grantStep_login (h : HandlerEffect env c σ.server task s' task')
    (htask : σ.task c = task) (hσ : σ.Sound) (hun : Unraced σ (.step env c)) (r : UserRef)
    {ack release : Prop} (hack : ack → task = .loginReply r)
    (hrelease : release ↔ ∃ f, task = .frame f ∧ f.optCode = str "03" ∧
      env.findActive σ.server c = some r) :
    GrantStep ((σ.server.user r).isActivated = true) ((s'.user r).isActivated = true)
      (fun d ↦ (σ.task d).LoggingIn r) (fun d ↦ (stepped σ c task' d).LoggingIn r)
      ack release := by
  -- a step that keeps the flag, neither begins nor ends a reply and is no LOGOUT of the user
  have hkeep : ((σ.server.user r).isActivated = true → (s'.user r).isActivated = true) →
      ¬ task'.LoggingIn r → task ≠ .loginReply r → ¬ release →
        GrantStep ((σ.server.user r).isActivated = true) ((s'.user r).isActivated = true)
          (fun d ↦ (σ.task d).LoggingIn r) (fun d ↦ (stepped σ c task' d).LoggingIn r)
          ack release := fun hactive hnot' hnot hrel ↦
    .keep hactive (fun d hd ↦ (of_stepped _ hnot' hd).2) (fun h ↦ hnot (hack h)) hrel
  have hother : ∀ f r', r' ≠ r →
      ((σ.server.modifyUser r' f).user r).isActivated = (σ.server.user r).isActivated := by
    intro f r' hne
    rw [Server.modifyUser_user, if_neg (Ne.symm hne)]
  cases h with
  | quiet hs hplain hlogout hplain' =>
    refine hkeep (hs.isActivated r).trans (hplain'.not_loggingIn r)
      (fun heq ↦ hplain.not_loggingIn r (Or.inr heq)) fun hrel ↦ ?_
    obtain ⟨f, hf, hop, hfind⟩ := hrelease.1 hrel
    rw [hlogout f hf hop] at hfind
    exact absurd hfind (by simp)
  | registerPut =>
    refine hkeep (fun hactive ↦ ?_) (by simp [HandlerTask.LoggingIn]) (by simp) (by simp [hrelease])
    have hne : r ≠ σ.server.nextUser := (hσ.activated_lt r hactive).ne
    simp only [Server.putUser, if_neg hne]
    exact hactive
  | registerReply =>
    exact hkeep id (by simp [HandlerTask.LoggingIn]) (by simp) (by simp [hrelease])
  | loginActivate r' =>
    by_cases heq : r' = r
    · subst heq
      refine .claim c ?_ ?_ (fun d hd ↦ of_stepped_or _ hd) fun h ↦ absurd (hack h) (by simp)
      · rw [hun.activate htask]
        exact Bool.false_ne_true
      · rw [Server.modifyUser_user, if_pos rfl]
        rfl
    · refine hkeep (hother _ _ heq).trans ?_ (by simp) (by simp [hrelease])
      rintro (h | h)
      · injection h with h
        exact heq h
      · cases h
  | loginSetConnId r' =>
    refine .keep (fun hactive ↦ ?_) (fun d hd ↦ ?_) (fun h ↦ absurd (hack h) (by simp))
      (by simp [hrelease])
    · rw [Server.modifyUser_user]
      split
      case isTrue heq => exact heq ▸ hactive
      case isFalse => exact hactive
    · rw [stepped] at hd
      split at hd
      case isTrue heq =>
        rcases hd with h | h
        · cases h
        · injection h with h
          exact Or.inl (by rw [heq, htask, h])
      case isFalse => exact hd
  | loginReply r' =>
    by_cases heq : r' = r
    · subst heq
      have hreplay : ¬ (HandlerTask.replayTest r').LoggingIn r' := by simp [HandlerTask.LoggingIn]
      exact .acknowledge c (Or.inr htask) id fun d hd ↦ of_stepped _ hreplay hd
    · refine hkeep id (by simp [HandlerTask.LoggingIn]) ?_ (by simp [hrelease])
      intro h
      injection h with h
      exact heq h
  | @logout f hop r' hfind =>
    by_cases heq : r' = r
    · subst heq
      refine .release (fun d hd ↦ ?_) (fun h ↦ absurd (hack h) (by simp))
        (hrelease.2 ⟨f, rfl, hop, hfind⟩)
      have hidle : ¬ HandlerTask.idle.LoggingIn r' := by simp [HandlerTask.LoggingIn]
      exact hun.logout htask hop hfind hσ d (of_stepped _ hidle hd).2
    · refine hkeep (hother _ _ heq).trans (by simp [HandlerTask.LoggingIn]) (by simp) fun h ↦ ?_
      obtain ⟨-, -, -, hfind'⟩ := hrelease.1 h
      exact heq (Option.some.inj (hfind.symm.trans hfind'))

end Step

theorem grantStep_register (hun : Unraced σ e) (username : JString) :
    GrantStep (NameTaken username σ) (NameTaken username ((handlersMachine σ₀).next σ e))
      (fun c ↦ (σ.task c).Registering username)
      (fun c ↦ (((handlersMachine σ₀).next σ e).task c).Registering username)
      (∃ r, AcksRegister username r σ e) False := by
  cases e with
  | accept => exact .keep id (fun _ ↦ id) (fun ⟨_, _, _, h, _⟩ ↦ nomatch h) id
  | request c message =>
    refine .keep ?_ (fun d hd ↦ ?_) (fun ⟨_, _, _, h, _⟩ ↦ nomatch h) id
    · rw [NameTaken, NameTaken, next_request_server]
      exact id
    · rw [next_request_task] at hd
      split at hd
      case isTrue => exact absurd hd ((startTask_plain message).1.not_registering username)
      case isFalse => exact hd
  | step env c =>
    refine (handlerEffect_taskStep env c σ.server (σ.task c)).grantStep_register rfl hun username ?_
    rintro ⟨r, env', c', heq, htask, -⟩
    obtain ⟨-, rfl⟩ : env = env' ∧ c = c' := by simpa using heq
    exact ⟨r, htask⟩

theorem grantStep_login (hσ : σ.Sound) (hun : Unraced σ e) (r : UserRef) :
    GrantStep ((σ.server.user r).isActivated = true)
      ((((handlersMachine σ₀).next σ e).server.user r).isActivated = true)
      (fun c ↦ (σ.task c).LoggingIn r)
      (fun c ↦ (((handlersMachine σ₀).next σ e).task c).LoggingIn r)
      (AcksLogin r σ e) (AcksLogout r σ e) := by
  cases e with
  | accept =>
    exact .keep id (fun _ ↦ id) (fun ⟨_, _, h, _⟩ ↦ nomatch h) fun ⟨_, _, _, h, _⟩ ↦ nomatch h
  | request c message =>
    refine .keep ?_ (fun d hd ↦ ?_) (fun ⟨_, _, h, _⟩ ↦ nomatch h) fun ⟨_, _, _, h, _⟩ ↦ nomatch h
    · rw [next_request_server]
      exact id
    · rw [next_request_task] at hd
      split at hd
      case isTrue => exact absurd hd ((startTask_plain message).1.not_loggingIn r)
      case isFalse => exact hd
  | step env c =>
    refine (handlerEffect_taskStep env c σ.server (σ.task c)).grantStep_login
      rfl hσ hun r ?_ ⟨?_, ?_⟩
    · rintro ⟨env', c', heq, htask, -⟩
      obtain ⟨-, rfl⟩ : env = env' ∧ c = c' := by simpa using heq
      exact htask
    · rintro ⟨env', c', f, heq, htask, hop, hfind, -⟩
      obtain ⟨rfl, rfl⟩ : env = env' ∧ c = c' := by simpa using heq
      exact ⟨f, htask, hop, hfind⟩
    · rintro ⟨f, htask, hop, hfind⟩
      refine ⟨env, c, f, rfl, htask, hop, hfind, ?_⟩
      -- the connection has a handler, so the answer reaches it
      have hmem : c ∈ σ.server.connectionsMap := hσ.connected c (by rw [htask]; nofun)
      have hsent : (σ.stepOf env c).sent = (processLogout env c σ.server).sent := by
        rw [Handlers.stepOf, htask, taskStep, hop]
        rfl
      rw [hsent, processLogout_of_session hfind]
      exact Server.mem_delivery.2 ⟨rfl, rfl, hmem⟩

theorem mem_usersMap_next (hun : Unraced σ e) {username : JString} {r : UserRef}
    (h : (username, r) ∈ σ.server.usersMap.entries) :
    (username, r) ∈ ((handlersMachine σ₀).next σ e).server.usersMap.entries := by
  cases e with
  | accept => exact h
  | request c message =>
    rw [next_request_server]
    exact h
  | step env c =>
    exact (handlerEffect_taskStep env c σ.server (σ.task c)).mem_usersMap rfl hun h

/-- A registration that is about to be acknowledged is in the map. -/
def RegistrationsKept (σ : Handlers) : Prop :=
  ∀ c username r, σ.task c = .registerReply username r →
    (username, r) ∈ σ.server.usersMap.entries

theorem registrationsKept_next (hun : Unraced σ e) (h : RegistrationsKept σ) :
    RegistrationsKept ((handlersMachine σ₀).next σ e) := by
  intro d username r hd
  by_cases hold : σ.task d = .registerReply username r
  · exact mem_usersMap_next σ₀ hun (h d username r hold)
  · cases e with
    | accept => exact absurd hd hold
    | request c message =>
      rw [next_request_task] at hd
      split at hd
      case isTrue =>
        exact absurd ⟨r, hd⟩ ((startTask_plain message).1.not_registering username)
      case isFalse => exact absurd hd hold
    | step env c =>
      rw [next_step_task] at hd
      split at hd
      case isFalse => exact absurd hd hold
      case isTrue =>
        exact (handlerEffect_taskStep env c σ.server (σ.task c)).mem_usersMap_of_registerReply hd

end Grants

/-! ### Runs -/

/-- **REGISTER and LOGIN are atomic in every run whose steps find at the update what they saw at the
check.** -/
theorem atomic_of_unraced (mode : ServerMode) (es : List HandlerEvent)
    (h : ∀ pre e, Occurs es pre e → Unraced ((startedHandlers mode).stateAfter pre) e) :
    AtomicAccounts mode es := by
  have hregister := fun username pre e hocc ↦
    grantStep_register (.resting (Server.init mode)) (h pre e hocc) username
  have hlogin := fun r pre e hocc ↦ grantStep_login (.resting (Server.init mode))
    (Handlers.sound_of_reachable ((startedHandlers mode).reachable_stateAfter pre))
    (h pre e hocc) r
  refine ⟨fun username r r' pre pre' e e' hocc hocc' hack hack' ↦ ?_,
    fun username r pre e hocc hack pre' hlt hpre' ↦ ?_,
    fun r pre pre' e e' hocc' hlt hack hack' ↦ ?_⟩
  · -- nothing releases a name, so there is no second acknowledgement
    have hnone : ∀ {pre pre' e e' r r'}, Occurs es pre' e' → pre ++ [e] <+: pre' →
        AcksRegister username r ((startedHandlers mode).stateAfter pre) e →
          ¬ AcksRegister username r' ((startedHandlers mode).stateAfter pre') e' := by
      intro pre pre' e e' r r' hocc' hlt hack hack'
      obtain ⟨-, -, -, -, hfalse⟩ := release_between (startedHandlers mode) (NameTaken username)
        (fun σ c ↦ (σ.task c).Registering username)
        (fun σ e ↦ ∃ r, AcksRegister username r σ e) (fun _ _ ↦ False)
        (fun _ ⟨_, hr⟩ ↦ nomatch hr) (hregister username)
        (fun _ _ _ ⟨r, _, c, _, htask, _⟩ ↦ ⟨c, r, htask⟩) hocc' hlt ⟨r, hack⟩ ⟨r', hack'⟩
      exact hfalse
    rcases hocc.trichotomy hocc' with heq | hlt | hlt
    · exact heq
    · exact absurd hack' (hnone hocc' hlt hack)
    · exact absurd hack (hnone hocc hlt hack')
  · have hkept : RegistrationsKept ((startedHandlers mode).stateAfter pre) :=
      invariant_along (fun _ _ _ hr ↦ nomatch hr)
        (fun pre e hocc ↦ registrationsKept_next _ (h pre e hocc)) hocc.before
    obtain ⟨env, c, rfl, htask, -⟩ := hack
    have hthere := mem_usersMap_next (.resting (Server.init mode)) (h pre _ hocc)
      (hkept c _ _ htask)
    rw [← stateAfter_concat] at hthere
    exact persists_along (P := fun σ : Handlers ↦ (username, r) ∈ σ.server.usersMap.entries) hthere
      (fun pre e _ hocc ↦ mem_usersMap_next _ (h pre e hocc)) hlt hpre'
  · exact release_between (startedHandlers mode) (fun σ ↦ (σ.server.user r).isActivated = true)
      (fun σ c ↦ (σ.task c).LoggingIn r) (AcksLogin r) (AcksLogout r)
      (fun _ hr ↦ hr.elim nofun nofun) (hlogin r)
      (fun _ _ _ ⟨_, c, _, htask, _⟩ ↦ ⟨c, Or.inr htask⟩) hocc' hlt hack hack'

/-! ### Two races -/

/-- The handler of a connection goes on. -/
def HandlerEvent.go (connectionId : ℤ) : HandlerEvent := .step .listed connectionId

/-- Two connections register the same name: both handlers look for it before one of them puts it. -/
def racingRegisters : List HandlerEvent :=
  [.accept, .accept, .request 0 (str "01alice\x00a\x0001-01-1990\x00"),
    .request 1 (str "01alice\x00b\x0002-02-1990\x00"),
    .go 0, .go 1, .go 0, .go 0, .go 1, .go 1]

/-- Alice registers, and two connections log in under her name: both handlers look at the flag
before one of them sets it. -/
def racingLogins : List HandlerEvent :=
  [.accept, .accept, .request 0 (str "01alice\x00a\x0001-01-1990\x00"), .go 0, .go 0, .go 0,
    .request 0 (str "02alice\x00a\x001"), .request 1 (str "02alice\x00a\x001"),
    .go 0, .go 1, .go 0, .go 1, .go 0, .go 1, .go 0, .go 1, .go 0, .go 1, .go 0, .go 1]

theorem not_atomic_racingRegisters (mode : ServerMode) :
    ¬ AtomicAccounts mode racingRegisters := by
  intro h
  have hfirst : AcksRegister (str "alice") 0
      ((startedHandlers mode).stateAfter (racingRegisters.take 7)) (.go 0) :=
    ⟨.listed, 0, rfl, by cases mode <;> decide, by cases mode <;> decide⟩
  have hsecond : AcksRegister (str "alice") 1
      ((startedHandlers mode).stateAfter (racingRegisters.take 9)) (.go 1) :=
    ⟨.listed, 1, rfl, by cases mode <;> decide, by cases mode <;> decide⟩
  have heq := h.register_once _ _ _ _ _ _ _ ⟨_, rfl⟩ ⟨[], rfl⟩ hfirst hsecond
  exact absurd (congrArg List.length heq) (by decide)

theorem not_atomic_racingLogins (mode : ServerMode) : ¬ AtomicAccounts mode racingLogins := by
  intro h
  have hfirst : AcksLogin 0
      ((startedHandlers mode).stateAfter (racingLogins.take 18)) (.go 0) :=
    ⟨.listed, 0, rfl, by cases mode <;> decide, by cases mode <;> decide⟩
  have hsecond : AcksLogin 0
      ((startedHandlers mode).stateAfter (racingLogins.take 19)) (.go 1) :=
    ⟨.listed, 1, rfl, by cases mode <;> decide, by cases mode <;> decide⟩
  obtain ⟨pre, e, -, hocc, env, c, f, rfl, -, -, -, hsent⟩ :=
    h.logout_between _ _ _ _ _ ⟨[], rfl⟩ List.prefix_rfl hfirst hsecond
  -- no answer to a LOGOUT is among the outputs
  have hnone : ∀ o ∈ (startedHandlers mode).outputs (racingLogins.take 19),
      ∀ m ∈ o, m.2 ≠ str "1003" := by
    cases mode <;> decide
  exact hnone _ (hocc.mem_outputs (startedHandlers mode)) _ hsent rfl

/-- **Both REGISTERs are acknowledged, and both LOGINs are**, in both modes. -/
theorem racing_accounts :
    ¬ AtomicAccounts .threadPerClient racingRegisters ∧
      ¬ AtomicAccounts .reactor racingRegisters ∧
      ¬ AtomicAccounts .threadPerClient racingLogins ∧ ¬ AtomicAccounts .reactor racingLogins :=
  ⟨not_atomic_racingRegisters _, not_atomic_racingRegisters _, not_atomic_racingLogins _,
    not_atomic_racingLogins _⟩

/-- Alice registers, logs in, out and in again, while Bob registers. -/
def accountsInTurn : List HandlerEvent :=
  [.accept, .accept, .request 0 (str "01alice\x00a\x0001-01-1990\x00"),
    .request 1 (str "01bob\x00b\x0002-02-1990\x00"),
    .go 0, .go 1, .go 0, .go 1, .go 1, .go 0,
    .request 0 (str "02alice\x00a\x001"), .go 0, .go 0, .go 0, .go 0, .go 0, .go 0, .go 0,
    .request 0 (str "03"), .go 0,
    .request 0 (str "02alice\x00a\x001"), .go 0, .go 0, .go 0, .go 0, .go 0, .go 0, .go 0]

theorem atomic_of_unraced_inTurn : AtomicAccounts .threadPerClient accountsInTurn :=
  atomic_of_unraced .threadPerClient accountsInTurn (forall_occurs (by decide))

end SplNet
