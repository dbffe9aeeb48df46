import PapeSdk.AccountFrames

/-!
The registration policy over runs of public requests. Without registration no
request adds an account. With registration by code only, a code opens sessions
of new accounts alone and never replaces a password that was set. The codes
themselves are arbitrary: the table may be edited by hand between two requests.
-/

namespace PapeSdk

open KeyedTables Identifiers EventRuns

/-- A public request. Of the requests outside the login flows two write to the modelled
tables, for the account that their token names. -/
inductive PublicRequest
  | handled (h : Handler) (request : Request)
  | cometAcquire (userID : ℕ)
  | cancellationHandle (userID status cancelAt : ℕ)

def PublicRequest.complete (cfg : AuthConfig) (env : Externals) (w : World) : PublicRequest → World
  | .handled h request => (serve cfg env h request w).1
  | .cometAcquire userID => (createCometSession env w userID).1
  | .cancellationHandle userID status cancelAt => (setCancellation w userID status cancelAt).1

/-- The request opened the session before it looked at any code, for a password or a refresh
token of the account. -/
def PublicRequest.OpensWithoutCode (cfg : AuthConfig) (env : Externals) (w : World)
    (s : AuthSession) : PublicRequest → Prop
  | .handled h request =>
    (∃ s', NewSession w (h.plan cfg env request w).world s' ∧ s'.userID = s.userID) ∧
    ((∃ phone password, h.presentedPassword request = some (phone, password) ∧
      PasswordFits env w phone password s.userID) ∨
    ∃ token, h.presentedToken request = some token ∧ TokenFits w token s.userID)
  | _ => False

/-- The request changes a password and presented the old one. -/
def PublicRequest.ProvesPassword (env : Externals) (w : World) (account : ℕ) :
    PublicRequest → Prop
  | .handled .userCenterChangePassword request =>
    PasswordFits env w (request.post.get "phone") (request.post.get "old_password") account
  | _ => False

structure PolicyKept (cfg : AuthConfig) (env : Externals) (q : PublicRequest) (w w' : World) :
    Prop where
  closed : cfg.allowRegister = false →
    ∀ r' ∈ w'.db.users.rows, ∃ r ∈ w.db.users.rows, r.id = r'.id
  sessions : cfg.smsOnlyRegister = true → ∀ s, NewSession w w' s →
    (∃ r ∈ w.db.users.rows, r.id = s.userID) → q.OpensWithoutCode cfg env w s
  passwords : cfg.smsOnlyRegister = true → ∀ r ∈ w.db.users.rows, ∀ r' ∈ w'.db.users.rows,
    r'.id = r.id → r.passwordHash.getD "" ≠ "" → r'.passwordHash ≠ r.passwordHash →
      q.ProvesPassword env w r.id

section
variable {cfg : AuthConfig} {env : Externals} {request : Request} {w w' : World} {h : Handler}

theorem AccountsKept.closed {strict : Prop} (hkept : AccountsKept strict w w') :
    ∀ r' ∈ w'.db.users.rows, ∃ r ∈ w.db.users.rows, r.id = r'.id := by
  intro r' hr'
  obtain ⟨r, hr, hrow⟩ := hkept r' hr'
  exact ⟨r, hr, hrow.id.symm⟩

theorem AccountsGrown.passwords (hgrown : AccountsGrown w w') {r r' : UserRow}
    (hr : r ∈ w.db.users.rows) (hr' : r' ∈ w'.db.users.rows) (hid : r'.id = r.id)
    (hset : r.passwordHash.getD "" ≠ "") : r'.passwordHash = r.passwordHash := by
  rcases hgrown r' hr' with ⟨a, ha, hrow⟩ | hnew
  · have hsame : a = r := w.db.user_eq_of_id ha hr (hrow.id.symm.trans hid)
    subst hsame
    exact hrow.hash trivial hset
  · exact absurd hid.symm (hnew r hr)

theorem accountsKept_strict (hsms : cfg.smsOnlyRegister = true)
    (hkept : AccountsKept (cfg.smsOnlyRegister = true) w w') : AccountsKept True w w' := by
  intro r' hr'
  obtain ⟨r, hr, hrow⟩ := hkept r' hr'
  exact ⟨r, hr, hrow.id, fun _ => hrow.hash hsms⟩

theorem PolicyKept.of_kept {q : PublicRequest}
    (hkept : AccountsKept (cfg.smsOnlyRegister = true) w w')
    (hsessions : ∀ s, NewSession w w' s → q.OpensWithoutCode cfg env w s) :
    PolicyKept cfg env q w w' := by
  refine ⟨fun _ => hkept.closed, fun _ s hnew _ => hsessions s hnew, ?_⟩
  intro hsms r hr r' hr' hid hset hne
  exact absurd ((accountsKept_strict hsms hkept).grown.passwords hr hr' hid hset) hne

/-- The sessions of a request that accepted no code. -/
theorem sessions_before_code {s : AuthSession}
    (hcalls : (h.plan cfg env request w).Calls env h request w)
    (hnew : NewSession w (h.plan cfg env request w).world s) :
    (PublicRequest.handled h request).OpensWithoutCode cfg env w s :=
  ⟨⟨s, hnew, rfl⟩, hcalls.before.credential hnew⟩

/-- Requests that do not log in by a code open their sessions before they look at one. -/
theorem sessions_without_code {s : AuthSession} (hsend : h.isSend = false)
    (hlogin : h.isCodeLogin = false) (hnew : NewSession w (serve cfg env h request w).1 s) :
    (PublicRequest.handled h request).OpensWithoutCode cfg env w s := by
  have hcalls : (h.plan cfg env request w).Calls env h request w := Handler.calls hsend
  unfold serve at hnew
  cases haccepts : (h.plan cfg env request w).accepts env with
  | none =>
    rw [Plan.run_of_none haccepts] at hnew
    exact sessions_before_code hcalls hnew
  | some id =>
    rw [Plan.run_of_some haccepts] at hnew
    rcases hcalls.after with hkeeps | ⟨-, hgiven, -⟩
    · have hold : NoNewSession (h.plan cfg env request w).world
          ((h.plan cfg env request w).next ((h.plan cfg env request w).world.consume id)).1 :=
        (hkeeps ((h.plan cfg env request w).world.consume id)).sessions
      obtain ⟨s', hnew', hid⟩ := hnew.before hold
      refine ⟨⟨s', hnew', hid⟩, ?_⟩
      rw [← hid]
      exact hcalls.before.credential hnew'
    · cases h with
      | userLogin | mobileRegister | emailRegister | userCenterRegister => cases hlogin
      | _ => cases hgiven

theorem changePassword_policy :
    PolicyKept cfg env (.handled .userCenterChangePassword request) w
      (serve cfg env .userCenterChangePassword request w).1 := by
  have hserve : (serve cfg env .userCenterChangePassword request w).1 =
      (userCenterChangePassword env request w).world := by
    rw [serve, Handler.plan]
    exact Plan.run_of_none userCenterChangePassword_accepts
  have hsessions : ∀ s, NewSession w (serve cfg env .userCenterChangePassword request w).1 s →
      (PublicRequest.handled .userCenterChangePassword request).OpensWithoutCode cfg env w s :=
    fun s hnew => sessions_without_code rfl rfl hnew
  rw [hserve] at hsessions ⊢
  rcases userCenterChangePassword_cases with hkept | ⟨u, v, hfits, hkept, hworld⟩
  · apply PolicyKept.of_kept _ hsessions
    intro r' hr'
    obtain ⟨r, hr, hrow⟩ := hkept r' hr'
    exact ⟨r, hr, hrow.id, fun _ => hrow.hash trivial⟩
  · rw [hworld] at hsessions ⊢
    have hids : AccountsKept False v (setPassword env v u (request.post.get "new_password")).1 :=
      setPassword_kept_of_not not_false v u _
    refine ⟨fun _ r' hr' => ?_, fun _ s hnew _ => hsessions s hnew, ?_⟩
    · obtain ⟨a, ha, hrow⟩ := hids r' hr'
      obtain ⟨r, hr, hid⟩ := hkept.closed a ha
      exact ⟨r, hr, hid.trans hrow.id.symm⟩
    · intro _ r hr r' hr' hid hset hne
      obtain ⟨a, ha, hrow⟩ := hids r' hr'
      have hsame : a.passwordHash = r.passwordHash :=
        hkept.grown.passwords hr ha (hrow.id.symm.trans hid) hset
      by_cases hu : r.id = u
      · rw [hu]
        exact hfits
      · have hother : r' = a := by
          apply setPassword_others ha hr' hrow.id
          rw [← hrow.id, hid]
          exact hu
        rw [hother] at hne
        exact absurd hsame hne

theorem codeLogin_policy (hinv : StoreInv env w) (hlogin : h.isCodeLogin = true) :
    PolicyKept cfg env (.handled h request) w (serve cfg env h request w).1 := by
  have hsend : h.isSend = false := by cases h <;> first | rfl | cases hlogin
  have hcalls : (h.plan cfg env request w).Calls env h request w := Handler.calls hsend
  have hlogs : (h.plan cfg env request w).LogsIn cfg env w := Handler.logsIn hinv hlogin
  cases hlogs with
  | atOnce hkept hnone =>
    have hserve : (serve cfg env h request w).1 = (h.plan cfg env request w).world :=
      Plan.run_of_none hnone
    rw [hserve]
    apply PolicyKept.of_kept _ fun s hnew => sessions_before_code hcalls hnew
    intro r' hr'
    obtain ⟨r, hr, hrow⟩ := hkept r' hr'
    exact ⟨r, hr, hrow.id, fun _ => hrow.hash trivial⟩
  | byCode id hworld hsome hcode =>
    have hserve : (serve cfg env h request w).1 =
        ((h.plan cfg env request w).next (w.consume id)).1 := by
      rw [serve, Plan.run_of_some hsome, hworld]
    rw [← hserve] at hcode
    refine ⟨fun hclosed => (hcode.closed hclosed).closed, ?_, ?_⟩
    · intro hsms s hnew hold
      obtain ⟨r, hr, hid⟩ := hold
      exact absurd hid (hcode.sessions hsms s hnew r hr)
    · intro hsms r hr r' hr' hid hset hne
      exact absurd ((hcode.once hsms).passwords hr hr' hid hset) hne

theorem send_policy (hsend : h.isSend = true) :
    PolicyKept cfg env (.handled h request) w (serve cfg env h request w).1 := by
  apply PolicyKept.of_kept (send_kept hsend)
  intro s hnew
  exact absurd hnew (send_not_new hsend)

/-- Every public request keeps the policy, whatever codes the store holds. -/
theorem PublicRequest.policy (hinv : StoreInv env w) (q : PublicRequest) :
    PolicyKept cfg env q w (q.complete cfg env w) := by
  cases q with
  | handled h request =>
    rw [complete]
    by_cases hsend : h.isSend = true
    · exact send_policy hsend
    by_cases hlogin : h.isCodeLogin = true
    · exact codeLogin_policy hinv hlogin
    by_cases hchange : h = .userCenterChangePassword
    · rw [hchange]
      exact changePassword_policy
    · apply PolicyKept.of_kept (serve_kept (by simpa using hlogin) hchange)
      exact fun s hnew => sessions_without_code (by simpa using hsend) (by simpa using hlogin) hnew
  | cometAcquire userID =>
    have hcreate : (createCometSession env w userID).1.db.users = w.db.users ∧
        (createCometSession env w userID).1.db.authSessions = w.db.authSessions := by
      unfold createCometSession
      simp only
      split
      · exact ⟨rfl, rfl⟩
      · exact ⟨rfl, rfl⟩
    apply PolicyKept.of_kept (AccountsKept.of_same hcreate.1)
    intro s hnew
    have hold : NoNewSession w (createCometSession env w userID).1 := by
      apply NoNewSession.of_sub
      rw [hcreate.2]
      exact fun _ hs => hs
    exact absurd hnew hold.not_new
  | cancellationHandle userID status cancelAt =>
    apply PolicyKept.of_kept
    · exact AccountsKept.of_updated rfl fun r _ _ => ⟨rfl, fun _ _ => rfl⟩
    · exact fun s hnew => absurd hnew (not_new_of_same rfl)

end

/-- A public request, any other operation of the store, or an edit of the codes by hand. -/
inductive SiteLabel
  | request (q : PublicRequest)
  | other (op : Op)
  | edit (codes : Table smsKeys)

def SiteLabel.perform (cfg : AuthConfig) (env : Externals) (w : World) : SiteLabel → World
  | .request q => q.complete cfg env w
  | .other op => (exec env w op).1
  | .edit codes =>
    { w with db := w.db.withCodes codes w.db.smsEvents w.db.smsSequence }

def SiteStep (cfg : AuthConfig) (env : Externals) (w : World) (l : SiteLabel) (w' : World) : Prop :=
  l.perform cfg env w = w'

section
variable {cfg : AuthConfig} {env : Externals} {request : Request} {w w' : World} {h : Handler}

theorem StoreInv.serve (hinv : StoreInv env w) (h : Handler) (request : Request) :
    StoreInv env (serve cfg env h request w).1 := by
  unfold PapeSdk.serve
  cases hsend : h.isSend with
  | true =>
    rcases Handler.send_cases cfg env request w hsend with
      ⟨result, hplan⟩ | ⟨x, w', result, hplan, hissued⟩
    · rw [hplan]
      exact hinv
    · rw [hplan]
      exact hinv.codes hissued.step
  | false =>
    have hcalls : (h.plan cfg env request w).Calls env h request w := Handler.calls hsend
    obtain ⟨hbefore, hafter⟩ := hcalls.follows
    cases haccepts : (h.plan cfg env request w).accepts env with
    | none =>
      rw [Plan.run_of_none haccepts]
      exact hinv.changes hbefore
    | some id =>
      rw [Plan.run_of_some haccepts]
      exact ((hinv.changes hbefore).consume id).changes (hafter _)

theorem StoreInv.site (hinv : StoreInv env w) {l : SiteLabel} (hstep : SiteStep cfg env w l w') :
    StoreInv env w' := by
  unfold SiteStep at hstep
  rw [← hstep]
  cases l with
  | request q =>
    cases q with
    | handled h request => exact hinv.serve h request
    | cometAcquire userID => exact hinv.changes (createCometSession_changes w userID)
    | cancellationHandle userID status cancelAt => exact hinv.setCancellation userID status cancelAt
  | other op => exact hinv.exec op
  | edit codes => exact hinv.withCodes codes _ _

/-- The registration policy holds for every public request, wherever it stands in a run. -/
theorem policy_is_kept {start : ℕ} {log : List SiteLabel}
    (hrun : Run (SiteStep cfg env) (World.fresh env start) log w') {before after : List SiteLabel}
    {q : PublicRequest} (hlog : log = before ++ .request q :: after) :
    ∃ t t', Run (SiteStep cfg env) (World.fresh env start) before t ∧
      t' = q.complete cfg env t ∧ Run (SiteStep cfg env) t' after w' ∧ PolicyKept cfg env q t t' := by
  subst hlog
  obtain ⟨t, hbefore, hrest⟩ := hrun.of_append
  obtain ⟨t', hstep, hafter⟩ := hrest.of_cons
  have hcomplete : t' = q.complete cfg env t := hstep.symm
  subst hcomplete
  have hinv : StoreInv env t :=
    hbefore.invariant (fun hinv hstep => hinv.site hstep) (StoreInv.fresh start)
  exact ⟨t, _, hbefore, rfl, hafter, q.policy hinv⟩

end

/-- Registration by code only, and only by an invited few. -/
def closedConfig : AuthConfig where
  realPassword := true
  realSMS := false
  allowRegister := false
  smsOnlyRegister := true

/-- A code written into the table by hand, for an identifier without an account. -/
def forgedCodes : Table smsKeys :=
  ⟨[⟨1, "13800000000", "login", "000000", "", 0, 600, none⟩], List.pairwise_singleton _ _⟩

theorem forged_code_refused :
    ∃ t t', Run (SiteStep closedConfig .unary) (World.fresh .unary 0) [.edit forgedCodes] t ∧
      t' = (PublicRequest.handled .mobileRegister loginRequest).complete closedConfig .unary t ∧
      Run (SiteStep closedConfig .unary) t' []
        ((PublicRequest.handled .mobileRegister loginRequest).complete closedConfig .unary
          ((SiteLabel.edit forgedCodes).perform closedConfig .unary (World.fresh .unary 0))) ∧
      PolicyKept closedConfig .unary (.handled .mobileRegister loginRequest) t t' :=
  policy_is_kept (Run.append (Run.single rfl) (Run.single rfl)) rfl

end PapeSdk
