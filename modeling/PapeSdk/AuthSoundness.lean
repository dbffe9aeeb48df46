import PapeSdk.HandlerChanges
import PapeSdk.EventRuns

/-!
Which requests open a session. A request that creates or rotates a session of
an account presented the password of the account, or consumed a code that was
sent to an identifier of it, or presented a refresh token that was live for it.
An account without such an identifier is one that the request just created.
-/

namespace PapeSdk

open KeyedTables Identifiers EventRuns

/-- A session that was not there before with its account, its tokens and their expiry. -/
def NewSession (w w' : World) (s : AuthSession) : Prop :=
  s ∈ w'.db.authSessions.rows ∧ ∀ old ∈ w.db.authSessions.rows, ¬ old.Kept s

/-- The live account `account` has the identifier `x`. -/
def World.AnswersTo (w : World) (account : ℕ) (x : String) : Prop :=
  ∃ row ∈ w.db.users.rows, row.id = account ∧ row.answersTo x = true

/-- `x` was bound to the account before, or the account is new and bound to `x`. -/
def BoundAccount (w w' : World) (x : String) (account : ℕ) : Prop :=
  w.AnswersTo account x ∨
    (∀ row ∈ w.db.users.rows, row.id ≠ account) ∧ w'.AnswersTo account x

/-- The password is the right one for the account that the identifier is bound to. -/
def PasswordFits (env : Externals) (w : World) (phone password : String) (account : ℕ) : Prop :=
  ∃ x row hash, normalizeAccount env phone = .ok x ∧ row ∈ w.db.users.rows ∧ row.id = account ∧
    row.answersTo x = true ∧ row.passwordHash = some hash ∧ hash ≠ "" ∧
    env.comparesHash hash password = true

/-- The code was open and had not expired, the request consumed it, and it was sent to an
identifier of the account. -/
def CodeFits (w w' : World) (code : String) (account : ℕ) : Prop :=
  ∃ r ∈ w.db.smsVerifications.rows, r.code = code ∧ r.consumedAt = none ∧ w.now ≤ r.expiresAt ∧
    (∃ r' ∈ w'.db.smsVerifications.rows, r'.id = r.id ∧ r'.consumedAt ≠ none) ∧
    BoundAccount w w' r.phone account

/-- The refresh token of an open session whose account is live. -/
def TokenFits (w : World) (token : String) (account : ℕ) : Prop :=
  ∃ s ∈ w.db.authSessions.rows, s.refreshToken = token ∧ s.userID = account ∧
    s.revokedAt = none ∧ w.now ≤ s.refreshExpiresAt ∧
    ∃ owner ∈ w.db.users.rows, owner.id = account ∧ owner.deletedAt = none ∧
      owner.tokenRevokedAt = none

/-- The request presented a credential of the account. -/
inductive Presented (env : Externals) (h : Handler) (request : Request) (w w' : World)
    (account : ℕ) : Prop
  | password {phone password : String}
      (hgiven : h.presentedPassword request = some (phone, password))
      (hfits : PasswordFits env w phone password account)
  | code {code : String} (hgiven : h.presentedCode request = some code)
      (hfits : CodeFits w w' code account)
  | token {token : String} (hgiven : h.presentedToken request = some token)
      (hfits : TokenFits w token account)

section
variable {cfg : AuthConfig} {env : Externals} {h : Handler} {request : Request}
  {w w' w'' : World} {s : AuthSession}

theorem NoNewSession.not_new (hold : NoNewSession w w') : ¬ NewSession w w' s := by
  rintro ⟨hs, hnew⟩
  obtain ⟨old, hmem, hkept⟩ := hold s hs
  exact hnew old hmem hkept

theorem not_new_of_same (hsame : w'.db.authSessions = w.db.authSessions) :
    ¬ NewSession w w' s := by
  apply NoNewSession.not_new
  apply NoNewSession.of_sub
  intro a ha
  rwa [hsame] at ha

theorem send_not_new (hsend : h.isSend = true) : ¬ NewSession w (serve cfg env h request w).1 s := by
  unfold serve
  rcases Handler.send_cases cfg env request w hsend with
    ⟨result, hplan⟩ | ⟨x, w', result, hplan, hissued⟩
  · rw [hplan]
    exact not_new_of_same rfl
  · rw [hplan]
    obtain ⟨rows, events, sequence, -, rfl⟩ := hissued.step
    exact not_new_of_same rfl

/-- Later changes that open no session only revoke the new one. -/
theorem NewSession.before (hnew : NewSession w w'' s) (hold : NoNewSession w' w'') :
    ∃ s', NewSession w w' s' ∧ s'.userID = s.userID := by
  obtain ⟨s', hs', hkept⟩ := hold s hnew.1
  refine ⟨s', ⟨hs', fun old hmem hkept' => hnew.2 old hmem (hkept'.trans hkept)⟩, ?_⟩
  rw [hkept.1]

theorem issueAuthSession_new {userID : ℕ}
    (hnew : NewSession w (issueAuthSession env w userID).1 s) : s.userID = userID := by
  rcases hcall : issueAuthSession env w userID with ⟨w', result⟩
  rw [hcall] at hnew
  rcases issueAuthSession_cases hcall with ⟨e, n, -, -, rfl⟩ |
    ⟨row, sessions, -, -, hsessions, -, rfl⟩
  · exact absurd hnew (not_new_of_same rfl)
  · rcases (Table.mem_insert? hsessions).mp hnew.1 with hold | rfl
    · exact absurd (AuthSession.Kept.refl s) (hnew.2 s hold)
    · rfl

theorem passwordAccount_fits {phone password : String} {u : User}
    (hu : passwordAccount env w phone password = some u) :
    PasswordFits env w phone password u.id := by
  unfold passwordAccount at hu
  split at hu
  · cases hu
  next x hx =>
  split at hu
  · cases hu
  next v hv =>
  split at hu
  · next hpassword =>
    cases hu
    obtain ⟨-, hhas, hcompares⟩ := hpassword
    obtain ⟨row, hrow, rfl⟩ := Option.map_eq_some_iff.mp hv
    have hhash : row.passwordHash.getD "" ≠ "" := by
      simpa [userHasPassword, UserRow.scan, UserRow.scanWith] using hhas
    cases hstored : row.passwordHash with
    | none => simp [hstored] at hhash
    | some hash =>
      refine ⟨x, row, hash, hx, Table.mem_of_first? hrow, rfl, Table.first?_holds hrow,
        hstored, ?_, ?_⟩
      · simpa [hstored] using hhash
      · simpa [UserRow.scan, UserRow.scanWith, hstored] using hcompares
  · cases hu

theorem passwordLogin_new {phone password : String}
    (hnew : NewSession w (passwordLogin env w phone password).1 s) :
    PasswordFits env w phone password s.userID := by
  unfold passwordLogin at hnew
  split at hnew
  · exact absurd hnew (not_new_of_same rfl)
  next u hu =>
  have hid : s.userID = u.id := issueAuthSession_new hnew
  rw [hid]
  exact passwordAccount_fits hu

theorem refreshByToken_new {token : String}
    (hnew : NewSession w (refreshByToken env w token).1 s) : TokenFits w token s.userID := by
  rcases hcall : refreshByToken env w token with ⟨w', result⟩
  rw [hcall] at hnew
  rcases refreshAuthSession_cases hcall with ⟨e, n, -, -, rfl⟩ |
    ⟨session, owner, sessions, hjoin, hsessions, -, rfl⟩
  · exact absurd hnew (not_new_of_same rfl)
  obtain ⟨hsession, hmatch, hopen, howner, hid, hlive, hflag⟩ := Db.joinSession_some hjoin
  simp only [Bool.and_eq_true, beq_iff_eq, decide_eq_true_eq] at hmatch
  rcases Table.of_mem_update? hsessions hnew.1 with ⟨a, ha, hrotating, rfl⟩ | ⟨hold, -⟩
  · simp only [AuthSession.isRotating, Bool.and_eq_true, beq_iff_eq] at hrotating
    have hsame : a = session := w.db.session_eq_of_id ha hsession hrotating.1.1.1
    subst hsame
    exact ⟨a, ha, hmatch.1, rfl, hopen, hmatch.2, owner, howner, hid, hlive, hflag⟩
  · exact absurd (AuthSession.Kept.refl s) (hnew.2 s hold)

/-- An update of other columns leaves every identifier where it was. -/
theorem World.AnswersTo.of_updated {account : ℕ} {x : String} {p : UserRow → Bool}
    {f : UserRow → UserRow} (hanswers : w.AnswersTo account x)
    (hrows : w'.db.users.rows = w.db.users.rows.map fun r => if p r then f r else r)
    (hf : ∀ r, (f r).id = r.id ∧ (f r).phone = r.phone ∧ (f r).email = r.email ∧
      (f r).deletedAt = r.deletedAt) : w'.AnswersTo account x := by
  obtain ⟨row, hrow, hid, hx⟩ := hanswers
  refine ⟨_, hrows ▸ Table.mem_updated hrow, ?_⟩
  obtain ⟨hfid, hphone, hemail, hdeleted⟩ := hf row
  split
  · exact ⟨hfid.trans hid, by rw [UserRow.answersTo, hphone, hemail, hdeleted]; exact hx⟩
  · exact ⟨hid, hx⟩

theorem issueAuthSession_answersTo {account userID : ℕ} {x : String}
    (hanswers : w.AnswersTo account x) :
    (issueAuthSession env w userID).1.AnswersTo account x := by
  rcases hcall : issueAuthSession env w userID with ⟨w', result⟩
  rcases issueAuthSession_cases hcall with ⟨e, n, -, -, rfl⟩ | ⟨row, sessions, -, -, -, -, rfl⟩
  · exact hanswers
  · exact hanswers.of_updated rfl fun r => ⟨rfl, rfl, rfl, rfl⟩

theorem Rehashed.answersTo {account : ℕ} {x : String} (h : Rehashed env w w')
    (hanswers : w.AnswersTo account x) : w'.AnswersTo account x := by
  have hhash : ∀ password, (passwordHash env w password).1.db = w.db := by
    intro password
    obtain ⟨n, -, hworld⟩ := passwordHash_world env w password
    rw [hworld]
  cases h with
  | same => exact hanswers
  | hashed password =>
    unfold World.AnswersTo
    rw [hhash password]
    exact hanswers
  | set userID password =>
    have hdb := hhash password
    unfold setPassword
    split
    · next heq =>
      rw [heq] at hdb
      unfold World.AnswersTo
      rw [hdb]
      exact hanswers
    · next v hash heq =>
      rw [heq] at hdb
      have hv : v.AnswersTo account x := by
        unfold World.AnswersTo
        rw [hdb]
        exact hanswers
      exact hv.of_updated rfl fun r => ⟨rfl, rfl, rfl, rfl⟩

/-- A row inserted for an identifier without an account is the account of the identifier. -/
theorem insertUser_bound {db : Db} {row : UserRow} {x : String}
    (hnone : userByPhoneRow w x = none) (hrow : row.answersTo x = true)
    (hinsert : w.db.insertUser row = some db) :
    (∀ r ∈ w.db.users.rows, r.id ≠ w.db.nextUserID) ∧
    World.AnswersTo { w with db := db } w.db.nextUserID x ∧
    db.authSessions = w.db.authSessions ∧
    ((userByPhoneRow { w with db := db } x).getD User.zero).id = w.db.nextUserID := by
  have hfound := insertUser_found hnone hrow hinsert
  obtain ⟨users, husers, rfl⟩ := Db.insertUser_some hinsert
  have hnew : { row with id := w.db.nextUserID } ∈ users.rows :=
    (Table.mem_insert? husers).mpr (Or.inr rfl)
  refine ⟨?_, ⟨_, hnew, rfl, hrow⟩, rfl, hfound⟩
  intro r hr hid
  have hlt := Db.lt_nextUserID hr
  omega

/-- The account that a login by code is for. -/
theorem getOrCreateUser_new {phone x : String} (hx : normalizeAccount env phone = .ok x)
    (hnew : NewSession w (getOrCreateUser env w phone).1 s) :
    BoundAccount w (getOrCreateUser env w phone).1 x s.userID := by
  have hcreated : ∀ {db : Db} {row : UserRow}, userByPhoneRow w x = none →
      row.answersTo x = true → w.db.insertUser row = some db →
      NewSession w (issueAuthSession env { w with db := db } w.db.nextUserID).1 s →
      BoundAccount w (issueAuthSession env { w with db := db } w.db.nextUserID).1 x s.userID := by
    intro db row hnone hrow hinsert hsession
    obtain ⟨hfresh, hanswers, hsame, -⟩ := insertUser_bound hnone hrow hinsert
    have hissued : NewSession { w with db := db }
        (issueAuthSession env { w with db := db } w.db.nextUserID).1 s := by
      refine ⟨hsession.1, fun old hold => ?_⟩
      rw [hsame] at hold
      exact hsession.2 old hold
    have hid : s.userID = w.db.nextUserID := issueAuthSession_new hissued
    rw [hid]
    exact Or.inr ⟨hfresh, issueAuthSession_answersTo hanswers⟩
  unfold getOrCreateUser at hnew ⊢
  rw [hx] at hnew ⊢
  simp only at hnew ⊢
  cases hlookup : userByPhoneRow w x with
  | some u =>
    simp only [hlookup] at hnew
    obtain ⟨row, hrow, rfl⟩ := Option.map_eq_some_iff.mp hlookup
    exact Or.inl ⟨row, Table.mem_of_first? hrow, (issueAuthSession_new hnew).symm,
      Table.first?_holds hrow⟩
  | none =>
    simp only [hlookup] at hnew ⊢
    by_cases hat : hasAt x = true
    · rw [if_pos hat] at hnew ⊢
      rcases hcall : createAccount env w "" x "" with ⟨w', result⟩
      rw [hcall] at hnew
      rcases createAccount_email_cases ((isIdentifier_of_normalize hx).isEmail hat) hcall with
        ⟨e, rfl, rfl⟩ | ⟨row, db, hrow, hinsert, rfl, rfl⟩
      · exact absurd hnew (not_new_of_same rfl)
      · simp only [(insertUser_bound hlookup hrow hinsert).2.2.2] at hnew ⊢
        exact hcreated hlookup hrow hinsert hnew
    · rw [if_neg hat] at hnew ⊢
      unfold createUserRow at hnew ⊢
      split at hnew
      · next db hinsert =>
        exact hcreated hlookup (by simp [UserRow.answersTo]) hinsert hnew
      · rw [hlookup] at hnew
        exact absurd hnew (not_new_of_same rfl)

/-- A session opened before any code is verified has a password or a refresh token behind it. -/
theorem Opens.credential (hopens : Opens env h request w w') (hnew : NewSession w w' s) :
    (∃ phone password, h.presentedPassword request = some (phone, password) ∧
      PasswordFits env w phone password s.userID) ∨
    ∃ token, h.presentedToken request = some token ∧ TokenFits w token s.userID := by
  cases hopens with
  | nothing hkeeps => exact absurd hnew hkeeps.sessions.not_new
  | password hgiven hkeeps =>
    obtain ⟨s', hnew', hid⟩ := hnew.before hkeeps.sessions
    exact Or.inl ⟨_, _, hgiven, hid ▸ passwordLogin_new hnew'⟩
  | token hgiven hkeeps =>
    obtain ⟨s', hnew', hid⟩ := hnew.before hkeeps.sessions
    exact Or.inr ⟨_, hgiven, hid ▸ refreshByToken_new hnew'⟩

theorem Opens.presented (hopens : Opens env h request w w') (hnew : NewSession w w' s) :
    Presented env h request w w'' s.userID := by
  rcases hopens.credential hnew with ⟨phone, password, hgiven, hfits⟩ | ⟨token, hgiven, hfits⟩
  · exact Presented.password hgiven hfits
  · exact Presented.token hgiven hfits

/-- A login by code opens a session of the account that the consumed code was sent to. -/
theorem code_presented {r : SmsVerification} {x : String}
    (hr : r ∈ w.db.smsVerifications.rows) (hopen : r.consumedAt = none)
    (hfresh : w.now ≤ r.expiresAt) (hx : normalizeAccount env x = .ok r.phone)
    (hgiven : h.presentedCode request = some r.code)
    (hlogin : Rehashed env (getOrCreateUser env (w.consume r.id) x).1 w')
    (hnew : NewSession w w' s) : Presented env h request w w' s.userID := by
  obtain ⟨s', hnew', hid⟩ := NewSession.before (w := w.consume r.id) hnew hlogin.keeps.sessions
  refine Presented.code hgiven ⟨r, hr, rfl, hopen, hfresh, ?_, ?_⟩
  · have hcodes : Changes env (w.consume r.id) w' :=
      (getOrCreateUser_changes _ _).trans hlogin.keeps.changes
    rw [hcodes.sameCodes.rows]
    refine ⟨_, Table.mem_updated hr, ?_⟩
    simp [hopen]
  · rw [← hid]
    rcases getOrCreateUser_new hx hnew' with hbefore | ⟨hnone, hafter⟩
    · exact Or.inl hbefore
    · exact Or.inr ⟨hnone, hlogin.answersTo hafter⟩

/-- A request opens sessions only of accounts whose credential it presents. -/
theorem serve_presented (hnew : NewSession w (serve cfg env h request w).1 s) :
    Presented env h request w (serve cfg env h request w).1 s.userID := by
  cases hsend : h.isSend with
  | true => exact absurd hnew (send_not_new hsend)
  | false =>
    unfold serve at hnew ⊢
    have hcalls : (h.plan cfg env request w).Calls env h request w := Handler.calls hsend
    generalize h.plan cfg env request w = p at hcalls hnew ⊢
    cases haccepts : p.accepts env with
    | none =>
      rw [Plan.run_of_none haccepts] at hnew ⊢
      exact hcalls.before.presented hnew
    | some id =>
      obtain ⟨r, hr, rfl, hx, hcode, hopen, hfresh⟩ := Plan.accepts_row haccepts
      rw [Plan.run_of_some haccepts] at hnew ⊢
      rcases hcalls.after with hkeeps | ⟨hworld, hgiven, hlogin⟩
      · obtain ⟨s', hnew', hid⟩ := hnew.before (hkeeps (p.world.consume r.id)).sessions
        rw [← hid]
        exact hcalls.before.presented hnew'
      · rw [hworld] at hr hfresh hnew ⊢
        rw [← hcode] at hgiven
        exact code_presented hr hopen hfresh hx hgiven (hlogin _) hnew

def Serves (cfg : AuthConfig) (env : Externals) (w : World) (l : ServerLabel) (w' : World) : Prop :=
  l.perform cfg env w = w'

/-- Authentication soundness: wherever a request stands in a run from any store, it opens
sessions only of accounts whose credential it presents. -/
theorem sessions_are_authenticated {log : List ServerLabel} (hrun : Run (Serves cfg env) w log w')
    {before after : List ServerLabel} (hlog : log = before ++ .request h request :: after) :
    ∃ t t', Run (Serves cfg env) w before t ∧ t' = (serve cfg env h request t).1 ∧
      Run (Serves cfg env) t' after w' ∧
      ∀ s, NewSession t t' s → Presented env h request t t' s.userID := by
  subst hlog
  obtain ⟨t, hbefore, hrest⟩ := hrun.of_append
  obtain ⟨t', hstep, hafter⟩ := hrest.of_cons
  have hserve : t' = (serve cfg env h request t).1 := hstep.symm
  subst hserve
  exact ⟨t, _, hbefore, rfl, hafter, fun s hnew => serve_presented hnew⟩

end

/-- The store after one code was sent. -/
def afterSend : World := (serve openConfig .unary .sendCode sendRequest (World.fresh .unary 0)).1

/-- The store after a login with this code. -/
def afterLogin : World := (serve openConfig .unary .userLogin loginRequest afterSend).1

theorem first_login_is_authenticated :
    Presented .unary .userLogin loginRequest afterSend afterLogin firstUserID := by
  have hrun : Run (Serves openConfig .unary) (World.fresh .unary 0)
      ([.request .sendCode sendRequest] ++ [.request .userLogin loginRequest]) afterLogin :=
    Run.append (Run.single rfl) (Run.single rfl)
  obtain ⟨t, t', hbefore, rfl, -, hpresented⟩ := sessions_are_authenticated hrun rfl
  have ht : t = afterSend :=
    hbefore.unique (Run.single rfl) fun _ _ _ _ h h' => h.symm.trans h'
  subst ht
  have hnone : afterSend.db.authSessions.rows = [] := by decide +kernel
  have hsome : ∃ s ∈ afterLogin.db.authSessions.rows, s.userID = firstUserID := by
    decide +kernel
  obtain ⟨s, hs, hid⟩ := hsome
  rw [← hid]
  refine hpresented s ⟨hs, ?_⟩
  rw [hnone]
  exact fun old hold => absurd hold List.not_mem_nil

end PapeSdk
