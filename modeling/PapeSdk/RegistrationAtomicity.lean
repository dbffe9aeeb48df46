import PapeSdk.AccountFrames

/-!
When a failed registration leaves something behind. A login by code writes the
account and its session before it sets the password that came along. A request
whose code is accepted and whose password is refused after that is the only one
that fails with changed tables, as long as no statement of the database fails.
-/

namespace PapeSdk

open KeyedTables Identifiers EventRuns

/-- `validatePassword` or bcrypt refuses the password. -/
def passwordRefused (password : String) : Bool :=
  password.utf8ByteSize < 6 || 72 < password.utf8ByteSize

/-- The request passes its guards and its code is accepted, so it logs in to `x`. -/
def Handler.Reaches (cfg : AuthConfig) (env : Externals) (request : Request) (w : World)
    (x : String) : Handler → Prop
  | .userLogin => ∃ form, LoginByCode cfg env request w false form x ∧
      pickSMS env w x (form.get "code") (uniqueScenes (loginScenes form)) ≠ none
  | .mobileRegister | .emailRegister => ∃ form, LoginByCode cfg env request w true form x ∧
      pickSMS env w x (form.get "code") (uniqueScenes (loginScenes form)) ≠ none
  | .userCenterRegister => RegisterByCode cfg env request w x ∧
      pickSMS env w x (request.post.get "code") ["register"] ≠ none
  | _ => False

/-- The password that a login by code brings along for the account of `x`, if it is to be used. -/
def Handler.newPassword (request : Request) (w : World) (x : String) : Handler → String
  | .userCenterRegister => request.post.get "password"
  | _ =>
    if userHasPassword ((userByPhoneRow w x).getD User.zero) then ""
    else (request.form.toOption.getD []).get "password"

/-- A password is refused after the account and its session were written. -/
def Handler.RefusesLate (cfg : AuthConfig) (env : Externals) (request : Request) (w : World)
    (h : Handler) : Prop :=
  ∃ x, h.Reaches cfg env request w x ∧ h.newPassword request w x ≠ "" ∧
    passwordRefused (h.newPassword request w x) = true

/-- Neither the insert of an account for `x` nor that of a session violates a constraint. -/
structure InsertsSucceed (env : Externals) (w : World) (x : String) : Prop where
  account : userByPhoneRow w x = none → ∀ row : UserRow, row.phone = x →
    row.email = (if hasAt x then some x else none) → w.db.insertUser row ≠ none
  session : ∀ userID, w.db.authSessions.insert? (newSession env w userID) ≠ none

/-- No statement of the request fails. -/
def Handler.StatementsSucceed (cfg : AuthConfig) (env : Externals) (request : Request) (w : World)
    (h : Handler) : Prop :=
  ∀ x, h.Reaches cfg env request w x → InsertsSucceed env w x

/-- A request that fails leaves the accounts and the sessions as they were. -/
def AllOrNothing (w : World) (r : World × Reply) : Prop :=
  (∃ e, r.2 = .error e) → r.1.db.users = w.db.users ∧ r.1.db.authSessions = w.db.authSessions

section
variable {cfg : AuthConfig} {env : Externals} {request : Request} {w w' : World} {x : String}
  {h : Handler}

theorem passwordHash_result (env : Externals) (w : World) (password : String) :
    (∃ e, (passwordHash env w password).2 = .error e) ↔ passwordRefused password = true := by
  unfold passwordHash validatePassword passwordRefused
  by_cases hshort : password.utf8ByteSize < 6
  · simp [hshort]
  by_cases hlong : 72 < password.utf8ByteSize
  · simp [hshort, hlong]
  · simp [hshort, hlong]

theorem setPassword_result (env : Externals) (w : World) (userID : ℕ) (password : String) :
    (∃ e, (setPassword env w userID password).2 = .error e) ↔ passwordRefused password = true := by
  rw [← passwordHash_result env w password]
  unfold setPassword
  rcases passwordHash env w password with ⟨v, e | hash⟩
  · simp
  · simp [setPasswordHash]

theorem setPassword_sessions (env : Externals) (w : World) (userID : ℕ) (password : String) :
    (setPassword env w userID password).1.db.authSessions = w.db.authSessions := by
  obtain ⟨n, -, hworld⟩ := passwordHash_world env w password
  unfold setPassword
  rcases hcall : passwordHash env w password with ⟨v, e | hash⟩
  · rw [hcall] at hworld
    simp only at hworld
    rw [hworld]
  · rw [hcall] at hworld
    simp only at hworld
    rw [hworld]
    rfl

/-- The account just inserted gets its session. -/
theorem created_succeeds {row : UserRow} {db : Db} (hinsert : w.db.insertUser row = some db)
    (hlive : row.deletedAt = none) (hsucceed : InsertsSucceed env w x) :
    ∃ w' u, issueAuthSession env { w with db := db } w.db.nextUserID = (w', .ok u) ∧
      ∃ s, w'.db.authSessions.rows = w.db.authSessions.rows ++ [s] := by
  obtain ⟨users, husers, rfl⟩ := Db.insertUser_some hinsert
  have hrow : { row with id := w.db.nextUserID } ∈ users.rows :=
    (Table.mem_insert? husers).mpr (Or.inr rfl)
  obtain ⟨w', u, hissue, hrows⟩ := issueAuthSession_succeeds
    (w := { w with db := { w.db with users := users, userSequence := some w.db.nextUserID } })
    hrow (UserRow.isLive_iff.mpr ⟨rfl, hlive⟩) (hsucceed.session w.db.nextUserID)
  exact ⟨w', u, hissue, _, hrows⟩

theorem createAccount_succeeds (hx : normalizeAccount env x = .ok x) (hat : hasAt x = true)
    (hnone : userByPhoneRow w x = none) (hsucceed : InsertsSucceed env w x) :
    ∃ row db, row.answersTo x = true ∧ row.deletedAt = none ∧ w.db.insertUser row = some db ∧
      createAccount env w "" x "" =
        ({ w with db := db }, .ok ((userByPhoneRow { w with db := db } x).getD User.zero)) := by
  have hne : x ≠ "" := by
    intro hempty
    rw [hempty] at hat
    cases hat
  have hinsert := hsucceed.account hnone
    { id := 0, phone := x, email := some x, passwordHash := some "", tokenRevokedAt := some 0
      createdAt := w.now, lastLoginAt := w.now } rfl (by rw [if_pos hat])
  obtain ⟨db, hdb⟩ := Option.ne_none_iff_exists'.mp hinsert
  refine ⟨_, db, by simp [UserRow.answersTo], rfl, hdb, ?_⟩
  simp only [createAccount, validateBindings_email ((isIdentifier_of_normalize hx).isEmail hat),
    primaryOf, emailValue, if_true, if_neg hne, hdb]

theorem getOrCreateUser_succeeds (hx : normalizeAccount env x = .ok x)
    (hsucceed : InsertsSucceed env w x) :
    ∃ w' u created, getOrCreateUser env w x = (w', .ok (u, created)) ∧
      ∃ s, w'.db.authSessions.rows = w.db.authSessions.rows ++ [s] := by
  unfold getOrCreateUser
  simp only [hx]
  cases haccount : userByPhoneRow w x with
  | some u =>
    obtain ⟨row, hrow, rfl⟩ := Option.map_eq_some_iff.mp haccount
    have hlive : row.isLive row.id = true :=
      UserRow.isLive_iff.mpr ⟨rfl, (UserRow.answersTo_iff.mp (Table.first?_holds hrow)).2⟩
    obtain ⟨w', u, hissue, hrows⟩ :=
      issueAuthSession_succeeds (Table.mem_of_first? hrow) hlive (hsucceed.session row.id)
    simp only [UserRow.scan_id, hissue]
    exact ⟨w', u, false, rfl, _, hrows⟩
  | none =>
    by_cases hat : hasAt x = true
    · obtain ⟨row, db, hrow, hlive, hinsert, hcreate⟩ :=
        createAccount_succeeds hx hat haccount hsucceed
      obtain ⟨w', u, hissue, s, hrows⟩ := created_succeeds hinsert hlive hsucceed
      simp only [hat, if_true, hcreate, (insertUser_bound haccount hrow hinsert).2.2.2, hissue]
      exact ⟨w', u, true, rfl, s, hrows⟩
    · simp only [hat]
      unfold createUserRow
      have hinsert := hsucceed.account haccount
        { id := 0, phone := x, createdAt := w.now, lastLoginAt := w.now } rfl
        (by simp [hat])
      obtain ⟨db, hdb⟩ := Option.ne_none_iff_exists'.mp hinsert
      obtain ⟨w', u, hissue, s, hrows⟩ := created_succeeds hdb rfl hsucceed
      simp only [hdb, hissue]
      exact ⟨w', u, true, rfl, s, hrows⟩

/-- The request logged in, and it fails exactly for a bad password. -/
structure LoggedIn (w : World) (r : World × Reply) (bad : Prop) : Prop where
  fails : (∃ e, r.2 = .error e) ↔ bad
  written : r.1.db.authSessions ≠ w.db.authSessions

theorem LoggedIn.allOrNothing {r : World × Reply} {bad : Prop} (hlogged : LoggedIn w r bad) :
    AllOrNothing w r ↔ ¬ bad := by
  constructor
  · intro hsame hbad
    exact hlogged.written (hsame (hlogged.fails.mpr hbad)).2
  · intro hgood herror
    exact absurd (hlogged.fails.mp herror) hgood

theorem sessions_grew {s : AuthSession}
    (h : w'.db.authSessions.rows = w.db.authSessions.rows ++ [s]) :
    w'.db.authSessions ≠ w.db.authSessions := by
  intro hsame
  rw [hsame] at h
  have hlength := congrArg List.length h
  simp at hlength

theorem loginWithCode_result (hx : normalizeAccount env x = .ok x)
    (hsucceed : InsertsSucceed env w x) (form : Form) (existing : User) :
    LoggedIn w (loginWithCode env form x existing w)
      (form.get "password" ≠ "" ∧ userHasPassword existing = false ∧
        passwordRefused (form.get "password") = true) := by
  obtain ⟨v, u, created, hcall, s, hrows⟩ := getOrCreateUser_succeeds hx hsucceed
  have hwritten : v.db.authSessions ≠ w.db.authSessions := sessions_grew hrows
  have hsessions := setPassword_sessions env v u.id (form.get "password")
  have hresult := setPassword_result env v u.id (form.get "password")
  unfold loginWithCode
  simp only [hcall]
  by_cases hset : form.get "password" ≠ "" ∧ userHasPassword existing = false
  · simp only [hset, ne_eq, not_false_eq_true, and_self, if_true, true_and]
    rcases hpassword : setPassword env v u.id (form.get "password") with ⟨v', e | _⟩
    · rw [hpassword] at hsessions hresult
      refine ⟨⟨fun _ => hresult.mp ⟨e, rfl⟩, fun _ => ⟨e, rfl⟩⟩, ?_⟩
      show v'.db.authSessions ≠ w.db.authSessions
      rw [hsessions]
      exact hwritten
    · rw [hpassword] at hsessions hresult
      refine ⟨⟨fun herror => ?_, fun hbad => ?_⟩, ?_⟩
      · obtain ⟨e, he⟩ := herror
        cases he
      · obtain ⟨e, he⟩ := hresult.mpr hbad
        cases he
      · show v'.db.authSessions ≠ w.db.authSessions
        rw [hsessions]
        exact hwritten
  · rw [if_neg hset]
    refine ⟨⟨fun herror => ?_, fun hbad => absurd ⟨hbad.1, hbad.2.1⟩ hset⟩, hwritten⟩
    obtain ⟨e, he⟩ := herror
    cases he

theorem registerWithCode_result (hx : normalizeAccount env x = .ok x)
    (hsucceed : InsertsSucceed env w x) (password : String) :
    LoggedIn w (registerWithCode env x password w)
      (password ≠ "" ∧ passwordRefused password = true) := by
  obtain ⟨v, u, created, hcall, s, hrows⟩ := getOrCreateUser_succeeds hx hsucceed
  have hwritten : v.db.authSessions ≠ w.db.authSessions := sessions_grew hrows
  unfold registerWithCode
  simp only [hcall]
  by_cases hempty : password = ""
  · rw [if_pos hempty]
    refine ⟨⟨fun herror => ?_, fun hbad => absurd hempty hbad.1⟩, hwritten⟩
    obtain ⟨e, he⟩ := herror
    cases he
  rw [if_neg hempty]
  cases created with
  | true =>
    have hsessions := setPassword_sessions env v u.id password
    have hresult := setPassword_result env v u.id password
    rw [if_pos rfl]
    refine ⟨?_, by rw [answer, hsessions]; exact hwritten⟩
    simp only [ne_eq, hempty, not_false_eq_true, true_and]
    rw [← hresult]
    unfold answer
    rcases (setPassword env v u.id password).2 with e | _
    · simp [Except.map]
    · simp [Except.map]
  | false =>
    have hresult := passwordHash_result env v password
    have hdb := passwordHash_db env v password
    rw [if_neg Bool.false_ne_true]
    simp only [ne_eq, hempty, not_false_eq_true, true_and]
    rw [← hresult]
    rcases hhash : passwordHash env v password with ⟨v', e | hash⟩
    all_goals
      rw [hhash] at hdb
      refine ⟨by simp, ?_⟩
      show v'.db.authSessions ≠ w.db.authSessions
      rw [hdb]
      exact hwritten

theorem insertUser_eq_none {db : Db} {row : UserRow} :
    db.insertUser row = none ↔ db.users.insert? { row with id := db.nextUserID } = none := by
  unfold Db.insertUser
  split
  · next heq => simp [heq]
  · next heq => simp [heq]

/-- The consumption of a code takes nothing that an insert needs. -/
theorem InsertsSucceed.consume (hsucceed : InsertsSucceed env w x) (id : ℕ) :
    InsertsSucceed env (w.consume id) x := by
  refine ⟨fun hnone row hphone hemail hfail => ?_, hsucceed.session⟩
  have hinsert := insertUser_eq_none.mp hfail
  have hsame : w.db.insertUser row = none := insertUser_eq_none.mpr hinsert
  exact hsucceed.account hnone row hphone hemail hsame

theorem LoggedIn.of_consumed {r : World × Reply} {bad : Prop} {id : ℕ}
    (hlogged : LoggedIn (w.consume id) r bad) : LoggedIn w r bad :=
  ⟨hlogged.fails, hlogged.written⟩

theorem run_checkAny {address code : String} {scenes : List String}
    {cont : World → World × Reply} {id : ℕ}
    (hpick : pickSMS env w address code (uniqueScenes scenes) = some id) :
    (Plan.checkAny w address code scenes cont).run env = cont (w.consume id) :=
  Plan.run_of_some (p := .checkAny w address code scenes cont) hpick

theorem run_checkScene {address scene code : String} {cont : World → World × Reply} {id : ℕ}
    (hpick : pickSMS env w address code [scene] = some id) :
    (Plan.checkScene w address scene code cont).run env = cont (w.consume id) :=
  Plan.run_of_some (p := .checkScene w address scene code cont) hpick

theorem run_checkAny_none {address code : String} {scenes : List String}
    {cont : World → World × Reply}
    (hpick : pickSMS env w address code (uniqueScenes scenes) = none) :
    ((Plan.checkAny w address code scenes cont).run env).1 = w :=
  Plan.run_of_none (p := .checkAny w address code scenes cont) hpick

theorem run_checkScene_none {address scene code : String} {cont : World → World × Reply}
    (hpick : pickSMS env w address code [scene] = none) :
    ((Plan.checkScene w address scene code cont).run env).1 = w :=
  Plan.run_of_none (p := .checkScene w address scene code cont) hpick

theorem loginLike_reaches {isNew : Bool} {form : Form}
    (hby : LoginByCode cfg env request w isNew form x)
    (hpick : pickSMS env w x (form.get "code") (uniqueScenes (loginScenes form)) ≠ none)
    (hsucceed : InsertsSucceed env w x) :
    LoggedIn w ((loginLike cfg env request w isNew).run env)
      (form.get "password" ≠ "" ∧ userHasPassword ((userByPhoneRow w x).getD User.zero) = false ∧
        passwordRefused (form.get "password") = true) := by
  obtain ⟨id, hid⟩ := Option.ne_none_iff_exists'.mp hpick
  rw [loginLike_byCode hby, run_checkAny hid]
  exact (loginWithCode_result hby.idem (hsucceed.consume id) form _).of_consumed

theorem loginLike_misses {isNew : Bool}
    (hmiss : ∀ form x, LoginByCode cfg env request w isNew form x →
      pickSMS env w x (form.get "code") (uniqueScenes (loginScenes form)) = none) :
    AllOrNothing w ((loginLike cfg env request w isNew).run env) := by
  intro herror
  rcases loginLike_cases cfg env request w isNew with ⟨form, x, hby⟩ | ⟨e, hplan⟩ |
    ⟨phone, password, v, result, hlogin, hplan⟩
  · rw [loginLike_byCode hby, run_checkAny_none (hmiss form x hby)]
    exact ⟨rfl, rfl⟩
  · rw [hplan]
    exact ⟨rfl, rfl⟩
  · rw [hplan] at herror ⊢
    unfold passwordLogin at hlogin
    split at hlogin
    · cases hlogin
      exact ⟨rfl, rfl⟩
    rcases issueAuthSession_cases hlogin with ⟨e, n, -, -, rfl⟩ | ⟨row, sessions, -, -, -, rfl, -⟩
    · exact ⟨rfl, rfl⟩
    · obtain ⟨e, he⟩ := herror
      cases he

/-- The password that counts once the account of a login is known. -/
theorem newPassword_login {form : Form} (hform : request.form = .ok form)
    (hregister : h ≠ .userCenterRegister) :
    (h.newPassword request w x ≠ "" ∧ passwordRefused (h.newPassword request w x) = true) ↔
      (form.get "password" ≠ "" ∧ userHasPassword ((userByPhoneRow w x).getD User.zero) = false ∧
        passwordRefused (form.get "password") = true) := by
  have hnew : h.newPassword request w x =
      if userHasPassword ((userByPhoneRow w x).getD User.zero) then "" else form.get "password" := by
    cases h with
    | userCenterRegister => exact absurd rfl hregister
    | _ => simp only [Handler.newPassword, hform, Except.toOption, Option.getD_some]
  rw [hnew]
  cases userHasPassword ((userByPhoneRow w x).getD User.zero) with
  | true => simp
  | false => simp

theorem serve_reaches (hreach : h.Reaches cfg env request w x)
    (hsucceed : InsertsSucceed env w x) :
    LoggedIn w (serve cfg env h request w) (h.newPassword request w x ≠ "" ∧
      passwordRefused (h.newPassword request w x) = true) := by
  unfold serve
  cases h with
  | userLogin =>
    obtain ⟨form, hby, hpick⟩ := hreach
    rw [Handler.plan, userLogin, newPassword_login hby.parsed (by decide)]
    exact loginLike_reaches hby hpick hsucceed
  | mobileRegister =>
    obtain ⟨form, hby, hpick⟩ := hreach
    rw [Handler.plan, mobileRegister, newPassword_login hby.parsed (by decide)]
    exact loginLike_reaches hby hpick hsucceed
  | emailRegister =>
    obtain ⟨form, hby, hpick⟩ := hreach
    rw [Handler.plan, emailRegister, newPassword_login hby.parsed (by decide)]
    exact loginLike_reaches hby hpick hsucceed
  | userCenterRegister =>
    obtain ⟨hby, hpick⟩ := hreach
    obtain ⟨id, hid⟩ := Option.ne_none_iff_exists'.mp hpick
    rw [Handler.plan, userCenterRegister_byCode hby, run_checkScene hid]
    exact (registerWithCode_result hby.idem (hsucceed.consume id) _).of_consumed
  | _ => exact absurd hreach id

theorem serve_misses (hlogin : h.isCodeLogin = true)
    (hmiss : ∀ x, ¬ h.Reaches cfg env request w x) :
    AllOrNothing w (serve cfg env h request w) := by
  unfold serve
  cases h with
  | userLogin =>
    rw [Handler.plan, userLogin]
    apply loginLike_misses
    intro form x hby
    by_contra hpick
    exact hmiss x ⟨form, hby, hpick⟩
  | mobileRegister =>
    rw [Handler.plan, mobileRegister]
    apply loginLike_misses
    intro form x hby
    by_contra hpick
    exact hmiss x ⟨form, hby, hpick⟩
  | emailRegister =>
    rw [Handler.plan, emailRegister]
    apply loginLike_misses
    intro form x hby
    by_contra hpick
    exact hmiss x ⟨form, hby, hpick⟩
  | userCenterRegister =>
    intro _
    rw [Handler.plan]
    rcases userCenterRegister_cases cfg env request w with ⟨x, hby⟩ | ⟨e, hplan⟩
    · have hpick : pickSMS env w x (request.post.get "code") ["register"] = none := by
        by_contra hpick
        exact hmiss x ⟨hby, hpick⟩
      rw [userCenterRegister_byCode hby, run_checkScene_none hpick]
      exact ⟨rfl, rfl⟩
    · rw [hplan]
      exact ⟨rfl, rfl⟩
  | _ => cases hlogin

/-- A request logs in to one identifier. -/
theorem Handler.Reaches.unique {y : String} (hx : h.Reaches cfg env request w x)
    (hy : h.Reaches cfg env request w y) : x = y := by
  have hlike : ∀ {isNew : Bool} {form form' : Form},
      LoginByCode cfg env request w isNew form x →
      LoginByCode cfg env request w isNew form' y → x = y := by
    intro isNew form form' hby hby'
    have hform : form = form' := Except.ok.inj (hby.parsed.symm.trans hby'.parsed)
    subst hform
    exact Except.ok.inj (hby.normalized.symm.trans hby'.normalized)
  cases h with
  | userLogin | mobileRegister | emailRegister =>
    obtain ⟨form, hby, -⟩ := hx
    obtain ⟨form', hby', -⟩ := hy
    exact hlike hby hby'
  | userCenterRegister => exact Except.ok.inj (hx.1.normalized.symm.trans hy.1.normalized)
  | _ => exact absurd hx id

/-- A registration is all or nothing exactly when its password is not refused late. -/
theorem registration_all_or_nothing_iff (hlogin : h.isCodeLogin = true)
    (hsucceed : h.StatementsSucceed cfg env request w) :
    AllOrNothing w (serve cfg env h request w) ↔ ¬ h.RefusesLate cfg env request w := by
  by_cases hreach : ∃ x, h.Reaches cfg env request w x
  · obtain ⟨x, hx⟩ := hreach
    rw [(serve_reaches hx (hsucceed x hx)).allOrNothing]
    apply not_congr
    constructor
    · intro hbad
      exact ⟨x, hx, hbad⟩
    · intro hlate
      obtain ⟨y, hy, hbad⟩ := hlate
      rw [hx.unique hy]
      exact hbad
  · have hmiss : ∀ x, ¬ h.Reaches cfg env request w x := fun x hx => hreach ⟨x, hx⟩
    refine ⟨fun _ hlate => ?_, fun _ => serve_misses hlogin hmiss⟩
    obtain ⟨x, hx, -⟩ := hlate
    exact hmiss x hx

/-- In a store without rows nothing stands in the way of an insert. -/
theorem insertsSucceed_of_empty (husers : w.db.users.rows = [])
    (hsessions : w.db.authSessions.rows = []) : InsertsSucceed env w x := by
  refine ⟨fun _ row _ _ => ?_, fun userID => ?_⟩
  · rw [ne_eq, insertUser_eq_none]
    obtain ⟨users, hinsert⟩ : ∃ users, w.db.users.insert? { row with id := w.db.nextUserID } =
        some users := Table.insert?_some (by simp [husers])
    rw [hinsert]
    exact Option.some_ne_none users
  · obtain ⟨sessions, hinsert⟩ : ∃ sessions, w.db.authSessions.insert?
        (newSession env w userID) = some sessions := Table.insert?_some (by simp [hsessions])
    rw [hinsert]
    exact Option.some_ne_none sessions

end

/-- A first login that asks for a password of three letters. -/
def shortPasswordRequest : Request :=
  { form := .ok [("phone", "13800000000"), ("code", "000000"), ("password", "abc")] }

theorem afterSend_succeeds (h : Handler) (request : Request) :
    h.StatementsSucceed openConfig .unary request afterSend :=
  fun _ _ => insertsSucceed_of_empty (by decide +kernel) (by decide +kernel)

theorem first_login_all_or_nothing_iff :
    AllOrNothing afterSend (serve openConfig .unary .userLogin loginRequest afterSend) ↔
      ¬ Handler.userLogin.RefusesLate openConfig .unary loginRequest afterSend :=
  registration_all_or_nothing_iff rfl (afterSend_succeeds .userLogin loginRequest)

/-- The login fails for its password and leaves the account and its session behind. -/
theorem failed_login_leaves_account :
    Handler.userLogin.StatementsSucceed openConfig .unary shortPasswordRequest afterSend ∧
    (serve openConfig .unary .userLogin shortPasswordRequest afterSend).2 =
      .error "密码至少需要 6 位" ∧
    afterSend.db.users.rows = [] ∧
    (serve openConfig .unary .userLogin shortPasswordRequest afterSend).1.db.users.rows.map
      UserRow.id = [firstUserID] ∧
    ¬ AllOrNothing afterSend
      (serve openConfig .unary .userLogin shortPasswordRequest afterSend) := by
  have hreply : (serve openConfig .unary .userLogin shortPasswordRequest afterSend).2 =
      .error "密码至少需要 6 位" := by decide +kernel
  have hbefore : afterSend.db.users.rows = [] := by decide +kernel
  have hafter : (serve openConfig .unary .userLogin shortPasswordRequest
      afterSend).1.db.users.rows.map UserRow.id = [firstUserID] := by decide +kernel
  refine ⟨afterSend_succeeds _ _, hreply, hbefore, hafter, fun hsame => ?_⟩
  have husers := (hsame ⟨_, hreply⟩).1
  rw [husers, hbefore] at hafter
  cases hafter

end PapeSdk
