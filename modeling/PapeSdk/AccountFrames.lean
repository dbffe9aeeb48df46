import PapeSdk.CodeLogins
import PapeSdk.StoreInvariant

/-!
What requests leave of the accounts. A row is kept when its id is, and under a
strict reading also a password that was set. Every handler that does not log in
by a code keeps the rows, except for the one that changes a proved password; a
login by a code may add one row, and sets no password but of the new account.
-/

namespace PapeSdk

open KeyedTables Identifiers EventRuns

/-- The same account; under `strict` it keeps a password that was set. -/
structure RowKept (strict : Prop) (r r' : UserRow) : Prop where
  id : r'.id = r.id
  hash : strict → r.passwordHash.getD "" ≠ "" → r'.passwordHash = r.passwordHash

/-- Every account was there before. -/
def AccountsKept (strict : Prop) (w w' : World) : Prop :=
  ∀ r' ∈ w'.db.users.rows, ∃ r ∈ w.db.users.rows, RowKept strict r r'

theorem RowKept.refl (strict : Prop) (r : UserRow) : RowKept strict r r := ⟨rfl, fun _ _ => rfl⟩

theorem RowKept.trans {strict : Prop} {r r' r'' : UserRow} (h : RowKept strict r r')
    (h' : RowKept strict r' r'') : RowKept strict r r'' := by
  refine ⟨h'.id.trans h.id, fun hstrict hset => ?_⟩
  have hsame := h.hash hstrict hset
  rw [h'.hash hstrict (by rw [hsame]; exact hset), hsame]

section
variable {strict : Prop} {cfg : AuthConfig} {env : Externals} {request : Request}
  {w w' w'' : World}

theorem AccountsKept.of_same (h : w'.db.users = w.db.users) : AccountsKept strict w w' := by
  intro r hr
  rw [h] at hr
  exact ⟨r, hr, RowKept.refl strict r⟩

theorem AccountsKept.refl (w : World) : AccountsKept strict w w := AccountsKept.of_same rfl

theorem AccountsKept.trans (h : AccountsKept strict w w') (h' : AccountsKept strict w' w'') :
    AccountsKept strict w w'' := by
  intro r'' hr''
  obtain ⟨r', hr', hkept'⟩ := h' r'' hr''
  obtain ⟨r, hr, hkept⟩ := h r' hr'
  exact ⟨r, hr, hkept.trans hkept'⟩

theorem AccountsKept.of_updated {p : UserRow → Bool} {f : UserRow → UserRow}
    (hrows : w'.db.users.rows = w.db.users.rows.map fun r => if p r then f r else r)
    (hf : ∀ r ∈ w.db.users.rows, p r = true → RowKept strict r (f r)) :
    AccountsKept strict w w' := by
  intro r' hr'
  rw [hrows] at hr'
  rcases Table.of_mem_updated hr' with ⟨r, hr, hp, rfl⟩ | ⟨hr, -⟩
  · exact ⟨r, hr, hf r hr hp⟩
  · exact ⟨r', hr, RowKept.refl strict r'⟩

/-- The changes that write a password, of an account that is there or of a new one. -/
def Effect.setsPassword : Effect → Bool
  | .create | .touch (.password _ _) => true
  | _ => false

theorem Change.accountsKept {k : Effect} (h : Change env w k w') (hk : k.setsPassword = false) :
    AccountsKept strict w w' := by
  cases h with
  | create => cases hk
  | draw | comet | revokeSession => exact AccountsKept.of_same rfl
  | touch t =>
    cases t with
    | password => cases hk
    | override | longToken => exact AccountsKept.of_updated rfl fun r _ _ => ⟨rfl, fun _ _ => rfl⟩
  | login | refresh | revokeTokens =>
    exact AccountsKept.of_updated rfl fun r _ _ => ⟨rfl, fun _ _ => rfl⟩
  | rebind row phone email users hrow hlive hbound husers =>
    exact AccountsKept.of_updated (Table.update?_rows husers) fun r _ _ => ⟨rfl, fun _ _ => rfl⟩
  | delete p userID now users hp husers =>
    exact AccountsKept.of_updated (Table.update?_rows husers) fun r _ _ => ⟨rfl, fun _ _ => rfl⟩
  | restore id phone users hphone husers =>
    exact AccountsKept.of_updated (Table.update?_rows husers) fun r _ _ => ⟨rfl, fun _ _ => rfl⟩
  | hardDelete id =>
    intro r hr
    exact ⟨r, (Table.mem_delete.mp hr).1, RowKept.refl strict r⟩

theorem Makes.accountsKept {α : Type} {k : Effect} {r : World × Except String α}
    (h : Makes env w k r) (hk : k.setsPassword = false) : AccountsKept strict w r.1 := by
  rcases h.world with ⟨n, hn, hworld⟩ | hchange
  · exact AccountsKept.of_same (by rw [hworld])
  · exact hchange.accountsKept hk

theorem issueAuthSession_kept (w : World) (userID : ℕ) :
    AccountsKept strict w (issueAuthSession env w userID).1 :=
  (issueAuthSession_makes w userID).accountsKept rfl

theorem passwordLogin_kept (w : World) (phone password : String) :
    AccountsKept strict w (passwordLogin env w phone password).1 := by
  unfold passwordLogin
  split
  · exact AccountsKept.refl w
  · exact issueAuthSession_kept w _

theorem refreshByToken_kept (w : World) (token : String) :
    AccountsKept strict w (refreshByToken env w token).1 :=
  (refreshByToken_makes w token).accountsKept rfl

theorem passwordHash_db (env : Externals) (w : World) (password : String) :
    (passwordHash env w password).1.db = w.db := by
  obtain ⟨n, -, hworld⟩ := passwordHash_world env w password
  rw [hworld]

theorem passwordHash_kept (w : World) (password : String) :
    AccountsKept strict w (passwordHash env w password).1 :=
  AccountsKept.of_same (by rw [passwordHash_db])

/-- A password is set for an account without one, or nobody asked to keep it. -/
theorem setPassword_kept (w : World) (userID : ℕ) (password : String)
    (hempty : strict → ∀ r ∈ w.db.users.rows, r.id = userID → r.passwordHash.getD "" = "") :
    AccountsKept strict w (setPassword env w userID password).1 := by
  have hhash := passwordHash_db env w password
  unfold setPassword
  split
  · next v e heq =>
    rw [heq] at hhash
    exact AccountsKept.of_same (by rw [hhash])
  · next v hash heq =>
    rw [heq] at hhash
    have hsame : AccountsKept strict w v := AccountsKept.of_same (by rw [hhash])
    apply hsame.trans
    refine AccountsKept.of_updated rfl fun r hr hid => ⟨rfl, fun hstrict hset => ?_⟩
    rw [hhash] at hr
    exact absurd (hempty hstrict r hr (by simpa using hid)) hset

theorem setPassword_kept_of_not (hstrict : ¬ strict) (w : World) (userID : ℕ) (password : String) :
    AccountsKept strict w (setPassword env w userID password).1 :=
  setPassword_kept w userID password fun h => absurd h hstrict

theorem updatePhone_kept (w : World) (userID : ℕ) (account : String) :
    AccountsKept strict w (updatePhone env w userID account).1 :=
  (updatePhone_makes w userID account).accountsKept rfl

theorem unbindVerified_kept (w : World) (id : ℕ) (kind retained : String) :
    AccountsKept strict w (unbindVerified env w id kind retained).1 :=
  (unbindVerified_makes w id kind retained).accountsKept rfl

theorem deleteUser_kept (w : World) (userID : ℕ) :
    AccountsKept strict w (deleteUser w userID).1 := by
  unfold deleteUser
  split
  · exact AccountsKept.refl w
  · next users husers =>
    exact AccountsKept.of_updated (Table.update?_rows husers) fun r _ _ => ⟨rfl, fun _ _ => rfl⟩

theorem unbindAndDeleteUser_kept (w : World) (userID : ℕ) :
    AccountsKept strict w (unbindAndDeleteUser request w userID false).1 := by
  unfold unbindAndDeleteUser
  split
  · exact AccountsKept.refl w
  split
  · exact AccountsKept.refl w
  · exact deleteUser_kept w userID

/-- What a plan does before it verifies a code and after it keeps the accounts. -/
structure Plan.KeepsAccounts (strict : Prop) (w : World) (p : Plan) : Prop where
  before : AccountsKept strict w p.world
  after : ∀ v, v.db.users = p.world.db.users → AccountsKept strict v (p.next v).1

theorem Plan.KeepsAccounts.run {p : Plan} (h : p.KeepsAccounts strict w) :
    AccountsKept strict w (p.run env).1 := by
  cases haccepts : p.accepts env with
  | none =>
    rw [Plan.run_of_none haccepts]
    exact h.before
  | some id =>
    rw [Plan.run_of_some haccepts]
    have hconsumed : AccountsKept strict p.world (p.world.consume id) := AccountsKept.of_same rfl
    exact (h.before.trans hconsumed).trans (h.after _ rfl)

theorem Plan.KeepsAccounts.reply {result : Reply} (h : AccountsKept strict w w') :
    Plan.KeepsAccounts strict w (.reply w' result) :=
  ⟨h, fun v _ => AccountsKept.refl v⟩

theorem Plan.KeepsAccounts.refused {result : Reply} :
    Plan.KeepsAccounts strict w (.reply w result) :=
  Plan.KeepsAccounts.reply (AccountsKept.refl w)

theorem answer_kept {r : World × Except String Unit} (h : AccountsKept strict w r.1) :
    AccountsKept strict w (answer r).1 := h

/-- An attempt to hash a password for nobody. -/
theorem hashOnly_kept (w : World) (password : String) :
    AccountsKept strict w (match passwordHash env w password with
      | (w, .error e) => ((w, .error e) : World × Reply)
      | (w, .ok _) => (w, .ok none)).1 := by
  have hhash : AccountsKept strict w (passwordHash env w password).1 := passwordHash_kept w password
  split
  all_goals
    next heq =>
    rw [heq] at hhash
    exact hhash

theorem hashOnly_plan (password : String) :
    (match passwordHash env w password with
      | (w, .error e) => Plan.reply w (.error e)
      | (w, .ok _) => Plan.reply w (.ok none)).KeepsAccounts strict w := by
  have hhash : AccountsKept strict w (passwordHash env w password).1 := passwordHash_kept w password
  split
  all_goals
    next heq =>
    rw [heq] at hhash
    exact Plan.KeepsAccounts.reply hhash

theorem refreshToken_keepsAccounts : (refreshToken env request w).KeepsAccounts strict w := by
  unfold refreshToken
  split
  · exact Plan.KeepsAccounts.refused
  next form _ =>
  have hrefresh : AccountsKept strict w (refreshByToken env w
      (orDefault (form.get "refresh_token") (form.get "refreshToken"))).1 :=
    refreshByToken_kept w _
  split
  all_goals
    next heq =>
    rw [heq] at hrefresh
    exact Plan.KeepsAccounts.reply hrefresh

/-- The account found for an identifier is the row with its id. -/
theorem userByPhoneRow_hash {x : String} {u : User} {v : World} (hu : userByPhoneRow w x = some u)
    (hempty : userHasPassword u = false) (hsame : v.db.users = w.db.users) :
    ∀ r ∈ v.db.users.rows, r.id = u.id → r.passwordHash.getD "" = "" := by
  intro r hr hid
  obtain ⟨row, hrow, rfl⟩ := Option.map_eq_some_iff.mp hu
  rw [hsame] at hr
  rw [w.db.user_eq_of_id hr (Table.mem_of_first? hrow) hid]
  simpa [userHasPassword, UserRow.scan, UserRow.scanWith] using hempty

theorem resetPassword_kept {form : Form} {u : Option User} {v : World}
    (hempty : strict → ∀ a, u = some a →
      ∀ r ∈ v.db.users.rows, r.id = a.id → r.passwordHash.getD "" = "") :
    AccountsKept strict v (resetPassword cfg env form u v).1 := by
  unfold resetPassword
  split
  · exact AccountsKept.refl v
  split
  · split
    · exact hashOnly_kept v _
    · exact AccountsKept.refl v
  · next a =>
    split
    · exact answer_kept (setPassword_kept v a.id _ fun hstrict => hempty hstrict a rfl)
    · exact AccountsKept.refl v

/-- By code only: a code that is looked at belongs to an account without a password. -/
theorem passwordless_of_policy {x : String} {u : Option User} {v : World}
    (hu : userByPhone env w x = .ok u)
    (hpolicy : ¬ (cfg.smsOnlyRegister && (u.isNone || userHasPassword (u.getD User.zero))) = true)
    (hsame : v.db.users = w.db.users) (hstrict : cfg.smsOnlyRegister = true) :
    ∀ a, u = some a → ∀ r ∈ v.db.users.rows, r.id = a.id → r.passwordHash.getD "" = "" := by
  intro a ha
  subst ha
  have hempty : userHasPassword a = false := by simpa [hstrict] using hpolicy
  unfold userByPhone at hu
  split at hu
  · cases hu
  · exact userByPhoneRow_hash (Except.ok.inj hu) hempty hsame

theorem passwordReset_keepsAccounts :
    (passwordReset cfg env request w).KeepsAccounts (cfg.smsOnlyRegister = true) w := by
  unfold passwordReset
  split
  · exact Plan.KeepsAccounts.refused
  next form _ =>
  split
  · exact Plan.KeepsAccounts.refused
  split
  · exact Plan.KeepsAccounts.refused
  simp only
  split
  · exact Plan.KeepsAccounts.refused
  next u hu =>
  split
  · split
    · exact hashOnly_plan _
    · exact Plan.KeepsAccounts.refused
  · next hpolicy =>
    refine ⟨AccountsKept.refl w, fun v hsame => ?_⟩
    exact resetPassword_kept (passwordless_of_policy hu hpolicy hsame)

theorem recoverWithCode_kept {u : Option User} {password : String} {v : World}
    (hempty : strict → ∀ a, u = some a →
      ∀ r ∈ v.db.users.rows, r.id = a.id → r.passwordHash.getD "" = "") :
    AccountsKept strict v (recoverWithCode env u password v).1 := by
  unfold recoverWithCode
  split
  · exact hashOnly_kept v password
  · next a => exact answer_kept (setPassword_kept v a.id _ fun hstrict => hempty hstrict a rfl)

theorem userCenterRecoverPassword_keepsAccounts :
    (userCenterRecoverPassword cfg env request w).KeepsAccounts (cfg.smsOnlyRegister = true) w := by
  unfold userCenterRecoverPassword
  split
  · exact Plan.KeepsAccounts.refused
  split
  · exact Plan.KeepsAccounts.refused
  simp only
  split
  · exact Plan.KeepsAccounts.refused
  split
  · exact Plan.KeepsAccounts.refused
  next u hu =>
  split
  · exact hashOnly_plan _
  · next hpolicy =>
    refine ⟨AccountsKept.refl w, fun v hsame => ?_⟩
    exact recoverWithCode_kept (passwordless_of_policy hu hpolicy hsame)

theorem accountBindPhone_keepsAccounts :
    (accountBindPhone env request w).KeepsAccounts strict w := by
  unfold accountBindPhone
  split
  · exact Plan.KeepsAccounts.refused
  split
  · exact Plan.KeepsAccounts.refused
  split
  · exact Plan.KeepsAccounts.refused
  simp only
  split
  · exact Plan.KeepsAccounts.refused
  · exact ⟨AccountsKept.refl w, fun v _ => answer_kept (updatePhone_kept v _ _)⟩

theorem cancellationCodeVerify_keepsAccounts :
    (cancellationCodeVerify request w).KeepsAccounts strict w := by
  unfold cancellationCodeVerify
  split
  · exact Plan.KeepsAccounts.refused
  split
  · exact Plan.KeepsAccounts.refused
  · exact ⟨AccountsKept.refl w, fun v _ => AccountsKept.refl v⟩

theorem accountUnbind_keepsAccounts : (accountUnbind env request w).KeepsAccounts strict w := by
  unfold accountUnbind
  split
  · exact Plan.KeepsAccounts.refused
  split
  · exact Plan.KeepsAccounts.refused
  split
  · exact Plan.KeepsAccounts.refused
  · exact ⟨AccountsKept.refl w, fun v _ => answer_kept (unbindVerified_kept v _ _ _)⟩

theorem userCenterDeleteAccount_keepsAccounts :
    (userCenterDeleteAccount env request w).KeepsAccounts strict w := by
  have hlogin : AccountsKept strict w (passwordLogin env w (request.post.get "phone")
      (request.post.get "password")).1 := passwordLogin_kept w _ _
  unfold userCenterDeleteAccount
  split
  · exact Plan.KeepsAccounts.refused
  split
  · next heq =>
    rw [heq] at hlogin
    exact Plan.KeepsAccounts.reply hlogin
  · next w' u heq =>
    rw [heq] at hlogin
    exact Plan.KeepsAccounts.reply (hlogin.trans (answer_kept (unbindAndDeleteUser_kept w' u.id)))

theorem userCenterChangePhone_keepsAccounts :
    (userCenterChangePhone env request w).KeepsAccounts strict w := by
  have hlogin : AccountsKept strict w (passwordLogin env w (request.post.get "old_phone")
      (request.post.get "password")).1 := passwordLogin_kept w _ _
  unfold userCenterChangePhone
  split
  · exact Plan.KeepsAccounts.refused
  split
  · exact Plan.KeepsAccounts.refused
  split
  · next heq =>
    rw [heq] at hlogin
    exact Plan.KeepsAccounts.reply hlogin
  · next w' u heq =>
    rw [heq] at hlogin
    exact ⟨hlogin, fun v _ => answer_kept (updatePhone_kept v _ _)⟩

variable {h : Handler}

/-- The handlers that log in by a code. -/
def Handler.isCodeLogin : Handler → Bool
  | .userLogin | .mobileRegister | .emailRegister | .userCenterRegister => true
  | _ => false

theorem send_kept (hsend : h.isSend = true) :
    AccountsKept strict w (serve cfg env h request w).1 := by
  unfold serve
  rcases Handler.send_cases cfg env request w hsend with
    ⟨result, hplan⟩ | ⟨x, w', result, hplan, hissued⟩
  · rw [hplan]
    exact AccountsKept.refl w
  · rw [hplan]
    obtain ⟨rows, events, sequence, -, rfl⟩ := hissued.step
    exact AccountsKept.of_same rfl

/-- Apart from logins by code and the change of a password, no request touches a password
that the policy protects. -/
theorem serve_kept (hlogin : h.isCodeLogin = false) (hchange : h ≠ .userCenterChangePassword) :
    AccountsKept (cfg.smsOnlyRegister = true) w (serve cfg env h request w).1 := by
  cases h with
  | sendCode | sendCodeWithData | userCenterSendCode => exact send_kept rfl
  | userLogin | mobileRegister | emailRegister | userCenterRegister => cases hlogin
  | userCenterChangePassword => exact absurd rfl hchange
  | refreshToken =>
    rw [serve, Handler.plan]
    exact refreshToken_keepsAccounts.run
  | passwordReset =>
    rw [serve, Handler.plan]
    exact passwordReset_keepsAccounts.run
  | accountBindPhone =>
    rw [serve, Handler.plan]
    exact accountBindPhone_keepsAccounts.run
  | cancellationCodeVerify =>
    rw [serve, Handler.plan]
    exact cancellationCodeVerify_keepsAccounts.run
  | accountUnbind =>
    rw [serve, Handler.plan]
    exact accountUnbind_keepsAccounts.run
  | userCenterRecoverPassword =>
    rw [serve, Handler.plan]
    exact userCenterRecoverPassword_keepsAccounts.run
  | userCenterDeleteAccount =>
    rw [serve, Handler.plan]
    exact userCenterDeleteAccount_keepsAccounts.run
  | userCenterChangePhone =>
    rw [serve, Handler.plan]
    exact userCenterChangePhone_keepsAccounts.run

theorem setPassword_others {userID : ℕ} {password : String} {r r' : UserRow}
    (hr : r ∈ w.db.users.rows) (hr' : r' ∈ (setPassword env w userID password).1.db.users.rows)
    (hid : r'.id = r.id) (hne : r.id ≠ userID) : r' = r := by
  have hhash := passwordHash_db env w password
  unfold setPassword at hr'
  split at hr'
  · next heq =>
    rw [heq] at hhash
    simp only at hhash hr'
    rw [hhash] at hr'
    exact w.db.user_eq_of_id hr' hr hid
  · next v hash heq =>
    rw [heq] at hhash
    have hrows : (setPasswordHash v userID hash).1.db.users.rows = v.db.users.rows.map
        fun a => if a.id == userID then a.withPassword hash v.now else a := rfl
    rw [hrows] at hr'
    simp only at hhash
    rw [hhash] at hr'
    rcases Table.of_mem_updated hr' with ⟨a, -, hmatch, rfl⟩ | ⟨hold, -⟩
    · have hsame : a.id = userID := by simpa using hmatch
      exact absurd (hid.symm.trans hsame) hne
    · exact w.db.user_eq_of_id hold hr hid

/-- The account of a login by password is the one that the password fits. -/
theorem passwordLogin_account {phone password : String} {u : User}
    (hlogin : passwordLogin env w phone password = (w', .ok u)) :
    PasswordFits env w phone password u.id := by
  unfold passwordLogin at hlogin
  split at hlogin
  · cases hlogin
  next a ha =>
  rcases issueAuthSession_cases hlogin with ⟨e, n, herror, -⟩ | ⟨row, sessions, -, hlive, -, hok, -⟩
  · cases herror
  · cases hok
    have hfits := passwordAccount_fits ha
    rw [← (UserRow.isLive_iff.mp hlive).1] at hfits
    exact hfits

/-- The only password that a change of a password replaces is the one that was proved. -/
theorem userCenterChangePassword_cases :
    AccountsKept True w (userCenterChangePassword env request w).world ∨
    ∃ u v, PasswordFits env w (request.post.get "phone") (request.post.get "old_password") u ∧
      AccountsKept True w v ∧ (userCenterChangePassword env request w).world =
        (setPassword env v u (request.post.get "new_password")).1 := by
  have hlogin : AccountsKept True w (passwordLogin env w (request.post.get "phone")
      (request.post.get "old_password")).1 := passwordLogin_kept w _ _
  unfold userCenterChangePassword
  split
  · exact Or.inl (AccountsKept.refl w)
  split
  · next heq =>
    rw [heq] at hlogin
    exact Or.inl hlogin
  next v u heq =>
  rw [heq] at hlogin
  simp only
  split
  · exact Or.inl hlogin
  · exact Or.inr ⟨u.id, v, passwordLogin_account heq, hlogin, rfl⟩

theorem userCenterChangePassword_accepts :
    (userCenterChangePassword env request w).accepts env = none := by
  unfold userCenterChangePassword
  split
  · rfl
  split
  · rfl
  simp only
  split
  · rfl
  · rfl

/-- Accounts may be added; those that were there keep a password that was set. -/
def AccountsGrown (w w' : World) : Prop :=
  ∀ r' ∈ w'.db.users.rows,
    (∃ r ∈ w.db.users.rows, RowKept True r r') ∨ ∀ r ∈ w.db.users.rows, r.id ≠ r'.id

theorem AccountsKept.grown (h : AccountsKept True w w') : AccountsGrown w w' :=
  fun r' hr' => Or.inl (h r' hr')

theorem AccountsGrown.then (h : AccountsGrown w w') (h' : AccountsKept True w' w'') :
    AccountsGrown w w'' := by
  intro r'' hr''
  obtain ⟨r', hr', hkept'⟩ := h' r'' hr''
  rcases h r' hr' with ⟨r, hr, hkept⟩ | hnew
  · exact Or.inl ⟨r, hr, hkept.trans hkept'⟩
  · exact Or.inr fun r hr => by rw [hkept'.id]; exact hnew r hr

/-- The password of an account that was not there before. -/
theorem AccountsGrown.setPassword (h : AccountsGrown w w') {userID : ℕ} (password : String)
    (hnew : ∀ r ∈ w.db.users.rows, r.id ≠ userID) :
    AccountsGrown w (setPassword env w' userID password).1 := by
  intro r'' hr''
  have hsame : AccountsKept False w' (PapeSdk.setPassword env w' userID password).1 :=
    setPassword_kept_of_not not_false w' userID password
  obtain ⟨r', hr', hkept'⟩ := hsame r'' hr''
  rcases h r' hr' with ⟨r, hr, hkept⟩ | hother
  · have hne : r'.id ≠ userID := by
      rw [hkept.id]
      exact hnew r hr
    rw [setPassword_others hr' hr'' hkept'.id hne]
    exact Or.inl ⟨r, hr, hkept⟩
  · exact Or.inr fun r hr => by rw [hkept'.id]; exact hother r hr

/-- The account and the session that a login creates for an identifier without an account. -/
theorem created_grown {row : UserRow} {db : Db} (hinsert : w.db.insertUser row = some db)
    {result : Except String User}
    (hissue : issueAuthSession env { w with db := db } w.db.nextUserID = (w', result)) :
    AccountsGrown w w' ∧ ∀ u, result = .ok u → u.id = w.db.nextUserID := by
  have hfresh : ∀ r ∈ w.db.users.rows, r.id ≠ w.db.nextUserID :=
    fun r hr => (Db.lt_nextUserID hr).ne
  have hissued : AccountsKept True { w with db := db } w' := by
    have hkept : AccountsKept True { w with db := db }
        (issueAuthSession env { w with db := db } w.db.nextUserID).1 :=
      issueAuthSession_kept { w with db := db } w.db.nextUserID
    rw [hissue] at hkept
    exact hkept
  have hgrown : AccountsGrown w { w with db := db } := by
    obtain ⟨users, husers, rfl⟩ := Db.insertUser_some hinsert
    intro r' hr'
    rcases (Table.mem_insert? husers).mp hr' with hold | rfl
    · exact Or.inl ⟨r', hold, RowKept.refl True r'⟩
    · exact Or.inr hfresh
  refine ⟨hgrown.then hissued, fun u hu => ?_⟩
  subst hu
  rcases issueAuthSession_cases hissue with ⟨e, n, herror, -⟩ | ⟨r, sessions, -, hlive, -, hok, -⟩
  · cases herror
  · cases hok
    exact (UserRow.isLive_iff.mp hlive).1

theorem getOrCreateUser_existing {x : String} {u : User} (hx : normalizeAccount env x = .ok x)
    (hu : userByPhoneRow w x = some u) : AccountsKept strict w (getOrCreateUser env w x).1 := by
  unfold getOrCreateUser
  simp only [hx, hu]
  exact issueAuthSession_kept w u.id

theorem getOrCreateUser_newcomer (hinv : StoreInv env w) {x : String}
    {result : Except String (User × Bool)} (hx : normalizeAccount env x = .ok x)
    (hnone : userByPhoneRow w x = none) (hcall : getOrCreateUser env w x = (w', result)) :
    AccountsGrown w w' ∧ ∀ u created, result = .ok (u, created) →
      ∀ r ∈ w.db.users.rows, r.id ≠ u.id := by
  have hissue : ∀ {row : UserRow} {db : Db} {v : World} {issued : Except String User},
      w.db.insertUser row = some db →
      issueAuthSession env { w with db := db } w.db.nextUserID = (v, issued) →
      AccountsGrown w v ∧ ∀ u created, issued.map (fun u => (u, true)) = .ok (u, created) →
        ∀ r ∈ w.db.users.rows, r.id ≠ u.id := by
    intro row db v issued hinsert hissued
    obtain ⟨hgrown, hid⟩ := created_grown hinsert hissued
    refine ⟨hgrown, fun u created hok r hr => ?_⟩
    cases issued with
    | error e => cases hok
    | ok a =>
      cases hok
      rw [hid u rfl]
      exact (Db.lt_nextUserID hr).ne
  unfold getOrCreateUser at hcall
  rw [hx] at hcall
  simp only [hnone] at hcall
  by_cases hat : hasAt x = true
  · rw [if_pos hat] at hcall
    rcases hcreate : createAccount env w "" x "" with ⟨v, created⟩
    rw [hcreate] at hcall
    rcases createAccount_email_cases ((isIdentifier_of_normalize hx).isEmail hat) hcreate with
      ⟨e, rfl, rfl⟩ | ⟨row, db, hrow, hinsert, rfl, rfl⟩
    · cases hcall
      exact ⟨(AccountsKept.refl _).grown, fun u created hok => by cases hok⟩
    · simp only [(insertUser_bound hnone hrow hinsert).2.2.2] at hcall
      cases hcall
      exact hissue hinsert rfl
  · rw [if_neg hat] at hcall
    unfold createUserRow at hcall
    split at hcall
    · next db hinsert =>
      cases hcall
      exact hissue hinsert rfl
    · rw [hnone] at hcall
      cases hcall
      refine ⟨(AccountsKept.refl _).grown, fun u created hok r hr => ?_⟩
      cases hok
      have hfirst := hinv.ids.first r hr
      simp only [User.zero, firstUserID] at hfirst ⊢
      omega

theorem loginWithCode_grown (hinv : StoreInv env w) {x : String} (form : Form) (existing : User)
    (hx : normalizeAccount env x = .ok x) (hnone : userByPhoneRow w x = none) :
    AccountsGrown w (loginWithCode env form x existing w).1 := by
  unfold loginWithCode
  split
  · next v e hcall => exact (getOrCreateUser_newcomer hinv hx hnone hcall).1
  next v u created hcall =>
  obtain ⟨hgrown, hid⟩ := getOrCreateUser_newcomer hinv hx hnone hcall
  split
  · have hset : AccountsGrown w (setPassword env v u.id (form.get "password")).1 :=
      hgrown.setPassword _ (hid u created rfl)
    split
    all_goals
      next heq =>
      rw [heq] at hset
      exact hset
  · exact hgrown

theorem registerWithCode_grown (hinv : StoreInv env w) {x : String} (password : String)
    (hx : normalizeAccount env x = .ok x) (hnone : userByPhoneRow w x = none) :
    AccountsGrown w (registerWithCode env x password w).1 := by
  unfold registerWithCode
  split
  · next v e hcall => exact (getOrCreateUser_newcomer hinv hx hnone hcall).1
  next v u created hcall =>
  obtain ⟨hgrown, hid⟩ := getOrCreateUser_newcomer hinv hx hnone hcall
  split
  · exact hgrown
  split
  · exact hgrown.setPassword password (hid u created rfl)
  · exact hgrown.then (hashOnly_kept v password)

theorem Rehashed.kept (h : Rehashed env w w') : AccountsKept False w w' := by
  cases h with
  | same => exact AccountsKept.refl w
  | hashed password => exact passwordHash_kept w password
  | set userID password => exact setPassword_kept_of_not not_false w userID password

/-- What a login by code does under either part of the policy. -/
structure CodeLoginKept (cfg : AuthConfig) (w w' : World) : Prop where
  closed : cfg.allowRegister = false → AccountsKept False w w'
  once : cfg.smsOnlyRegister = true → AccountsGrown w w'
  sessions : cfg.smsOnlyRegister = true → ∀ s, NewSession w w' s →
    ∀ r ∈ w.db.users.rows, r.id ≠ s.userID

theorem codeLogin_kept {x : String} (hx : normalizeAccount env x = .ok x)
    (hpolicy : CodePolicy cfg (userByPhoneRow w x))
    (hlogin : Rehashed env (getOrCreateUser env w x).1 w')
    (hgrown : userByPhoneRow w x = none → AccountsGrown w w') : CodeLoginKept cfg w w' := by
  have hnone : cfg.smsOnlyRegister = true → userByPhoneRow w x = none := by
    intro hsms
    by_contra hsome
    rw [hpolicy.existing hsome] at hsms
    cases hsms
  refine ⟨fun hclosed => ?_, fun hsms => hgrown (hnone hsms), fun hsms s hnew r hr hid => ?_⟩
  · cases haccount : userByPhoneRow w x with
    | none =>
      rw [hpolicy.newcomer haccount] at hclosed
      cases hclosed
    | some u => exact (getOrCreateUser_existing hx haccount).trans hlogin.kept
  · obtain ⟨s', hnew', hsame⟩ := hnew.before hlogin.keeps.sessions
    rw [← hsame] at hid
    rcases getOrCreateUser_new hx hnew' with ⟨row, hrow, -, hanswers⟩ | ⟨hfresh, -⟩
    · have hmiss := Table.first?_eq_none.mp (Option.map_eq_none_iff.mp (hnone hsms)) row hrow
      exact hmiss hanswers
    · exact hfresh r hr hid

/-- A login request is done before it accepts a code, or its code logs in. -/
inductive Plan.LogsIn (cfg : AuthConfig) (env : Externals) (w : World) (p : Plan) : Prop
  | atOnce (hkept : AccountsKept True w p.world) (hnone : p.accepts env = none)
  | byCode (id : ℕ) (hworld : p.world = w) (hsome : p.accepts env = some id)
      (hlogin : CodeLoginKept cfg (w.consume id) (p.next (w.consume id)).1)

theorem Plan.LogsIn.reply {result : Reply} (h : AccountsKept True w w') :
    Plan.LogsIn cfg env w (.reply w' result) := Plan.LogsIn.atOnce h rfl

theorem StoreInv.consume (hinv : StoreInv env w) (id : ℕ) : StoreInv env (w.consume id) :=
  hinv.withCodes _ _ _

theorem Plan.next_checkAny {address code : String} {scenes : List String}
    {cont : World → World × Reply} : (Plan.checkAny w address code scenes cont).next = cont := rfl

theorem Plan.next_checkScene {address scene code : String} {cont : World → World × Reply} :
    (Plan.checkScene w address scene code cont).next = cont := rfl

theorem Plan.LogsIn.check (hinv : StoreInv env w) {p : Plan} (cont : World → World × Reply)
    {x : String} (hworld : p.world = w) (hnext : p.next = cont)
    (hx : normalizeAccount env x = .ok x) (hpolicy : CodePolicy cfg (userByPhoneRow w x))
    (hrehashed : ∀ v, Rehashed env (getOrCreateUser env v x).1 (cont v).1)
    (hgrown : ∀ v, StoreInv env v → userByPhoneRow v x = none → AccountsGrown v (cont v).1) :
    Plan.LogsIn cfg env w p := by
  subst hnext
  cases haccepts : p.accepts env with
  | none => exact Plan.LogsIn.atOnce (by rw [hworld]; exact AccountsKept.refl w) haccepts
  | some id =>
    have hpolicy' : CodePolicy cfg (userByPhoneRow (w.consume id) x) := hpolicy
    exact Plan.LogsIn.byCode id hworld haccepts
      (codeLogin_kept hx hpolicy' (hrehashed _) (hgrown _ (hinv.consume id)))

theorem loginLike_logsIn (hinv : StoreInv env w) (isNew : Bool) :
    (loginLike cfg env request w isNew).LogsIn cfg env w := by
  rcases loginLike_cases cfg env request w isNew with ⟨form, x, hby⟩ | ⟨e, hplan⟩ |
    ⟨phone, password, v, result, hpassword, hplan⟩
  · rw [loginLike_byCode hby]
    exact Plan.LogsIn.check hinv (loginWithCode env form x ((userByPhoneRow w x).getD User.zero))
      rfl Plan.next_checkAny hby.idem hby.policy (fun v => loginWithCode_rehashed form x _ v)
      fun v hv hnone => loginWithCode_grown hv form _ hby.idem hnone
  · rw [hplan]
    exact Plan.LogsIn.reply (AccountsKept.refl w)
  · have hkept : AccountsKept True w (passwordLogin env w phone password).1 :=
      passwordLogin_kept w phone password
    rw [hpassword] at hkept
    rw [hplan]
    exact Plan.LogsIn.reply hkept

theorem userCenterRegister_logsIn (hinv : StoreInv env w) :
    (userCenterRegister cfg env request w).LogsIn cfg env w := by
  rcases userCenterRegister_cases cfg env request w with ⟨x, hby⟩ | ⟨e, hplan⟩
  · rw [userCenterRegister_byCode hby]
    exact Plan.LogsIn.check hinv (registerWithCode env x (request.post.get "password"))
      rfl Plan.next_checkScene hby.idem hby.allowed (fun v => registerWithCode_rehashed x _ v)
      fun v hv hnone => registerWithCode_grown hv _ hby.idem hnone
  · rw [hplan]
    exact Plan.LogsIn.reply (AccountsKept.refl w)

theorem Handler.logsIn (hinv : StoreInv env w) (hlogin : h.isCodeLogin = true) :
    (h.plan cfg env request w).LogsIn cfg env w := by
  cases h with
  | userLogin =>
    rw [plan, PapeSdk.userLogin]
    exact loginLike_logsIn hinv false
  | mobileRegister =>
    rw [plan, PapeSdk.mobileRegister]
    exact loginLike_logsIn hinv true
  | emailRegister =>
    rw [plan, PapeSdk.emailRegister]
    exact loginLike_logsIn hinv true
  | userCenterRegister =>
    rw [plan]
    exact userCenterRegister_logsIn hinv
  | _ => cases hlogin

end

end PapeSdk
