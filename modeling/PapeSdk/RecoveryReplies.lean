import PapeSdk.SilentSends

/-!
What a password recovery reveals about an account. A recovery that passes the
checks on its form sees of the store the row of its code and the account of
its address; its reply is a function of these and of the flags. Under
`smsOnlyRegister` the code is checked for an account without a password and
for no other, and without `realPassword` a reset judges the new password only
when there is no account to set it for.
-/

namespace PapeSdk

open Identifiers

/-- What a recovery asks for, once its form has passed every check before the
account is looked up. -/
structure Recovery where
  address : String
  scene : String
  code : String
  password : String

/-- The address of a reset; a failed lookup leaves it empty. -/
def resetPhone (w : World) (form : Form) : String := (phoneForSMS w form).toOption.getD ""

/-- The recovery in a request; `none` when it is answered earlier. -/
def Handler.recovery (env : Externals) (request : Request) (w : World) :
    Handler → Option Recovery
  | .passwordReset =>
    match request.form with
    | .error _ => none
    | .ok form =>
      match normalizeAccount env (resetPhone w form) with
      | .error _ => none
      | .ok x =>
        some ⟨x, orDefault (form.get "scene") "password", form.get "code", form.get "password"⟩
  | .userCenterRecoverPassword =>
    if !request.validCSRF then none
    else
      match normalizeAccount env (request.post.get "phone") with
      | .error _ => none
      | .ok x =>
        if request.post.get "password" = "" then none
        else some ⟨x, "password", request.post.get "code", request.post.get "password"⟩
  | _ => none

/-- The request gives the same address in both stores: it brings one, or its
credentials stand for the same one. -/
def Handler.SameAddress (request : Request) (w w' : World) (h : Handler) : Prop :=
  h = .passwordReset → ∀ form, request.form = .ok form → resetPhone w' form = resetPhone w form

/-- What `passwordHash` has against a password. -/
def passwordCheck (password : String) : Except String Unit :=
  match validatePassword password with
  | .error e => .error e
  | .ok () =>
    if 72 < password.utf8ByteSize then .error "bcrypt: password length exceeds 72 bytes" else .ok ()

/-- An account whose password is still to be set. -/
def awaitsPassword (account : Option User) : Bool := account.any fun u => !userHasPassword u

namespace Recovery

variable (cfg : AuthConfig) (h : Handler) (checked : Except String Unit) (r : Recovery)

/-- The reply, given the check of the code and the account. -/
def reply (account : Option User) : Except String Unit :=
  if cfg.smsOnlyRegister && !awaitsPassword account then
    if r.password = "" then .ok () else passwordCheck r.password
  else
    checked.bind fun _ =>
      if h = .passwordReset ∧ cfg.realPassword = true ∧ r.password = "" then .error "请输入密码"
      else if account.isNone then
        if r.password = "" then .ok () else passwordCheck r.password
      else if cfg.realPassword || cfg.smsOnlyRegister || h != .passwordReset then
        passwordCheck r.password
      else .ok ()

/-- The flags treat both accounts alike, or the request leaves no difference. -/
def Alike (account account' : Option User) : Prop :=
  if cfg.smsOnlyRegister then
    awaitsPassword account = awaitsPassword account' ∨ (checked = .ok () ∧ r.password ≠ "")
  else
    account.isSome = account'.isSome ∨ checked ≠ .ok () ∨ cfg.realPassword = true ∨
      h ≠ .passwordReset ∨ r.password = "" ∨ passwordCheck r.password = .ok ()

end Recovery

section
variable {cfg : AuthConfig} {env : Externals} {request : Request} {w w' : World} {h : Handler}
  {r : Recovery} {checked : Except String Unit} {account account' : Option User}

theorem passwordCheck_empty : passwordCheck "" = .error "密码至少需要 6 位" := by decide

theorem passwordCheck_errors {password e : String} (hcheck : passwordCheck password = .error e) :
    e = "密码至少需要 6 位" ∨ e = "bcrypt: password length exceeds 72 bytes" := by
  unfold passwordCheck validatePassword at hcheck
  split at hcheck
  · next e' he =>
    cases hcheck
    split at he
    · exact Or.inl (Except.error.inj he).symm
    · cases he
  · split at hcheck
    · exact Or.inr (Except.error.inj hcheck).symm
    · cases hcheck

theorem checkSMS_errors {phone scene code e : String} (hx : normalizeAccount env phone = .ok phone)
    (hscene : scene ≠ "") (hcheck : checkSMS env w phone scene code = .error e) :
    e = "请先获取验证码" ∨ e = "验证码已过期，请重新获取" ∨ e = "验证码错误" := by
  unfold checkSMS findSMS at hcheck
  rw [hx] at hcheck
  dsimp only at hcheck
  rw [if_neg hscene] at hcheck
  split at hcheck
  · exact Or.inl (Except.error.inj hcheck).symm
  · split at hcheck
    · exact Or.inr (Or.inl (Except.error.inj hcheck).symm)
    · split at hcheck
      · exact Or.inr (Or.inr (Except.error.inj hcheck).symm)
      · cases hcheck

/-- A code and a password are refused with different words. -/
theorem checkSMS_ne_passwordCheck {phone scene code e password : String}
    (hx : normalizeAccount env phone = .ok phone) (hscene : scene ≠ "")
    (hcheck : checkSMS env w phone scene code = .error e) :
    passwordCheck password ≠ .error e := by
  intro hpassword
  rcases checkSMS_errors hx hscene hcheck with rfl | rfl | rfl
  · rcases passwordCheck_errors hpassword with he | he
    · exact absurd he (by decide)
    · exact absurd he (by decide)
  · rcases passwordCheck_errors hpassword with he | he
    · exact absurd he (by decide)
    · exact absurd he (by decide)
  · rcases passwordCheck_errors hpassword with he | he
    · exact absurd he (by decide)
    · exact absurd he (by decide)

theorem eq_some_of_awaitsPassword (hawaits : awaitsPassword account = true) :
    ∃ u, account = some u := by
  cases account with
  | none => cases hawaits
  | some u => exact ⟨u, rfl⟩

/-- With `smsOnlyRegister`, one account has its code checked and the other has not. -/
theorem reply_smsOnly_iff (hsms : cfg.smsOnlyRegister = true)
    (hawaits : awaitsPassword account = true) (hsettled : awaitsPassword account' = false)
    (hwords : ∀ e, checked = .error e → passwordCheck r.password ≠ .error e) :
    r.reply cfg h checked account' = r.reply cfg h checked account ↔
      checked = .ok () ∧ r.password ≠ "" := by
  obtain ⟨u, rfl⟩ := eq_some_of_awaitsPassword hawaits
  have hleft : r.reply cfg h checked account' =
      if r.password = "" then .ok () else passwordCheck r.password := by
    unfold Recovery.reply
    rw [hsms, hsettled]
    rfl
  have hright : r.reply cfg h checked (some u) =
      checked.bind fun _ =>
        if h = .passwordReset ∧ cfg.realPassword = true ∧ r.password = "" then .error "请输入密码"
        else passwordCheck r.password := by
    unfold Recovery.reply
    simp only [hsms, hawaits, Bool.not_true, Bool.and_false, Bool.false_eq_true, if_false,
      Bool.or_true, Bool.true_or, if_true, Option.isNone_some]
  rw [hleft, hright]
  cases checked with
  | error e =>
    simp only [Except.bind, reduceCtorEq, false_and, iff_false]
    split
    · exact nofun
    · exact hwords e rfl
  | ok v =>
    by_cases hempty : r.password = ""
    · simp only [Except.bind, hempty, if_true, and_true, ne_eq, not_true_eq_false, and_false,
        iff_false]
      split
      · exact nofun
      · rw [passwordCheck_empty]
        exact nofun
    · simp only [Except.bind, hempty, if_false, and_false, ne_eq, not_false_eq_true, and_true]

/-- Without it, nobody has a password to be judged and an account may have none. -/
theorem reply_open_iff {u : User} (hsms : cfg.smsOnlyRegister = false)
    (hgiven : h ≠ .passwordReset → r.password ≠ "") :
    r.reply cfg h checked none = r.reply cfg h checked (some u) ↔
      checked ≠ .ok () ∨ cfg.realPassword = true ∨ h ≠ .passwordReset ∨ r.password = "" ∨
        passwordCheck r.password = .ok () := by
  have hreply : ∀ account, r.reply cfg h checked account =
      checked.bind fun _ =>
        if h = .passwordReset ∧ cfg.realPassword = true ∧ r.password = "" then .error "请输入密码"
        else if account.isNone then if r.password = "" then .ok () else passwordCheck r.password
        else if cfg.realPassword || h != .passwordReset then passwordCheck r.password
        else .ok () := by
    intro account
    unfold Recovery.reply
    simp only [hsms, Bool.false_and, Bool.false_eq_true, if_false, Bool.or_false]
  rw [hreply, hreply]
  cases checked with
  | error e => simp [Except.bind]
  | ok v =>
    by_cases hreset : h = .passwordReset
    · by_cases hempty : r.password = ""
      · cases cfg.realPassword <;> simp [Except.bind, hreset, hempty]
      · cases cfg.realPassword <;> simp [Except.bind, hreset, hempty]
    · simp [Except.bind, hreset, hgiven hreset]

theorem reply_isSome {u u' : User} (hsms : cfg.smsOnlyRegister = false) :
    r.reply cfg h checked (some u') = r.reply cfg h checked (some u) := by
  unfold Recovery.reply
  rw [hsms]
  rfl

theorem reply_awaits (hsms : cfg.smsOnlyRegister = true)
    (hsame : awaitsPassword account = awaitsPassword account') :
    r.reply cfg h checked account' = r.reply cfg h checked account := by
  unfold Recovery.reply
  rw [hsms, hsame]
  cases hawaits : awaitsPassword account' with
  | false => rfl
  | true =>
    obtain ⟨u', rfl⟩ := eq_some_of_awaitsPassword hawaits
    obtain ⟨u, rfl⟩ := eq_some_of_awaitsPassword (hsame.trans hawaits)
    rfl

theorem reply_eq_iff (hwords : ∀ e, checked = .error e → passwordCheck r.password ≠ .error e)
    (hgiven : h ≠ .passwordReset → r.password ≠ "") :
    r.reply cfg h checked account' = r.reply cfg h checked account ↔
      r.Alike cfg h checked account account' := by
  unfold Recovery.Alike
  cases hsms : cfg.smsOnlyRegister with
  | true =>
    rw [if_pos rfl]
    by_cases hsame : awaitsPassword account = awaitsPassword account'
    · simp only [hsame, true_or, iff_true]
      exact reply_awaits hsms hsame
    · simp only [hsame, false_or]
      cases hawaits : awaitsPassword account with
      | true =>
        rw [hawaits] at hsame
        exact reply_smsOnly_iff hsms hawaits (by simpa using Ne.symm hsame) hwords
      | false =>
        rw [hawaits] at hsame
        rw [eq_comm]
        exact reply_smsOnly_iff hsms (by simpa using Ne.symm hsame) hawaits hwords
  | false =>
    rw [if_neg Bool.false_ne_true]
    cases account with
    | none =>
      cases account' with
      | none => simp
      | some u =>
        simp only [Option.isSome_none, Option.isSome_some, Bool.false_eq_true, false_or]
        rw [eq_comm]
        exact reply_open_iff hsms hgiven
    | some u =>
      cases account' with
      | none =>
        simp only [Option.isSome_none, Option.isSome_some, Bool.true_eq_false, false_or]
        exact reply_open_iff hsms hgiven
      | some u' =>
        simp only [Option.isSome_some, true_or, iff_true]
        exact reply_isSome hsms

theorem passwordHash_check (env : Externals) (w : World) (password : String) :
    (passwordHash env w password).2.map (fun _ => ()) = passwordCheck password := by
  unfold passwordHash passwordCheck
  cases validatePassword password with
  | error e => rfl
  | ok v =>
    dsimp only
    split
    · rfl
    · rfl

theorem setPassword_check (env : Externals) (w : World) (userID : ℕ) (password : String) :
    (setPassword env w userID password).2 = passwordCheck password := by
  rw [← passwordHash_check env w password]
  unfold setPassword
  rcases passwordHash env w password with ⟨v, e | hash⟩
  · rfl
  · rfl

theorem verifySMSForScene_check {x scene : String} (hx : normalizeAccount env x = .ok x)
    (hscene : scene ≠ "") (w : World) (code : String) :
    ∃ w', verifySMSForScene env w x scene code = (w', checkSMS env w x scene code) := by
  unfold verifySMSForScene verifySMS checkSMS
  rw [hx]
  dsimp only
  rw [if_neg hscene]
  cases hfind : findSMS env w x scene code with
  | error e => exact ⟨w, rfl⟩
  | ok id => exact ⟨_, consumeSMS_of_find hfind⟩

theorem not_awaitsPassword (account : Option User) :
    (account.isNone || userHasPassword (account.getD User.zero)) = !awaitsPassword account := by
  cases account with
  | none => rfl
  | some u => simp [awaitsPassword]

/-- A plan that verifies a code first, as far as its reply goes. -/
theorem run_checkScene_reply {x scene code : String} {next : World → World × Reply}
    {after : Except String Unit} (hx : normalizeAccount env x = .ok x) (hscene : scene ≠ "")
    (hnext : ∀ w', (next w').2 = after.map fun _ => none) :
    ((Plan.checkScene w x scene code next).run env).2 =
      ((checkSMS env w x scene code).bind fun _ => after).map fun _ => none := by
  obtain ⟨w', hverify⟩ := verifySMSForScene_check hx hscene w code
  rw [Plan.run, hverify]
  cases checkSMS env w x scene code with
  | error e => rfl
  | ok v => exact hnext w'

theorem resetPassword_reply (form : Form) (account : Option User) (w : World) :
    (resetPassword cfg env form account w).2 =
      (if cfg.realPassword = true ∧ form.get "password" = "" then .error "请输入密码"
      else if account.isNone then
        if form.get "password" = "" then .ok () else passwordCheck (form.get "password")
      else if cfg.realPassword || cfg.smsOnlyRegister then passwordCheck (form.get "password")
      else .ok () : Except String Unit).map fun _ => none := by
  unfold resetPassword
  split
  · rfl
  cases account with
  | none =>
    rw [← passwordHash_check env w (form.get "password")]
    simp only [Option.isNone_none, if_true]
    by_cases hempty : form.get "password" = ""
    · simp only [hempty, ne_eq, not_true_eq_false, if_false, if_true]
      rfl
    · simp only [hempty, ne_eq, not_false_eq_true, if_true, if_false]
      rcases passwordHash env w (form.get "password") with ⟨v, e | hash⟩
      · rfl
      · rfl
  | some u =>
    simp only [Option.isNone_some, Bool.false_eq_true, if_false]
    split
    · rw [← setPassword_check env w u.id (form.get "password")]
      rfl
    · rfl

theorem recoverWithCode_reply (account : Option User) (password : String) (w : World) :
    (recoverWithCode env account password w).2 = (passwordCheck password).map fun _ => none := by
  unfold recoverWithCode
  cases account with
  | none =>
    rw [← passwordHash_check env w password]
    rcases passwordHash env w password with ⟨v, e | hash⟩
    · rfl
    · rfl
  | some u =>
    rw [← setPassword_check env w u.id password]
    rfl

/-- The address of a recovery is normal, its scene is named, and a recovery of
the user center brings a password. -/
theorem recovery_some (hr : h.recovery env request w = some r) :
    normalizeAccount env r.address = .ok r.address ∧ r.scene ≠ "" ∧
      (h ≠ .passwordReset → r.password ≠ "") := by
  unfold Handler.recovery at hr
  split at hr
  · split at hr
    · cases hr
    next form hform =>
    split at hr
    · cases hr
    next x hx =>
    cases hr
    refine ⟨normalizeAccount_idem hx, ?_, fun hne => absurd rfl hne⟩
    show orDefault (form.get "scene") "password" ≠ ""
    unfold orDefault
    split
    · exact (by decide : "password" ≠ "")
    · next hscene => exact hscene
  · split at hr
    · cases hr
    split at hr
    · cases hr
    next x hx =>
    split at hr
    · cases hr
    next hpassword =>
    cases hr
    exact ⟨normalizeAccount_idem hx, (by decide : "password" ≠ ""), fun _ => hpassword⟩
  · cases hr

/-- The address of a recovery is looked up as it is. -/
theorem recovery_user (hr : h.recovery env request w = some r) :
    userByPhone env w r.address = .ok (userByPhoneRow w r.address) := by
  unfold userByPhone
  rw [(recovery_some hr).1]

theorem serve_passwordReset (cfg : AuthConfig)
    (hr : Handler.passwordReset.recovery env request w = some r) :
    (serve cfg env .passwordReset request w).2 =
      (r.reply cfg .passwordReset (checkSMS env w r.address r.scene r.code)
        (userByPhoneRow w r.address)).map fun _ => none := by
  obtain ⟨hx, hscene, -⟩ := recovery_some hr
  have huser := recovery_user hr
  unfold Handler.recovery at hr
  dsimp only at hr
  split at hr
  · cases hr
  next form hform =>
  split at hr
  · cases hr
  next x hnormal =>
  cases hr
  have hne : x ≠ "" := by
    rintro rfl
    exact normalizeAccount_empty hx
  unfold serve Handler.plan passwordReset
  rw [hform]
  dsimp only
  unfold resetPhone at hnormal
  rw [hnormal]
  dsimp only
  rw [if_neg hne, huser]
  dsimp only
  rw [not_awaitsPassword]
  unfold Recovery.reply
  dsimp only
  split
  · rw [← passwordHash_check env w (form.get "password")]
    by_cases hempty : form.get "password" = ""
    · simp only [hempty, ne_eq, not_true_eq_false, if_false, if_true]
      rfl
    · simp only [hempty, ne_eq, not_false_eq_true, if_true, if_false]
      rcases passwordHash env w (form.get "password") with ⟨v, e | hash⟩
      · rfl
      · rfl
  · rw [run_checkScene_reply hx hscene (resetPassword_reply form (userByPhoneRow w x))]
    simp only [true_and, bne_self_eq_false, Bool.or_false]

theorem serve_recoverPassword (cfg : AuthConfig)
    (hr : Handler.userCenterRecoverPassword.recovery env request w = some r) :
    (serve cfg env .userCenterRecoverPassword request w).2 =
      (r.reply cfg .userCenterRecoverPassword (checkSMS env w r.address r.scene r.code)
        (userByPhoneRow w r.address)).map fun _ => none := by
  obtain ⟨hx, hscene, -⟩ := recovery_some hr
  have huser := recovery_user hr
  unfold Handler.recovery at hr
  dsimp only at hr
  split at hr
  · cases hr
  next hcsrf =>
  split at hr
  · cases hr
  next x hnormal =>
  split at hr
  · cases hr
  next hpassword =>
  cases hr
  unfold serve Handler.plan userCenterRecoverPassword
  rw [if_neg hcsrf, hnormal]
  dsimp only
  rw [if_neg hpassword, huser]
  dsimp only
  rw [not_awaitsPassword]
  unfold Recovery.reply
  dsimp only
  rw [if_neg hpassword]
  split
  · rw [← passwordHash_check env w (request.post.get "password")]
    rcases passwordHash env w (request.post.get "password") with ⟨v, e | hash⟩
    · rfl
    · rfl
  · rw [run_checkScene_reply hx hscene
      (recoverWithCode_reply (userByPhoneRow w x) (request.post.get "password"))]
    simp [hpassword]

/-- The reply depends on the code, the account and the flags alone. -/
theorem serve_recovery (cfg : AuthConfig) (hr : h.recovery env request w = some r) :
    (serve cfg env h request w).2 =
      (r.reply cfg h (checkSMS env w r.address r.scene r.code)
        (userByPhoneRow w r.address)).map fun _ => none := by
  cases h with
  | passwordReset => exact serve_passwordReset cfg hr
  | userCenterRecoverPassword => exact serve_recoverPassword cfg hr
  | _ => cases hr

theorem recovery_same (haddress : h.SameAddress request w w') :
    h.recovery env request w' = h.recovery env request w := by
  unfold Handler.recovery
  cases h with
  | passwordReset =>
    dsimp only
    cases hform : request.form with
    | error e => rfl
    | ok form =>
      dsimp only
      rw [haddress rfl form hform]
  | _ => rfl

theorem checkSMS_same (hnow : w'.now = w.now)
    (hrows : w'.db.smsVerifications = w.db.smsVerifications) (phone scene code : String) :
    checkSMS env w' phone scene code = checkSMS env w phone scene code := by
  unfold checkSMS findSMS
  rw [hnow, hrows]

/-- Before the account is looked up, every reply comes from the request. -/
theorem serve_no_recovery (hrecovers : h = .passwordReset ∨ h = .userCenterRecoverPassword)
    (haddress : h.SameAddress request w w') (hnone : h.recovery env request w = none) :
    (serve cfg env h request w').2 = (serve cfg env h request w).2 := by
  rcases hrecovers with rfl | rfl
  · unfold serve Handler.plan passwordReset
    unfold Handler.recovery at hnone
    cases hform : request.form with
    | error e => rfl
    | ok form =>
      rw [hform] at hnone
      have hphone : (phoneForSMS w' form).toOption.getD "" =
          (phoneForSMS w form).toOption.getD "" := haddress rfl form hform
      dsimp only at hnone ⊢
      rw [hphone]
      cases hnormal : normalizeAccount env ((phoneForSMS w form).toOption.getD "") with
      | error e => rfl
      | ok x =>
        unfold resetPhone at hnone
        rw [hnormal] at hnone
        cases hnone
  · unfold serve Handler.plan userCenterRecoverPassword
    unfold Handler.recovery at hnone
    dsimp only at hnone
    split at hnone
    · next hcsrf =>
      rw [if_pos hcsrf, if_pos hcsrf]
      rfl
    next hcsrf =>
    rw [if_neg hcsrf, if_neg hcsrf]
    cases hnormal : normalizeAccount env (request.post.get "phone") with
    | error e => rfl
    | ok x =>
      rw [hnormal] at hnone
      dsimp only at hnone ⊢
      split at hnone
      · next hpassword =>
        rw [if_pos hpassword, if_pos hpassword]
        rfl
      · cases hnone

theorem map_unit_inj {a b : Except String Unit} :
    (a.map fun _ => (none : Option User)) = b.map (fun _ => none) ↔ a = b := by
  cases a with
  | error e =>
    cases b with
    | error e' => simp [Except.map]
    | ok v => simp [Except.map]
  | ok u =>
    cases b with
    | error e => simp [Except.map]
    | ok v => simp [Except.map]

/-- Two stores with the same codes give the same reply exactly when the flags
and the request leave no difference between their accounts. -/
theorem recovery_reveals_nothing_iff
    (hrecovers : h = .passwordReset ∨ h = .userCenterRecoverPassword) (hnow : w'.now = w.now)
    (hrows : w'.db.smsVerifications = w.db.smsVerifications)
    (haddress : h.SameAddress request w w') :
    (serve cfg env h request w').2 = (serve cfg env h request w).2 ↔
      ∀ r, h.recovery env request w = some r →
        r.Alike cfg h (checkSMS env w r.address r.scene r.code)
          (userByPhoneRow w r.address) (userByPhoneRow w' r.address) := by
  cases hr : h.recovery env request w with
  | none =>
    refine ⟨fun _ r hsome => (nomatch hsome), fun _ => ?_⟩
    exact serve_no_recovery hrecovers haddress hr
  | some r =>
    obtain ⟨hx, hscene, hgiven⟩ := recovery_some hr
    have hreply := serve_recovery cfg hr
    have hreply' := serve_recovery cfg ((recovery_same haddress).trans hr)
    rw [checkSMS_same hnow hrows] at hreply'
    rw [hreply, hreply', map_unit_inj, reply_eq_iff (fun e => checkSMS_ne_passwordCheck hx hscene)
      hgiven]
    constructor
    · intro halike r' hsome
      rw [← Option.some.inj hsome]
      exact halike
    · intro hall
      exact hall r rfl

end

/-- Passwords come from registrations by code alone. -/
def smsOnlyConfig : AuthConfig := ⟨false, false, true, true⟩

/-- A reset with a code that nobody was sent. -/
def guessedReset : Request :=
  { form := .ok [("phone", "13800000000"), ("code", "000000"), ("password", "abcdef")] }

theorem oneAccount_codes : oneAccount.now = emptyStore.now ∧
    oneAccount.db.smsVerifications = emptyStore.db.smsVerifications := by
  unfold oneAccount createAccount
  split
  · exact ⟨rfl, rfl⟩
  dsimp only
  split
  · exact ⟨rfl, rfl⟩
  · next db hinsert =>
    obtain ⟨users, -, rfl⟩ := Db.insertUser_some hinsert
    exact ⟨rfl, rfl⟩

/-- Nobody's password is reset with success, an account is asked for its code. -/
theorem guessed_reset_reveals_account :
    oneAccount.now = emptyStore.now ∧
      oneAccount.db.smsVerifications = emptyStore.db.smsVerifications ∧
      (serve smsOnlyConfig .unary .passwordReset guessedReset emptyStore).2 = .ok none ∧
      (serve smsOnlyConfig .unary .passwordReset guessedReset oneAccount).2 =
        .error "请先获取验证码" := by
  obtain ⟨hnow, hrows⟩ := oneAccount_codes
  exact ⟨hnow, hrows, by decide +kernel, by decide +kernel⟩

/-- Where every reset has to bring a password, the two stores answer alike. -/
theorem guessed_reset_is_discreet :
    (serve ⟨true, false, true, false⟩ .unary .passwordReset guessedReset oneAccount).2 =
      (serve ⟨true, false, true, false⟩ .unary .passwordReset guessedReset emptyStore).2 := by
  obtain ⟨hnow, hrows⟩ := oneAccount_codes
  refine (recovery_reveals_nothing_iff (Or.inl rfl) hnow hrows ?_).mpr ?_
  · intro _ form hform
    cases hform
    rfl
  · intro r _
    exact Or.inr (Or.inr (Or.inl rfl))

end PapeSdk
