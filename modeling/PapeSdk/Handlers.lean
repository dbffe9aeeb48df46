import PapeSdk.Requests

/-!
The handlers of `internal/app` that issue, check or consume a code, log in or
refresh. A handler is written down to the point where it verifies a code, if it
comes to that: the plan keeps the address, the code and the scenes to verify
and what follows on success. A request is one completed run of its handler.
-/

namespace PapeSdk

open Identifiers LetterCase

/-- The reply of a handler: the account of a login response, if there is one. -/
abbrev Reply := Except String (Option User)

inductive Plan
  | reply (w : World) (result : Reply)
  /-- `verifySMSForScene` comes next. -/
  | checkScene (w : World) (address scene code : String) (next : World → World × Reply)
  /-- `verifySMSForAnyScene` comes next. -/
  | checkAny (w : World) (address code : String) (scenes : List String)
      (next : World → World × Reply)

def Plan.run (env : Externals) : Plan → World × Reply
  | .reply w result => (w, result)
  | .checkScene w address scene code next =>
    match verifySMSForScene env w address scene code with
    | (w, .error e) => (w, .error e)
    | (w, .ok ()) => next w
  | .checkAny w address code scenes next =>
    match verifySMSForAnyScene env w address code scenes with
    | (w, .error e) => (w, .error e)
    | (w, .ok ()) => next w

/-- A reply without an account. -/
def answer (r : World × Except String Unit) : World × Reply := (r.1, r.2.map fun _ => none)

section
variable (cfg : AuthConfig) (env : Externals) (request : Request) (w : World)

/-- An issued code is mirrored into the scenes it may be used in. -/
def issueAndMirror (phone scene : String) (authenticated : Bool) (scenes : List String) : Plan :=
  match issueSMSForScene cfg env request w phone scene authenticated with
  | (w, .error e) => .reply w (.error e)
  | (w, .ok none) => .reply w (.ok none)
  | (w, .ok (some code)) =>
    .reply (mirrorSMSCode env w phone code request.clientIP scenes) (.ok none)

def sendCode : Plan :=
  match request.form with
  | .error e => .reply w (.error e)
  | .ok form =>
    let scene := orDefault (form.get "scene") "account"
    match phoneForSMS w form with
    | .error e => .reply w (.error e)
    | .ok phone =>
      issueAndMirror cfg env request w phone scene (authenticatedSMSRequest w form phone)
        [scene, "account", "login", "web_login", "register", "bind", "change_phone", "usercenter"]

def sendCodeWithData : Plan :=
  match request.form with
  | .error e => .reply w (.error e)
  | .ok form =>
    let scene := orDefault (form.get "scene") "password"
    match phoneForSMS w form with
    | .error e => .reply w (.error e)
    | .ok phone =>
      issueAndMirror cfg env request w phone scene (authenticatedSMSRequest w form phone)
        [scene, "account", "login", "register", "password", "bind", "change_phone", "usercenter"]

def pageExpired : String := "页面已过期，请刷新后重试"

def userCenterSendCode : Plan :=
  if !request.validCSRF then .reply w (.error pageExpired)
  else
    match normalizeAccount env (request.post.get "phone") with
    | .error e => .reply w (.error e)
    | .ok phone =>
      let scene := (request.post.lookup "scene").getD "usercenter"
      match issueSMSForScene cfg env request w phone scene false with
      | (w, .error e) => .reply w (.error e)
      | (w, .ok _) => .reply w (.ok none)

/-- A password given along with a code becomes the password of an account without one. -/
def loginWithCode (form : Form) (phone : String) (existing : User) (w : World) : World × Reply :=
  match getOrCreateUser env w phone with
  | (w, .error e) => (w, .error e)
  | (w, .ok (u, _)) =>
    if form.get "password" ≠ "" ∧ userHasPassword existing = false then
      match setPassword env w u.id (form.get "password") with
      | (w, .error e) => (w, .error e)
      | (w, .ok ()) => (w, .ok (some u))
    else (w, .ok (some u))

/-- Whether the configuration lets a request with a code go on. -/
def loginAllowed (isNew exists' : Bool) : Except String Unit :=
  if isNew then
    if exists' && cfg.smsOnlyRegister then .error "该账号不能重复注册"
    else if !exists' && !cfg.allowRegister then .error "当前不允许注册新账号"
    else .ok ()
  else if cfg.smsOnlyRegister then .error errInvalidCredentials
  else if !exists' && !cfg.allowRegister then .error errInvalidCredentials
  else .ok ()

def loginLike (isNew : Bool) : Plan :=
  match request.form with
  | .error e => .reply w (.error e)
  | .ok form =>
    let phone := phoneOf form
    if request.path = "/v1/user/email/register" ∧ hasAt phone = false then
      .reply w (.error "请输入正确的邮箱地址")
    else
      let passwordProvided := (form.lookup "password").isSome
      let passwordRequired := cfg.realPassword || cfg.smsOnlyRegister
      if (passwordRequired || hasAt phone) && passwordProvided && !isNew then
        match passwordLogin env w phone (form.get "password") with
        | (w, .error e) => .reply w (.error e)
        | (w, .ok u) => .reply w (.ok (some u))
      else
        match normalizeAccount env phone with
        | .error e => .reply w (.error e)
        | .ok phone =>
          match userByPhone env w phone with
          | .error e => .reply w (.error e)
          | .ok existing =>
            match loginAllowed cfg isNew existing.isSome with
            | .error e => .reply w (.error e)
            | .ok () =>
              match if isNew && form.get "password" != "" then
                  validatePassword (form.get "password") else .ok () with
              | .error e => .reply w (.error e)
              | .ok () =>
                let scene := orDefault (form.get "scene") "login"
                .checkAny w phone (form.get "code")
                  [scene, "login", "web_login", "account", "register", "usercenter"]
                  (loginWithCode env form phone (existing.getD User.zero))

def userLogin : Plan := loginLike cfg env request w false
def mobileRegister : Plan := loginLike cfg env request w true
def emailRegister : Plan := loginLike cfg env request w true

def refreshToken : Plan :=
  match request.form with
  | .error e => .reply w (.error e)
  | .ok form =>
    match refreshByToken env w (orDefault (form.get "refresh_token") (form.get "refreshToken")) with
    | (w, .error e) => .reply w (.error e)
    | (w, .ok (u, _)) => .reply w (.ok (some u))

/-- The account is looked up before the code is verified. -/
def resetPassword (form : Form) (u : Option User) (w : World) : World × Reply :=
  if cfg.realPassword = true ∧ form.get "password" = "" then (w, .error "请输入密码")
  else
    match u with
    | none =>
      if form.get "password" ≠ "" then
        match passwordHash env w (form.get "password") with
        | (w, .error e) => (w, .error e)
        | (w, .ok _) => (w, .ok none)
      else (w, .ok none)
    | some u =>
      if cfg.realPassword || cfg.smsOnlyRegister then
        answer (setPassword env w u.id (form.get "password"))
      else (w, .ok none)

def passwordReset : Plan :=
  match request.form with
  | .error e => .reply w (.error e)
  | .ok form =>
    match normalizeAccount env ((phoneForSMS w form).toOption.getD "") with
    | .error e => .reply w (.error e)
    | .ok phone =>
      if phone = "" then .reply w (.error "请输入手机号")
      else
        let scene := orDefault (form.get "scene") "password"
        match userByPhone env w phone with
        | .error e => .reply w (.error e)
        | .ok u =>
          if cfg.smsOnlyRegister && (u.isNone || userHasPassword (u.getD User.zero)) then
            if form.get "password" ≠ "" then
              match passwordHash env w (form.get "password") with
              | (w, .error e) => .reply w (.error e)
              | (w, .ok _) => .reply w (.ok none)
            else .reply w (.ok none)
          else .checkScene w phone scene (form.get "code") (resetPassword cfg env form u)

def accountBindPhone : Plan :=
  match request.form with
  | .error e => .reply w (.error e)
  | .ok form =>
    match userFromFields w form with
    | .error e => .reply w (.error e)
    | .ok u =>
      match normalizeAccount env (phoneOf form) with
      | .error e => .reply w (.error e)
      | .ok newPhone =>
        let code := trimSpace (form.get "code")
        if code = "" then .reply w (.error "请输入验证码")
        else
          .checkAny w newPhone code [form.get "scene", "bind", "account", "change_phone",
              "usercenter", "default", "login", "register", "password"]
            fun w => answer (updatePhone env w u.id newPhone)

def cancellationCodeVerify : Plan :=
  match request.form with
  | .error e => .reply w (.error e)
  | .ok form =>
    match userFromFields w form with
    | .error e => .reply w (.error e)
    | .ok u =>
      .checkAny w u.phone (form.get "code") ["cancellation", "account", "usercenter"]
        fun w => (w, .ok none)

/-- The binding that an unbinding of `kind` retains. -/
def retainedBinding (kind : String) (bindings : String × String) : Except String String :=
  if kind = "phone" then
    if bindings.2 = "" then .error "手机号和邮箱至少保留一个" else .ok bindings.2
  else if kind = "email" then
    if bindings.1 = "" then .error "手机号和邮箱至少保留一个" else .ok bindings.1
  else .error "请选择手机号或邮箱"

def accountUnbind : Plan :=
  match request.form with
  | .error e => .reply w (.error e)
  | .ok form =>
    match userFromFields w form with
    | .error e => .reply w (.error e)
    | .ok u =>
      match retainedBinding (form.get "kind") (accountBindings w u) with
      | .error e => .reply w (.error e)
      | .ok retained =>
        .checkAny w retained (form.get "code") ["unbind"]
          fun w => answer (unbindVerified env w u.id (form.get "kind") retained)

def registerWithCode (phone password : String) (w : World) : World × Reply :=
  match getOrCreateUser env w phone with
  | (w, .error e) => (w, .error e)
  | (w, .ok (u, created)) =>
    if password = "" then (w, .ok none)
    else if created then answer (setPassword env w u.id password)
    else
      match passwordHash env w password with
      | (w, .error e) => (w, .error e)
      | (w, .ok _) => (w, .ok none)

def userCenterRegister : Plan :=
  if !request.validCSRF then .reply w (.error pageExpired)
  else
    match normalizeAccount env (request.post.get "phone") with
    | .error e => .reply w (.error e)
    | .ok phone =>
      match userByPhone env w phone with
      | .error e => .reply w (.error e)
      | .ok u =>
        if (u.isNone && !cfg.allowRegister) || (u.isSome && cfg.smsOnlyRegister) then
          .reply w (.error "当前手机号不能注册")
        else
          .checkScene w phone "register" (request.post.get "code")
            (registerWithCode env phone (request.post.get "password"))

def recoverWithCode (u : Option User) (password : String) (w : World) : World × Reply :=
  match u with
  | none =>
    match passwordHash env w password with
    | (w, .error e) => (w, .error e)
    | (w, .ok _) => (w, .ok none)
  | some u => answer (setPassword env w u.id password)

def userCenterRecoverPassword : Plan :=
  if !request.validCSRF then .reply w (.error pageExpired)
  else
    match normalizeAccount env (request.post.get "phone") with
    | .error e => .reply w (.error e)
    | .ok phone =>
      let password := request.post.get "password"
      if password = "" then .reply w (.error "请输入密码")
      else
        match userByPhone env w phone with
        | .error e => .reply w (.error e)
        | .ok u =>
          if cfg.smsOnlyRegister && (u.isNone || userHasPassword (u.getD User.zero)) then
            match passwordHash env w password with
            | (w, .error e) => .reply w (.error e)
            | (w, .ok _) => .reply w (.ok none)
          else
            .checkScene w phone "password" (request.post.get "code")
              (recoverWithCode env u password)

def userCenterChangePassword : Plan :=
  if !request.validCSRF then .reply w (.error pageExpired)
  else
    match passwordLogin env w (request.post.get "phone") (request.post.get "old_password") with
    | (w, .error e) => .reply w (.error e)
    | (w, .ok u) =>
      let newPassword := request.post.get "new_password"
      if newPassword = "" then .reply w (.error "请输入新密码")
      else
        let (w, result) := answer (setPassword env w u.id newPassword)
        .reply w result

/-- `unbindAndDeleteUser`: the game servers have to confirm first. -/
def unbindAndDeleteUser (w : World) (userID : ℕ) (hard : Bool) : World × Except String Unit :=
  if userID = 0 then (w, .error "invalid account id")
  else
    match request.unbound with
    | .error e => (w, .error ("解绑 BOOI 角色失败，SDK 账号未变更: " ++ e))
    | .ok () => if hard then hardDeleteUser w userID else deleteUser w userID

def userCenterDeleteAccount : Plan :=
  if !request.validCSRF then .reply w (.error pageExpired)
  else
    match passwordLogin env w (request.post.get "phone") (request.post.get "password") with
    | (w, .error e) => .reply w (.error e)
    | (w, .ok u) =>
      let (w, result) := answer (unbindAndDeleteUser request w u.id false)
      .reply w result

def userCenterChangePhone : Plan :=
  if !request.validCSRF then .reply w (.error pageExpired)
  else
    match normalizeAccount env (request.post.get "new_phone") with
    | .error e => .reply w (.error e)
    | .ok newPhone =>
      match passwordLogin env w (request.post.get "old_phone") (request.post.get "password") with
      | (w, .error e) => .reply w (.error e)
      | (w, .ok u) =>
        .checkScene w newPhone "change_phone" (request.post.get "code")
          fun w => answer (updatePhone env w u.id newPhone)

end

inductive Handler
  | sendCode
  | sendCodeWithData
  | userCenterSendCode
  | userLogin
  | mobileRegister
  | emailRegister
  | refreshToken
  | passwordReset
  | accountBindPhone
  | cancellationCodeVerify
  | accountUnbind
  | userCenterRegister
  | userCenterRecoverPassword
  | userCenterChangePassword
  | userCenterDeleteAccount
  | userCenterChangePhone
  deriving DecidableEq

def Handler.plan (cfg : AuthConfig) (env : Externals) (request : Request) (w : World) :
    Handler → Plan
  | .sendCode => PapeSdk.sendCode cfg env request w
  | .sendCodeWithData => PapeSdk.sendCodeWithData cfg env request w
  | .userCenterSendCode => PapeSdk.userCenterSendCode cfg env request w
  | .userLogin => PapeSdk.userLogin cfg env request w
  | .mobileRegister => PapeSdk.mobileRegister cfg env request w
  | .emailRegister => PapeSdk.emailRegister cfg env request w
  | .refreshToken => PapeSdk.refreshToken env request w
  | .passwordReset => PapeSdk.passwordReset cfg env request w
  | .accountBindPhone => PapeSdk.accountBindPhone env request w
  | .cancellationCodeVerify => PapeSdk.cancellationCodeVerify request w
  | .accountUnbind => PapeSdk.accountUnbind env request w
  | .userCenterRegister => PapeSdk.userCenterRegister cfg env request w
  | .userCenterRecoverPassword => PapeSdk.userCenterRecoverPassword cfg env request w
  | .userCenterChangePassword => PapeSdk.userCenterChangePassword env request w
  | .userCenterDeleteAccount => PapeSdk.userCenterDeleteAccount env request w
  | .userCenterChangePhone => PapeSdk.userCenterChangePhone env request w

/-- One completed request. -/
def serve (cfg : AuthConfig) (env : Externals) (h : Handler) (request : Request) (w : World) :
    World × Reply := (h.plan cfg env request w).run env

/-- A completed request, or any other operation of the store. -/
inductive ServerLabel
  | request (h : Handler) (request : Request)
  | other (op : Op)
  deriving DecidableEq

def ServerLabel.perform (cfg : AuthConfig) (env : Externals) (w : World) : ServerLabel → World
  | .request h r => (serve cfg env h r w).1
  | .other op => (exec env w op).1

/-- Codes are the last six digits of the phone number, and new accounts are welcome. -/
def openConfig : AuthConfig where
  realPassword := false
  realSMS := false
  allowRegister := true
  smsOnlyRegister := false

def sendRequest : Request := { form := .ok [("phone", "13800000000")] }

def loginRequest : Request := { form := .ok [("phone", "13800000000"), ("code", "000000")] }

end PapeSdk
