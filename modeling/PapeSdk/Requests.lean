import PapeSdk.StoreRuns

/-!
The helpers of `internal/app/app.go` that its handlers share: the fields of a
form, the account a request speaks for, passwords, and the issue and the check
of one-time codes. What a request brings from outside the process stands in a
record: its fields, the result of parsing and decrypting its form, the digits
drawn for it and the answers of the mail, message and game servers.
-/

namespace PapeSdk

open Identifiers LetterCase

/-- The flags of the `auth` section of the configuration. -/
structure AuthConfig where
  realPassword : Bool
  realSMS : Bool
  allowRegister : Bool
  smsOnlyRegister : Bool
  deriving DecidableEq

/-- Fields by name; the first entry of a name counts. -/
abbrev Form := List (String × String)

/-- `form[key]`, empty when there is no such field. -/
def Form.get (form : Form) (key : String) : String := (form.lookup key).getD ""

structure Request where
  path : String := "/v1/user/login"
  /-- The result of `a.form`. -/
  form : Except String Form := .ok []
  /-- The fields that `c.PostForm` reads. -/
  post : Form := []
  clientIP : String := ""
  validCSRF : Bool := true
  /-- The result of `randomDigits(6)`. -/
  digits : String := ""
  /-- The result of sending a code by mail or message. -/
  sent : Except String Unit := .ok ()
  /-- The result of `UnbindRoles`. -/
  unbound : Except String Unit := .ok ()
  deriving DecidableEq

def phoneKeys : List String :=
  ["phone", "mobile", "email", "account", "bind_account", "change_account", "new_phone"]

def phoneOf (form : Form) : String :=
  ((phoneKeys.map fun key => trimSpace (form.get key)).find? fun value => value ≠ "").getD ""

/-- `a`, or `b` when `a` is empty. -/
def orDefault (a b : String) : String := if a = "" then b else a

def userFromFields (w : World) (form : Form) : Except String User :=
  let token := orDefault (form.get "token") (form.get "access_token")
  let longToken := orDefault (form.get "long_token") (form.get "longToken")
  if token ≠ "" then
    match userByToken w token with
    | .error e => .error e
    | .ok none => .error "登录凭证无效"
    | .ok (some u) => .ok u
  else if longToken ≠ "" then
    match userByLongToken w longToken with
    | .error e => .error e
    | .ok none => .error "长连接凭证无效"
    | .ok (some u) => .ok u
  else .error "缺少登录凭证"

def phoneForSMS (w : World) (form : Form) : Except String String :=
  if phoneOf form ≠ "" then .ok (phoneOf form)
  else
    match userFromFields w form with
    | .ok u => .ok u.phone
    | .error e =>
      if form.get "nid" ≠ "" ∨ form.get "token" ≠ "" ∨ form.get "access_token" ≠ "" ∨
          form.get "long_token" ≠ "" ∨ form.get "longToken" ≠ "" then .error e
      else .ok ""

def userHasPassword (u : User) : Bool := u.passwordHash.getD "" != ""

def errInvalidCredentials : String := "用户名或密码有误"

def validatePassword (password : String) : Except String Unit :=
  if password.utf8ByteSize < 6 then .error "密码至少需要 6 位" else .ok ()

/-- A fresh salt is drawn for every hash; bcrypt takes at most 72 bytes. -/
def passwordHash (env : Externals) (w : World) (password : String) : World × Except String String :=
  match validatePassword password with
  | .error e => (w, .error e)
  | .ok () =>
    if 72 < password.utf8ByteSize then (w, .error "bcrypt: password length exceeds 72 bytes")
    else ({ w with draws := w.draws + 1 }, .ok (env.saltedHash w.draws password))

def setPassword (env : Externals) (w : World) (userID : ℕ) (password : String) :
    World × Except String Unit :=
  match passwordHash env w password with
  | (w, .error e) => (w, .error e)
  | (w, .ok hash) => setPasswordHash w userID hash

/-- The account that a password login is for, when the password is the right one. -/
def passwordAccount (env : Externals) (w : World) (phone password : String) : Option User :=
  match normalizeAccount env phone with
  | .error _ => none
  | .ok x =>
    match userByPhoneRow w x with
    | none => none
    | some u =>
      if password ≠ "" ∧ userHasPassword u = true ∧
          env.comparesHash (u.passwordHash.getD "") password = true then some u
      else none

def passwordLogin (env : Externals) (w : World) (phone password : String) :
    World × Except String User :=
  match passwordAccount env w phone password with
  | none => (w, .error errInvalidCredentials)
  | some u => createLoginSession env w u.id

/-- The scenes without empty ones and repetitions, in order. -/
def uniqueScenes (scenes : List String) : List String := (scenes.filter (· ≠ "")).eraseDups

def verifySMSForScene (env : Externals) (w : World) (phone scene code : String) :
    World × Except String Unit :=
  match normalizeAccount env phone with
  | .error e => (w, .error e)
  | .ok phone =>
    if scene = "" then (w, .error "缺少验证码用途")
    else verifySMS env w phone scene code

/-- The loop of `verifySMSForAnyScene`; `last` is the last error. -/
def verifyScenes (env : Externals) (w : World) (phone code : String) (last : Option String) :
    List String → World × Except String Unit
  | [] => (w, .error (last.getD "请先获取验证码"))
  | scene :: rest =>
    match verifySMSForScene env w phone scene code with
    | (w, .ok ()) => (w, .ok ())
    | (w, .error e) => verifyScenes env w phone code (some e) rest

def verifySMSForAnyScene (env : Externals) (w : World) (phone code : String)
    (scenes : List String) : World × Except String Unit :=
  verifyScenes env w phone code none (uniqueScenes scenes)

/-- Failures are only logged. -/
def mirrorSMSCode (env : Externals) (w : World) (phone code ip : String) (scenes : List String) :
    World :=
  (uniqueScenes scenes).foldl (fun w scene => (mirrorSMS env w phone scene code ip).1) w

/-- Case folding onto ASCII letters: besides capitals, the long s and the Kelvin sign. -/
def foldRune (c : Char) : Char :=
  if c.toNat = 0x17F then 's' else if c.toNat = 0x212A then 'k' else c.toLower

/-- `strings.EqualFold` with an ASCII text. -/
def equalFold (s t : String) : Bool := s.toList.map foldRune == t.toList.map foldRune

def isAccountMaintenanceSMSScene (scene : String) : Bool :=
  ["bind", "change_phone", "cancellation"].contains (toLower (trimSpace scene))

def smsIssuanceAllowed (cfg : AuthConfig) (env : Externals) (w : World) (phone scene : String)
    (authenticated : Bool) : Except String Bool :=
  if authenticated || isAccountMaintenanceSMSScene scene then .ok true
  else
    match userByPhone env w phone with
    | .error e => .error e
    | .ok none =>
      if !cfg.allowRegister then .ok false
      else .ok (!cfg.smsOnlyRegister || !equalFold scene "password")
    | .ok (some u) =>
      if !cfg.smsOnlyRegister then .ok true
      else .ok (equalFold scene "password" && !userHasPassword u)

/-- `phone[len(phone)-6:]`. -/
def lastSix (phone : String) : String := String.ofList (phone.toList.drop (phone.length - 6))

/-- The code that was issued; `none` when the configuration does not allow one. -/
def issueSMSForScene (cfg : AuthConfig) (env : Externals) (request : Request) (w : World)
    (phone scene : String) (authenticated : Bool) : World × Except String (Option String) :=
  match normalizeAccount env phone with
  | .error e => (w, .error e)
  | .ok phone =>
    if scene = "" then (w, .error "缺少验证码用途")
    else
      match smsIssuanceAllowed cfg env w phone scene authenticated with
      | .error e => (w, .error e)
      | .ok false => (w, .ok none)
      | .ok true =>
        let ip := if request.clientIP = "" then "unknown" else request.clientIP
        let limited := cfg.realSMS || hasAt phone
        match if limited then checkSMSRate env w phone ip else .ok () with
        | .error e => (w, .error e)
        | .ok () =>
          match if limited then request.sent else .ok () with
          | .error e => (w, .error e)
          | .ok () =>
            let drawn := if limited then request.digits else ""
            let code := if drawn = "" then lastSix phone else drawn
            match issueSMS env w phone scene code ip with
            | (w, .error e) => (w, .error e)
            | (w, .ok ()) => (w, .ok (some code))

def authenticatedSMSRequest (w : World) (form : Form) (phone : String) : Bool :=
  match userFromFields w form with
  | .error _ => false
  | .ok u => decide (0 < u.id ∧ phone ≠ "")

end PapeSdk
