import Mathlib.Data.List.Sort
import PapeSdk.AuthSessions

/-!
Accounts and their identifiers: the statements of `internal/store/bindings.go`
and `internal/store/admin.go` and the account part of
`internal/store/store.go`. One column of a users row holds the phone number,
or the email of an account without one; a second column holds the email. Where
the source has an exported function and an unexported one of nearly the same
name, the unexported one carries the suffix `Row` or `Tx` here.
-/

namespace PapeSdk

open KeyedTables Identifiers

/-- `(phone = ? or email = ?) and deleted_at is null`. -/
def UserRow.answersTo (x : String) (r : UserRow) : Bool :=
  (r.phone == x || r.email == some x) && r.deletedAt.isNone

theorem UserRow.answersTo_iff {x : String} {r : UserRow} :
    r.answersTo x = true ↔ (r.phone = x ∨ r.email = some x) ∧ r.deletedAt = none := by
  simp [UserRow.answersTo]

/-- `store.userByPhone`. -/
def userByPhoneRow (w : World) (x : String) : Option User :=
  (w.db.users.first? (UserRow.answersTo x)).map UserRow.scan

/-- `Store.UserByPhone`. -/
def userByPhone (env : Externals) (w : World) (phone : String) : Except String (Option User) :=
  match normalizeAccount env phone with
  | .error e => .error e
  | .ok x => .ok (userByPhoneRow w x)

def emailValue (email : String) : Option String := if email = "" then none else some email

def primaryOf (phone email : String) : String := if phone = "" then email else phone

def createAccount (env : Externals) (w : World) (phone email hash : String) :
    World × Except String User :=
  match validateBindings env phone email with
  | .error e => (w, .error e)
  | .ok (phone, email) =>
    let row : UserRow :=
      { id := 0, phone := primaryOf phone email, email := emailValue email
        passwordHash := some hash, tokenRevokedAt := some 0
        createdAt := w.now, lastLoginAt := w.now }
    match w.db.insertUser row with
    | none => (w, .error "手机号或邮箱已被其他账号绑定")
    | some db =>
      let w := { w with db := db }
      (w, .ok ((userByPhoneRow w (primaryOf phone email)).getD User.zero))

/-- `store.createUser`: a phone account, or the winner's row after a lost race. -/
def createUserRow (env : Externals) (w : World) (phone : String) :
    World × Except String (User × Bool) :=
  match w.db.insertUser { id := 0, phone := phone, createdAt := w.now, lastLoginAt := w.now } with
  | some db =>
    let (w', issued) := issueAuthSession env { w with db := db } w.db.nextUserID
    (w', issued.map fun u => (u, true))
  | none =>
    match userByPhoneRow w phone with
    | none => (w, .ok (User.zero, false))
    | some existing =>
      let (w', issued) := issueAuthSession env w existing.id
      (w', issued.map fun u => (u, false))

def getOrCreateUser (env : Externals) (w : World) (phone : String) :
    World × Except String (User × Bool) :=
  match normalizeAccount env phone with
  | .error e => (w, .error e)
  | .ok x =>
    match userByPhoneRow w x with
    | some u =>
      let (w', issued) := issueAuthSession env w u.id
      (w', issued.map fun u => (u, false))
    | none =>
      if hasAt x then
        match createAccount env w "" x "" with
        | (w, .error e) => (w, .error e)
        | (w, .ok u) =>
          let (w', issued) := issueAuthSession env w u.id
          (w', issued.map fun u => (u, true))
      else createUserRow env w x

/-- `Store.CreateUser`. -/
def createUser (env : Externals) (w : World) (phone : String) : World × Except String User :=
  match normalizeAccount env phone with
  | .error e => (w, .error e)
  | .ok x =>
    match getOrCreateUser env w x with
    | (w, .error e) => (w, .error e)
    | (w, .ok (u, created)) => if created then (w, .ok u) else (w, .error "账号已存在")

/-- The phone and the email that `updateBindings` reads out of a row. -/
def currentBindings (r : UserRow) : String × String :=
  if hasAt r.phone then ("", r.phone) else (r.phone, r.email.getD "")

/-- The users row after `updateBindings`. -/
def UserRow.rebound (r : UserRow) (phone email : String) (now : ℕ) : UserRow :=
  { r with
    phone := primaryOf phone email
    email := emailValue email
    securityChangedAt := now
    securityOverride := none }

/-- `store.updateBindings`: one write transaction. -/
def updateBindingsTx (env : Externals) (w : World) (id : ℕ) (phone email : Option String)
    (kind retained : String) : World × Except String Unit :=
  match w.db.users.first? (UserRow.isLive id) with
  | none => (w, .error "账号不存在")
  | some row =>
    let (currentPhone, currentEmail) := currentBindings row
    if kind = "phone" ∧ currentEmail ≠ retained ∨ kind = "email" ∧ currentPhone ≠ retained then
      (w, .error "绑定信息已变更，请重新验证")
    else
      match validateBindings env (phone.getD currentPhone) (email.getD currentEmail) with
      | .error e => (w, .error e)
      | .ok (newPhone, newEmail) =>
        match w.db.users.update? (fun r => r.id == id) fun r =>
            r.rebound newPhone newEmail w.now with
        | none => (w, .error "手机号或邮箱已被其他账号绑定")
        | some users => ({ w with db := { w.db with users := users } }, .ok ())

/-- `Store.UpdateBindings`. -/
def updateBindings (env : Externals) (w : World) (id : ℕ) (phone email : Option String) :
    World × Except String Unit := updateBindingsTx env w id phone email "" ""

def unbindVerified (env : Externals) (w : World) (id : ℕ) (kind retained : String) :
    World × Except String Unit :=
  if kind = "phone" then updateBindingsTx env w id (some "") none kind retained
  else if kind = "email" then updateBindingsTx env w id none (some "") kind retained
  else (w, .error "invalid binding kind")

def updatePhone (env : Externals) (w : World) (userID : ℕ) (account : String) :
    World × Except String Unit :=
  match normalizeAccount env account with
  | .error e => (w, .error e)
  | .ok value =>
    if hasAt value then updateBindings env w userID none (some value)
    else updateBindings env w userID (some value) none

/-- The phone and the email of an account read earlier; the email column is read now. -/
def accountBindings (w : World) (u : User) : String × String :=
  if hasAt u.phone then ("", beforeDeletedMark u.phone)
  else (u.phone, ((w.db.users.first? fun r => r.id == u.id).bind UserRow.email).getD "")

/-- A first password leaves the security columns alone. -/
def UserRow.withPassword (r : UserRow) (hash : String) (now : ℕ) : UserRow :=
  { r with
    securityChangedAt := if r.passwordHash.getD "" = "" then r.securityChangedAt else now
    securityOverride := if r.passwordHash.getD "" = "" then r.securityOverride else none
    passwordHash := some hash }

def setPasswordHash (w : World) (userID : ℕ) (hash : String) : World × Except String Unit :=
  let users := w.db.users.touch (fun r => r.id == userID) (fun r => r.withPassword hash w.now)
  ({ w with db := { w.db with users := users } }, .ok ())

def setSecurityOverride (w : World) (id : ℕ) (safe : Bool) : World × Except String Unit :=
  if w.db.users.affected (fun r => r.id == id) ≠ 1 then (w, .error "账号不存在")
  else
    let users := w.db.users.touch (fun r => r.id == id)
      (fun r => { r with securityOverride := some (if safe then 1 else 0) })
    ({ w with db := { w.db with users := users } }, .ok ())

/-- The soft deletion that `DeleteUser` and `CompleteCancellation` share. -/
def UserRow.softDelete (r : UserRow) (now : ℕ) : UserRow :=
  { r with
    phone := markDeleted r.phone now
    email := none
    token := ""
    refreshToken := none
    tokenRevokedAt := some now
    longToken := none
    deletedAt := some now }

def deleteUser (w : World) (userID : ℕ) : World × Except String Unit :=
  match w.db.users.update? (UserRow.isLive userID) fun r => r.softDelete w.now with
  | none => (w, .error uniqueConstraintFailed)
  | some users =>
    let sessions := w.db.revokeSessionsOf userID w.now
    ({ w with db := { w.db with users := users, authSessions := sessions } }, .ok ())

/-- `Store.Cancellation`: the status and the deadline, zero when there is none. -/
def cancellation (w : World) (userID : ℕ) : Except String (ℕ × ℕ) :=
  match w.db.users.first? (UserRow.isLive userID) with
  | none => .error noRows
  | some r => .ok (r.cancellationStatus, r.cancellationAt.getD 0)

def setCancellation (w : World) (userID status cancelAt : ℕ) : World × Except String Unit :=
  let at? := if 0 < cancelAt then some cancelAt else none
  let users := w.db.users.touch (UserRow.isLive userID)
    (fun r => { r with cancellationStatus := status, cancellationAt := at? })
  ({ w with db := { w.db with users := users } }, .ok ())

/-- A live row whose cooling-off period ended by `now`. -/
def UserRow.isDue (now : ℕ) (r : UserRow) : Bool :=
  r.cancellationStatus == 2 && r.cancellationAt.any (fun at' => at' ≤ now) && r.deletedAt.isNone

theorem UserRow.isDue_iff {now : ℕ} {r : UserRow} :
    r.isDue now = true ↔ r.cancellationStatus = 2 ∧ (∃ t, r.cancellationAt = some t ∧ t ≤ now) ∧
      r.deletedAt = none := by
  simp [UserRow.isDue, Option.any_eq_true, and_assoc]

theorem toString_injective {m n : ℕ} (h : toString m = toString n) : m = n := by
  have hdigits := congrArg String.toList h
  simp only [Nat.toString_eq_ofList_toDigits, String.toList_ofList] at hdigits
  have hvalue := congrArg (fun digits => Nat.ofDigitChars 10 digits 0) hdigits
  simpa [Nat.ofDigitChars_toDigits] using hvalue

structure DueCancellation where
  userID : ℕ
  openID : String
  deriving DecidableEq, Repr

/-- `order by cancellation_at, id`. -/
def dueBefore (a b : UserRow) : Prop :=
  a.cancellationAt.getD 0 < b.cancellationAt.getD 0 ∨
    a.cancellationAt.getD 0 = b.cancellationAt.getD 0 ∧ a.id ≤ b.id

instance : DecidableRel dueBefore := fun _ _ => inferInstanceAs (Decidable (_ ∨ _))

def dueCancellations (w : World) (now limit : ℕ) : List DueCancellation :=
  let limit := if limit = 0 then 100 else limit
  (((w.db.users.rows.filter (UserRow.isDue now)).insertionSort dueBefore).take limit).map
    fun r => ⟨r.id, toString r.id⟩

def completeCancellation (w : World) (userID now : ℕ) : World × Except String Bool :=
  let due : UserRow → Bool := fun r => r.id == userID && r.isDue now
  match w.db.users.update? due fun r => r.softDelete now with
  | none => (w, .error uniqueConstraintFailed)
  | some users =>
    if w.db.users.affected due = 0 then (w, .ok false)
    else
      let sessions := w.db.revokeSessionsOf userID now
      ({ w with db := { w.db with users := users, authSessions := sessions } }, .ok true)

/-- The select of `RestoreUser` and the checks on the identifier to restore. -/
def restoreSelect (env : Externals) (w : World) (id : ℕ) (phone : String) :
    Except String String :=
  match w.db.users.first? fun r => r.id == id with
  | none => .error noRows
  | some r =>
    let phone := LetterCase.trimSpace phone
    normalizeAccount env (if phone = "" then beforeDeletedMark r.phone else phone)

def UserRow.restored (r : UserRow) (phone : String) (now : ℕ) : UserRow :=
  { r with
    phone := phone
    email := if hasAt phone then some phone else none
    cancellationStatus := 1
    cancellationAt := none
    deletedAt := none
    securityChangedAt := now
    securityOverride := none }

/-- The update of `RestoreUser`. -/
def restoreUpdate (w : World) (id : ℕ) (phone : String) : World × Except String Unit :=
  match w.db.users.update? (fun r => r.id == id) fun r => r.restored phone w.now with
  | none => (w, .error uniqueConstraintFailed)
  | some users =>
    if w.db.users.affected (fun r => r.id == id) ≠ 1 then (w, .error "账号不存在")
    else ({ w with db := { w.db with users := users } }, .ok ())

def restoreUser (env : Externals) (w : World) (id : ℕ) (phone : String) :
    World × Except String Unit :=
  match restoreSelect env w id phone with
  | .error e => (w, .error e)
  | .ok phone => restoreUpdate w id phone

def hardDeleteUser (w : World) (id : ℕ) : World × Except String Unit :=
  if w.db.users.affected (fun r => r.id == id) ≠ 1 then (w, .error "账号不存在")
  else
    ({ w with
        db := { w.db with
          users := w.db.users.delete fun r => r.id == id
          authSessions := w.db.authSessions.delete fun s => s.userID == id
          cometSessions := w.db.cometSessions.delete fun s => s.userID == id } }, .ok ())

def accountSecurityWindow : ℕ := 14 * 24 * 60 * 60

/-- `IsSafe` of `applySecurityStatus`: an override decides, else the time of the last change,
which is zero when there was none. -/
def applySecurityStatus (changedAt : ℕ) (override : Option ℕ) (now : ℕ) : Bool :=
  match override with
  | some value => value != 0
  | none => changedAt == 0 || changedAt + accountSecurityWindow ≤ now

def userSafeStatus (w : World) (id : ℕ) : Except String Bool :=
  match w.db.users.first? (UserRow.isLive id) with
  | none => .error noRows
  | some r => .ok (applySecurityStatus r.securityChangedAt r.securityOverride w.now)

end PapeSdk
