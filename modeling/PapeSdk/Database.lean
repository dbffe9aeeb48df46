import PapeSdk.KeyedTables
import PapeSdk.Identifiers

/-!
The SQLite database of the store. A row keeps every column that some modelled
statement reads or writes; the unique constraints of the schema are the keys
of its tables, so a database that violates one cannot be written down. Time is
counted in Unix seconds. `World` adds the clock and the number of random
values drawn so far.
-/

namespace PapeSdk

open KeyedTables

structure UserRow where
  id : ℕ
  phone : String
  email : Option String := none
  token : String := ""
  refreshToken : Option String := none
  tokenExpiresAt : ℕ := 0
  refreshTokenExpiresAt : ℕ := 0
  tokenRevokedAt : Option ℕ := none
  longToken : Option String := none
  passwordHash : Option String := none
  securityChangedAt : ℕ := 0
  securityOverride : Option ℕ := none
  cancellationStatus : ℕ := 1
  cancellationAt : Option ℕ := none
  deletedAt : Option ℕ := none
  createdAt : ℕ
  lastLoginAt : ℕ
  deriving DecidableEq, Repr

structure AuthSession where
  id : String
  userID : ℕ
  accessToken : String
  refreshToken : String
  accessExpiresAt : ℕ
  refreshExpiresAt : ℕ
  revokedAt : Option ℕ
  createdAt : ℕ
  refreshedAt : ℕ
  deriving DecidableEq, Repr

structure CometSession where
  id : String
  userID : ℕ
  token : String
  createdAt : ℕ
  deriving DecidableEq, Repr

structure SmsVerification where
  id : ℕ
  phone : String
  scene : String
  code : String
  ip : String
  createdAt : ℕ
  expiresAt : ℕ
  consumedAt : Option ℕ
  deriving DecidableEq, Repr

structure SmsEvent where
  phone : String
  ip : String
  createdAt : ℕ
  deriving DecidableEq, Repr

/-- Primary key, unique phone column and the partial unique index on email. -/
inductive UserKey
  | id (value : ℕ)
  | phone (value : String)
  | email (value : String)
  deriving DecidableEq

def emailKeys : Option String → List UserKey
  | some email => if email = "" then [] else [.email email]
  | none => []

def userKeys (r : UserRow) : List UserKey := .id r.id :: .phone r.phone :: emailKeys r.email

theorem mem_userKeys {r : UserRow} {k : UserKey} :
    k ∈ userKeys r ↔ k = .id r.id ∨ k = .phone r.phone ∨
      ∃ email, r.email = some email ∧ email ≠ "" ∧ k = .email email := by
  have hemail : k ∈ emailKeys r.email ↔ ∃ email, r.email = some email ∧ email ≠ "" ∧
      k = .email email := by
    cases r.email with
    | none => simp [emailKeys]
    | some email =>
      by_cases hempty : email = ""
      · simp [emailKeys, hempty]
      · simp [emailKeys, hempty]
  rw [userKeys, List.mem_cons, List.mem_cons, hemail]

inductive SessionKey
  | id (value : String)
  | access (value : String)
  | refresh (value : String)
  deriving DecidableEq

def sessionKeys (s : AuthSession) : List SessionKey :=
  [.id s.id, .access s.accessToken, .refresh s.refreshToken]

def cometKeys (s : CometSession) : List String := [s.id]

def smsKeys (r : SmsVerification) : List ℕ := [r.id]

/-- `hasOpenID` and `hasNID` tell whether the users table still has the legacy
columns of these names; the sequences are the rows of `sqlite_sequence`. -/
structure Db where
  users : Table userKeys
  authSessions : Table sessionKeys
  cometSessions : Table cometKeys
  smsVerifications : Table smsKeys
  smsEvents : List SmsEvent
  userSequence : Option ℕ
  smsSequence : ℕ
  hasOpenID : Bool
  hasNID : Bool

structure World where
  db : Db
  now : ℕ
  draws : ℕ

/-- A database file without any table yet. -/
def Db.blank : Db where
  users := Table.empty userKeys
  authSessions := Table.empty sessionKeys
  cometSessions := Table.empty cometKeys
  smsVerifications := Table.empty smsKeys
  smsEvents := []
  userSequence := none
  smsSequence := 0
  hasOpenID := false
  hasNID := false

def firstUserID : ℕ := 100000001

def accessTokenTTL : ℕ := 2 * 60 * 60

def refreshTokenTTL : ℕ := 30 * 24 * 60 * 60

def uniqueConstraintFailed : String := "UNIQUE constraint failed"

def noRows : String := "sql: no rows in result set"

/-- AUTOINCREMENT: one more than the larger of the sequence and the largest id. -/
def nextID (sequence : ℕ) (ids : List ℕ) : ℕ := max sequence (ids.foldr max 0) + 1

theorem le_foldr_max {ids : List ℕ} {i : ℕ} (h : i ∈ ids) : i ≤ ids.foldr max 0 := by
  induction ids with
  | nil => cases h
  | cons a rest ih =>
    rw [List.foldr_cons]
    rcases List.mem_cons.mp h with rfl | hrest
    · exact le_max_left _ _
    · exact le_trans (ih hrest) (le_max_right _ _)

theorem lt_nextID {sequence : ℕ} {ids : List ℕ} {i : ℕ} (h : i ∈ ids) :
    i < nextID sequence ids := by
  have := le_foldr_max h
  unfold nextID
  omega

theorem sequence_lt_nextID (sequence : ℕ) (ids : List ℕ) : sequence < nextID sequence ids := by
  unfold nextID
  omega

namespace Db

def nextUserID (db : Db) : ℕ :=
  nextID (db.userSequence.getD 0) (db.users.rows.map UserRow.id)

def nextSmsID (db : Db) : ℕ :=
  nextID db.smsSequence (db.smsVerifications.rows.map SmsVerification.id)

/-- Insert a user row under the next id; `none` when a unique constraint fails. -/
def insertUser (db : Db) (row : UserRow) : Option Db :=
  match db.users.insert? { row with id := db.nextUserID } with
  | none => none
  | some users => some { db with users := users, userSequence := some db.nextUserID }

theorem insertUser_some {db after : Db} {row : UserRow} (h : db.insertUser row = some after) :
    ∃ users, db.users.insert? { row with id := db.nextUserID } = some users ∧
      after = { db with users := users, userSequence := some db.nextUserID } := by
  unfold insertUser at h
  split at h
  · cases h
  · next users husers => exact ⟨users, husers, (Option.some.inj h).symm⟩

theorem lt_nextUserID {db : Db} {r : UserRow} (h : r ∈ db.users.rows) : r.id < db.nextUserID :=
  lt_nextID (List.mem_map_of_mem h)

end Db

/-- The Go struct `store.User`. -/
structure User where
  id : ℕ
  phone : String
  openID : String
  nid : ℕ
  token : String
  refreshToken : Option String
  passwordHash : Option String
  longToken : Option String
  deletedAt : Option ℕ
  deriving DecidableEq, Repr

/-- The zero value `User{}`. -/
def User.zero : User := ⟨0, "", "", 0, "", none, none, none, none⟩

namespace UserRow

/-- `scanUser` on a row of the join, with the token pair of the session. -/
def scanWith (r : UserRow) (token : String) (refreshToken : Option String) : User where
  id := r.id
  phone := r.phone
  openID := toString r.id
  nid := r.id
  token := token
  refreshToken := refreshToken
  passwordHash := r.passwordHash
  longToken := r.longToken
  deletedAt := r.deletedAt

def scan (r : UserRow) : User := r.scanWith r.token r.refreshToken

@[simp] theorem scanWith_id (r : UserRow) (token : String) (refresh : Option String) :
    (r.scanWith token refresh).id = r.id := rfl

@[simp] theorem scan_id (r : UserRow) : r.scan.id = r.id := rfl

/-- `where id = ? and deleted_at is null`. -/
def isLive (id : ℕ) (r : UserRow) : Bool := r.id == id && r.deletedAt.isNone

theorem isLive_iff {id : ℕ} {r : UserRow} :
    r.isLive id = true ↔ r.id = id ∧ r.deletedAt = none := by
  simp [isLive]

end UserRow

namespace Db

theorem user_eq_of_id (db : Db) {a b : UserRow} (ha : a ∈ db.users.rows) (hb : b ∈ db.users.rows)
    (hid : a.id = b.id) : a = b :=
  db.users.eq_of_key (k := .id a.id) ha hb (by simp [userKeys]) (by simp [userKeys, hid])

theorem user_eq_of_phone (db : Db) {a b : UserRow} (ha : a ∈ db.users.rows)
    (hb : b ∈ db.users.rows) (hphone : a.phone = b.phone) : a = b :=
  db.users.eq_of_key (k := .phone a.phone) ha hb (by simp [userKeys]) (by simp [userKeys, hphone])

theorem user_eq_of_email (db : Db) {a b : UserRow} {email : String} (ha : a ∈ db.users.rows)
    (hb : b ∈ db.users.rows) (hne : email ≠ "") (hae : a.email = some email)
    (hbe : b.email = some email) : a = b :=
  db.users.eq_of_key (k := .email email) ha hb (by simp [userKeys, emailKeys, hae, hne])
    (by simp [userKeys, emailKeys, hbe, hne])

theorem session_eq_of_access (db : Db) {a b : AuthSession} (ha : a ∈ db.authSessions.rows)
    (hb : b ∈ db.authSessions.rows) (h : a.accessToken = b.accessToken) : a = b :=
  db.authSessions.eq_of_key (k := .access a.accessToken) ha hb (by simp [sessionKeys])
    (by simp [sessionKeys, h])

theorem session_eq_of_refresh (db : Db) {a b : AuthSession} (ha : a ∈ db.authSessions.rows)
    (hb : b ∈ db.authSessions.rows) (h : a.refreshToken = b.refreshToken) : a = b :=
  db.authSessions.eq_of_key (k := .refresh a.refreshToken) ha hb (by simp [sessionKeys])
    (by simp [sessionKeys, h])

theorem session_eq_of_id (db : Db) {a b : AuthSession} (ha : a ∈ db.authSessions.rows)
    (hb : b ∈ db.authSessions.rows) (h : a.id = b.id) : a = b :=
  db.authSessions.eq_of_key (k := .id a.id) ha hb (by simp [sessionKeys])
    (by simp [sessionKeys, h])

theorem sms_eq_of_id (db : Db) {a b : SmsVerification} (ha : a ∈ db.smsVerifications.rows)
    (hb : b ∈ db.smsVerifications.rows) (h : a.id = b.id) : a = b :=
  db.smsVerifications.eq_of_key (k := a.id) ha hb (by simp [smsKeys]) (by simp [smsKeys, h])

end Db

end PapeSdk
