import PapeSdk.Accounts

/-!
What `Open` does to a SQLite file: `init` with the renumbering of legacy user
ids and the import of legacy sessions, then `initBindings`. The columns that
`ensureColumns` adds have their defaults in the rows from the start. All steps
run on every start, guarded by conditions on the data.
-/

namespace PapeSdk

open KeyedTables Identifiers

/-- One account of `migrateUnifiedUserIDs` with its old and its new id. -/
structure StoredUser where
  row : UserRow
  newID : ℕ

/-- `select ... from users order by id`. -/
def Db.usersByID (db : Db) : List UserRow := db.users.rows.insertionSort fun a b => a.id ≤ b.id

/-- The accounts numbered upward from `firstUserID`. -/
def Db.storedUsers (db : Db) : List StoredUser :=
  db.usersByID.mapIdx fun index row => ⟨row, firstUserID + index⟩

/-- The row copied into `users_unified`; the columns it lacks get their defaults later. -/
def StoredUser.rebuilt (user : StoredUser) : UserRow :=
  { user.row with
    id := user.newID
    email := none
    securityChangedAt := 0
    securityOverride := none }

def moveAuthSessions (sessions : Table sessionKeys) (oldID newID : ℕ) : Table sessionKeys :=
  sessions.touch (fun s => s.userID == oldID) (fun s => { s with userID := newID })

def moveCometSessions (sessions : Table cometKeys) (oldID newID : ℕ) : Table cometKeys :=
  sessions.touch (fun s => s.userID == oldID) (fun s => { s with userID := newID })

/-- `users[len(users)-1].newID`, or one less than the first id when there is no user. -/
def lastNewID (users : List StoredUser) : ℕ :=
  match users.getLast? with
  | none => firstUserID - 1
  | some user => user.newID

/-- The sessions follow their account, one account after the other in id order. -/
def rebuildSQLiteUsers (db : Db) (users : List StoredUser) : Except String Db :=
  match Table.ofRows? userKeys (users.map StoredUser.rebuilt) with
  | none => .error uniqueConstraintFailed
  | some rows =>
    let moved := users.filter fun user => user.row.id ≠ user.newID
    .ok { db with
      users := rows
      authSessions := moved.foldl (fun sessions user =>
        moveAuthSessions sessions user.row.id user.newID) db.authSessions
      cometSessions := moved.foldl (fun sessions user =>
        moveCometSessions sessions user.row.id user.newID) db.cometSessions
      userSequence := some (lastNewID users)
      hasOpenID := false
      hasNID := false }

def setUserSequence (db : Db) (users : List StoredUser) : Db :=
  { db with userSequence := some (lastNewID users) }

def deleteOrphanCometSessions (db : Db) : Db :=
  { db with
    cometSessions := db.cometSessions.delete fun s => !db.users.rows.any fun u => u.id == s.userID
    authSessions := db.authSessions.delete fun s => !db.users.rows.any fun u => u.id == s.userID }

/-- Neither a legacy column nor an id below the first one. -/
def Db.isUnified (db : Db) : Bool :=
  !db.hasOpenID && !db.hasNID && db.users.rows.all fun u => firstUserID ≤ u.id

def needsRenumber (users : List StoredUser) : Bool :=
  (users.head?.any fun user => user.row.id != firstUserID) ||
    users.any fun user => user.row.id != user.newID

def migrateUnifiedUserIDs (db : Db) : Except String Db :=
  let users := db.storedUsers
  if db.isUnified then
    let db := if users.isEmpty then setUserSequence db users else db
    .ok (deleteOrphanCometSessions db)
  else if !db.hasOpenID && !db.hasNID && !needsRenumber users then
    .ok (deleteOrphanCometSessions (setUserSequence db users))
  else
    match rebuildSQLiteUsers db users with
    | .error e => .error e
    | .ok db => .ok (deleteOrphanCometSessions db)

/-- The pair in a users row that `migrateLegacyAuthSessions` takes for a legacy session. -/
def UserRow.legacyPair (now : ℕ) (r : UserRow) : Option (String × String) :=
  match r.refreshToken with
  | none => none
  | some refresh =>
    if r.token = "" ∨ refresh = "" ∨ r.tokenExpiresAt < now ∨ r.refreshTokenExpiresAt < now ∨
        r.tokenRevokedAt.isSome ∨ r.deletedAt.isSome then none
    else some (r.token, refresh)

/-- One round of the import loop. -/
def importLegacySession (env : Externals) (w : World) (r : UserRow) : World × Except String Unit :=
  match r.legacyPair w.now with
  | none => (w, .ok ())
  | some (access, refresh) =>
    if w.db.authSessions.affected
        (fun s => s.accessToken == access || s.refreshToken == refresh) ≠ 0
    then (w, .ok ())
    else
      let drawn := { w with draws := w.draws + 1 }
      match w.db.authSessions.insert?
          { id := env.makeToken "as" w.draws, userID := r.id
            accessToken := access, refreshToken := refresh
            accessExpiresAt := r.tokenExpiresAt, refreshExpiresAt := r.refreshTokenExpiresAt
            revokedAt := none, createdAt := r.lastLoginAt, refreshedAt := r.lastLoginAt } with
      | none => (drawn, .error uniqueConstraintFailed)
      | some sessions => ({ drawn with db := { w.db with authSessions := sessions } }, .ok ())

def importLegacySessions (env : Externals) (w : World) : List UserRow → World × Except String Unit
  | [] => (w, .ok ())
  | r :: rest =>
    match importLegacySession env w r with
    | (w, .error e) => (w, .error e)
    | (w, .ok ()) => importLegacySessions env w rest

def migrateLegacyAuthSessions (env : Externals) (w : World) : World × Except String Unit :=
  importLegacySessions env w w.db.users.rows

/-- The SQL function `lower`, which only knows ASCII letters. -/
def sqlLower (s : String) : String := s.map Char.toLower

/-- `phone like '%@%' and deleted_at is null and email is null`. -/
def UserRow.needsEmail (r : UserRow) : Bool :=
  hasAt r.phone && r.deletedAt.isNone && r.email.isNone

def initBindings (w : World) : World × Except String Unit :=
  match w.db.users.update? UserRow.needsEmail
      fun r => { r with email := some (sqlLower r.phone) } with
  | none => (w, .error uniqueConstraintFailed)
  | some users => ({ w with db := { w.db with users := users } }, .ok ())

/-- `store.Open` on an existing or blank file. -/
def openStore (env : Externals) (w : World) : World × Except String Unit :=
  match migrateUnifiedUserIDs w.db with
  | .error e => (w, .error e)
  | .ok db =>
    match migrateLegacyAuthSessions env { w with db := db } with
    | (w, .error e) => (w, .error e)
    | (w, .ok ()) => initBindings w

/-- The store right after its first start. -/
def World.fresh (env : Externals) (start : ℕ) : World :=
  (openStore env ⟨Db.blank, start, 0⟩).1

end PapeSdk
