import PapeSdk.Database

/-!
Device sessions: the statements of `internal/store/auth_sessions.go` and the
token lookups of `internal/store/store.go`. Every successful login adds a row
to `auth_sessions` and mirrors the pair in the users row; a refresh replaces
the pair of its own session. A function that fails inside its transaction
returns the database it was given.
-/

namespace PapeSdk

open KeyedTables

structure TokenPair where
  access : String
  refresh : String
  accessExpires : ℕ
  refreshExpires : ℕ

def newTokenPair (env : Externals) (w : World) : TokenPair where
  access := env.makeToken "pt" w.draws
  refresh := env.makeToken "rt" (w.draws + 1)
  accessExpires := w.now + accessTokenTTL
  refreshExpires := w.now + refreshTokenTTL

/-- `set token = ?, refresh_token = ?, ...` on a users row. -/
def UserRow.withPair (r : UserRow) (pair : TokenPair) (now : ℕ) : UserRow :=
  { r with
    token := pair.access
    refreshToken := some pair.refresh
    tokenExpiresAt := pair.accessExpires
    refreshTokenExpiresAt := pair.refreshExpires
    lastLoginAt := now }

/-- The users row after a login: the new pair and no account-wide revocation. -/
def UserRow.loggedIn (r : UserRow) (pair : TokenPair) (now : ℕ) : UserRow :=
  { r.withPair pair now with tokenRevokedAt := none }

def newSession (env : Externals) (w : World) (userID : ℕ) : AuthSession where
  id := env.makeToken "as" (w.draws + 2)
  userID := userID
  accessToken := (newTokenPair env w).access
  refreshToken := (newTokenPair env w).refresh
  accessExpiresAt := (newTokenPair env w).accessExpires
  refreshExpiresAt := (newTokenPair env w).refreshExpires
  revokedAt := none
  createdAt := w.now
  refreshedAt := w.now

def issueAuthSession (env : Externals) (w : World) (userID : ℕ) :
    World × Except String User :=
  let pair := newTokenPair env w
  if w.db.users.affected (UserRow.isLive userID) ≠ 1 then
    ({ w with draws := w.draws + 2 }, .error "账号不存在")
  else
    let users := w.db.users.touch (UserRow.isLive userID) (fun r => r.loggedIn pair w.now)
    let drawn := { w with draws := w.draws + 3 }
    match w.db.authSessions.insert? (newSession env w userID) with
    | none => (drawn, .error uniqueConstraintFailed)
    | some sessions =>
      match users.first? (UserRow.isLive userID) with
      | none => (drawn, .error "账号不存在")
      | some row =>
        ({ drawn with db := { w.db with users := users, authSessions := sessions } }, .ok row.scan)

/-- `CreateLoginSession`, which `TouchLogin` and `RefreshToken` also call. -/
def createLoginSession (env : Externals) (w : World) (userID : ℕ) :
    World × Except String User := issueAuthSession env w userID

/-- The join of `auth_sessions` with live, unrevoked users. -/
def Db.joinSession (db : Db) (p : AuthSession → Bool) : Option (AuthSession × UserRow) :=
  db.authSessions.rows.findSome? fun s =>
    if p s && s.revokedAt.isNone then
      (db.users.first? fun u => u.isLive s.userID && u.tokenRevokedAt.isNone).map fun u => (s, u)
    else none

def AuthSession.rotated (s : AuthSession) (pair : TokenPair) (now : ℕ) : AuthSession :=
  { s with
    accessToken := pair.access
    refreshToken := pair.refresh
    accessExpiresAt := pair.accessExpires
    refreshExpiresAt := pair.refreshExpires
    refreshedAt := now }

/-- The condition of the update in `refreshAuthSession`. -/
def AuthSession.isRotating (id oldRefresh : String) (now : ℕ) (s : AuthSession) : Bool :=
  s.id == id && s.refreshToken == oldRefresh && s.revokedAt.isNone && now ≤ s.refreshExpiresAt

def refreshAuthSession (env : Externals) (w : World) (oldRefresh : String) :
    World × Except String (User × String) :=
  if oldRefresh = "" then (w, .error "缺少刷新凭证")
  else
    match w.db.joinSession fun s => s.refreshToken == oldRefresh && w.now ≤ s.refreshExpiresAt with
    | none => (w, .error "刷新凭证无效")
    | some (session, _) =>
      let pair := newTokenPair env w
      let drawn := { w with draws := w.draws + 2 }
      let rotating := AuthSession.isRotating session.id oldRefresh w.now
      match w.db.authSessions.update? rotating fun s => s.rotated pair w.now with
      | none => (drawn, .error uniqueConstraintFailed)
      | some sessions =>
        if w.db.authSessions.affected rotating ≠ 1 then (drawn, .error "刷新凭证已被使用")
        else
          let users := w.db.users.touch (UserRow.isLive session.userID)
            (fun r => r.withPair pair w.now)
          match users.first? (UserRow.isLive session.userID) with
          | none => (drawn, .error "账号不存在")
          | some row =>
            ({ drawn with db := { w.db with users := users, authSessions := sessions } },
              .ok (row.scanWith pair.access (some pair.refresh), pair.access))

def refreshByToken (env : Externals) (w : World) (refreshToken : String) :
    World × Except String (User × String) := refreshAuthSession env w refreshToken

def revokeSessionByToken (w : World) (token : String) : World × Except String Unit :=
  if token = "" then (w, .error "缺少登录凭证")
  else
    let sessions := w.db.authSessions.touch
      (fun s => (s.accessToken == token || s.refreshToken == token) && s.revokedAt.isNone)
      (fun s => { s with revokedAt := some w.now })
    ({ w with db := { w.db with authSessions := sessions } }, .ok ())

/-- `update auth_sessions set revoked_at = ? where user_id = ? and revoked_at is null`. -/
def Db.revokeSessionsOf (db : Db) (userID now : ℕ) : Table sessionKeys :=
  db.authSessions.touch (fun s => s.userID == userID && s.revokedAt.isNone)
    (fun s => { s with revokedAt := some now })

def revokeTokens (w : World) (userID : ℕ) : World × Except String Unit :=
  let users := w.db.users.touch (UserRow.isLive userID)
    (fun r => { r with tokenRevokedAt := some w.now })
  let sessions := w.db.revokeSessionsOf userID w.now
  ({ w with db := { w.db with users := users, authSessions := sessions } }, .ok ())

def userByToken (w : World) (token : String) : Except String (Option User) :=
  if token = "" then .error "缺少登录凭证"
  else .ok <|
    (w.db.joinSession fun s => s.accessToken == token && w.now ≤ s.accessExpiresAt).map
      fun (s, u) => u.scanWith s.accessToken (some s.refreshToken)

def userByRefreshToken (w : World) (token : String) : Except String (Option User) :=
  if token = "" then .error "缺少刷新凭证"
  else .ok <|
    (w.db.joinSession fun s => s.refreshToken == token && w.now ≤ s.refreshExpiresAt).map
      fun (s, u) => u.scanWith s.accessToken (some s.refreshToken)

def userByLongToken (w : World) (token : String) : Except String (Option User) :=
  if token = "" then .error "缺少长连接凭证"
  else .ok <|
    (w.db.users.first? fun r =>
      r.longToken == some token && r.deletedAt.isNone && r.tokenRevokedAt.isNone).map UserRow.scan

def setLongToken (w : World) (userID : ℕ) (token : String) : World × Except String Unit :=
  let users := w.db.users.touch (fun r => r.id == userID)
    (fun r => { r with longToken := some token })
  ({ w with db := { w.db with users := users } }, .ok ())

def createCometSession (env : Externals) (w : World) (userID : ℕ) :
    World × Except String (String × String) :=
  let id := env.rand w.draws
  let token := env.makeToken "ct" (w.draws + 1)
  let drawn := { w with draws := w.draws + 2 }
  match w.db.cometSessions.insert? ⟨id, userID, token, w.now⟩ with
  | none => (drawn, .error uniqueConstraintFailed)
  | some sessions => ({ drawn with db := { w.db with cometSessions := sessions } }, .ok (id, token))

/-- The row itself, perhaps revoked meanwhile. -/
def AuthSession.Kept (s s' : AuthSession) : Prop :=
  s' = { s with revokedAt := s'.revokedAt } ∧ (s'.revokedAt = none → s.revokedAt = none)

theorem AuthSession.Kept.refl (s : AuthSession) : s.Kept s := ⟨rfl, fun h => h⟩

theorem AuthSession.Kept.trans {s s' s'' : AuthSession} (h : s.Kept s') (h' : s'.Kept s'') :
    s.Kept s'' :=
  ⟨by rw [h'.1, h.1], fun hopen => h.2 (h'.2 hopen)⟩

/-- Every session was there before. -/
def NoNewSession (w w' : World) : Prop :=
  ∀ s' ∈ w'.db.authSessions.rows, ∃ s ∈ w.db.authSessions.rows, s.Kept s'

theorem NoNewSession.of_sub {w w' : World}
    (h : ∀ s ∈ w'.db.authSessions.rows, s ∈ w.db.authSessions.rows) : NoNewSession w w' :=
  fun s hs => ⟨s, h s hs, AuthSession.Kept.refl s⟩

theorem NoNewSession.of_revoked {w w' : World} {p : AuthSession → Bool} {now : ℕ}
    (h : w'.db.authSessions.rows =
      w.db.authSessions.rows.map fun s => if p s then { s with revokedAt := some now } else s) :
    NoNewSession w w' := by
  intro s' hs'
  rw [h] at hs'
  rcases Table.of_mem_updated hs' with ⟨s, hs, -, rfl⟩ | ⟨hs, -⟩
  · exact ⟨s, hs, rfl, fun hopen => by cases hopen⟩
  · exact ⟨s', hs, AuthSession.Kept.refl s'⟩

/-- A row of the join: an unrevoked session with its live, unrevoked owner. -/
theorem Db.joinSession_some {db : Db} {p : AuthSession → Bool} {s : AuthSession} {u : UserRow}
    (h : db.joinSession p = some (s, u)) :
    s ∈ db.authSessions.rows ∧ p s = true ∧ s.revokedAt = none ∧ u ∈ db.users.rows ∧
      u.id = s.userID ∧ u.deletedAt = none ∧ u.tokenRevokedAt = none := by
  obtain ⟨row, hrow, hmatch⟩ := List.exists_of_findSome?_eq_some h
  split at hmatch
  · next hp =>
    simp only [Bool.and_eq_true, Option.isNone_iff_eq_none] at hp
    obtain ⟨owner, howner, hpair⟩ := Option.map_eq_some_iff.mp hmatch
    cases hpair
    have hholds := Table.first?_holds howner
    simp only [Bool.and_eq_true, UserRow.isLive_iff, Option.isNone_iff_eq_none] at hholds
    exact ⟨hrow, hp.1, hp.2, Table.mem_of_first? howner, hholds.1.1, hholds.1.2, hholds.2⟩
  · cases hmatch

/-- Only the row of `id` is live under that id. -/
theorem Db.first?_touch_live {db : Db} {id : ℕ} {f : UserRow → UserRow}
    {hf : ∀ r, userKeys (f r) = userKeys r} {r : UserRow} (hr : r ∈ db.users.rows)
    (hlive : r.isLive id = true) (hid : ∀ a, (f a).id = a.id)
    (hdeleted : ∀ a, (f a).deletedAt = a.deletedAt) :
    (db.users.touch (UserRow.isLive id) f hf).first? (UserRow.isLive id) = some (f r) := by
  have hkeep : ∀ a, UserRow.isLive id (f a) = a.isLive id := by
    intro a
    simp [UserRow.isLive, hid, hdeleted]
  refine Table.first?_eq_of_unique (Table.mem_touch.mpr ⟨r, hr, by simp [hlive]⟩) ?_ ?_
  · rw [hkeep, hlive]
  · intro a ha hmatch
    obtain ⟨b, hb, rfl⟩ := Table.mem_touch.mp ha
    have hblive : b.isLive id = true := by
      split at hmatch
      · next hb' => exact hb'
      · exact hmatch
    have hsame := db.user_eq_of_id hb hr
      ((UserRow.isLive_iff.mp hblive).1.trans (UserRow.isLive_iff.mp hlive).1.symm)
    rw [hsame, if_pos hlive]

/-- A login either fails and changes no table, or adds a session to a live account. -/
theorem issueAuthSession_cases {env : Externals} {w w' : World} {userID : ℕ}
    {result : Except String User} (h : issueAuthSession env w userID = (w', result)) :
    (∃ e n, result = .error e ∧ w.draws ≤ n ∧ w' = { w with draws := n }) ∨
    ∃ row sessions, row ∈ w.db.users.rows ∧ row.isLive userID = true ∧
      w.db.authSessions.insert? (newSession env w userID) = some sessions ∧
      result = .ok (row.loggedIn (newTokenPair env w) w.now).scan ∧
      w' = { w with
        draws := w.draws + 3
        db := { w.db with
          users := w.db.users.touch (UserRow.isLive userID)
            (fun r => r.loggedIn (newTokenPair env w) w.now)
          authSessions := sessions } } := by
  unfold issueAuthSession at h
  simp only at h
  split at h
  · cases h
    exact Or.inl ⟨_, w.draws + 2, rfl, by omega, rfl⟩
  next haffected =>
  obtain ⟨row, hrow, hlive⟩ := Table.exists_of_affected (t := w.db.users)
    (p := UserRow.isLive userID) (by omega)
  split at h
  · cases h
    exact Or.inl ⟨_, w.draws + 3, rfl, by omega, rfl⟩
  next sessions hsessions =>
  rw [Db.first?_touch_live (f := fun r => r.loggedIn (newTokenPair env w) w.now) hrow hlive
    (fun _ => rfl) (fun _ => rfl)] at h
  cases h
  exact Or.inr ⟨row, sessions, hrow, hlive, hsessions, rfl, rfl⟩

/-- A live account gets its session. -/
theorem issueAuthSession_succeeds {env : Externals} {w : World} {userID : ℕ} {row : UserRow}
    (hrow : row ∈ w.db.users.rows) (hlive : row.isLive userID = true)
    (hsession : w.db.authSessions.insert? (newSession env w userID) ≠ none) :
    ∃ w' u, issueAuthSession env w userID = (w', .ok u) ∧
      w'.db.authSessions.rows = w.db.authSessions.rows ++ [newSession env w userID] := by
  obtain ⟨sessions, hsessions⟩ := Option.ne_none_iff_exists'.mp hsession
  have hone : w.db.users.affected (UserRow.isLive userID) = 1 := by
    apply Table.affected_eq_one (k := .id row.id) hrow (by simp [userKeys]) hlive
    intro a ha hmatch
    exact w.db.user_eq_of_id ha hrow
      ((UserRow.isLive_iff.mp hmatch).1.trans (UserRow.isLive_iff.mp hlive).1.symm)
  unfold issueAuthSession
  simp only [hone, hsessions, ne_eq, not_true_eq_false, if_false]
  rw [Db.first?_touch_live (f := fun r => r.loggedIn (newTokenPair env w) w.now) hrow hlive
    (fun _ => rfl) (fun _ => rfl)]
  exact ⟨_, _, rfl, Table.insert?_rows hsessions⟩

/-- A refresh either fails and changes no table, or replaces the pair of one open session. -/
theorem refreshAuthSession_cases {env : Externals} {w w' : World} {oldRefresh : String}
    {result : Except String (User × String)}
    (h : refreshAuthSession env w oldRefresh = (w', result)) :
    (∃ e n, result = .error e ∧ w.draws ≤ n ∧ w' = { w with draws := n }) ∨
    ∃ session row sessions,
      w.db.joinSession (fun s => s.refreshToken == oldRefresh && w.now ≤ s.refreshExpiresAt) =
        some (session, row) ∧
      w.db.authSessions.update? (AuthSession.isRotating session.id oldRefresh w.now)
        (fun s => s.rotated (newTokenPair env w) w.now) = some sessions ∧
      result = .ok ((row.withPair (newTokenPair env w) w.now).scan, (newTokenPair env w).access) ∧
      w' = { w with
        draws := w.draws + 2
        db := { w.db with
          users := w.db.users.touch (UserRow.isLive session.userID)
            (fun r => r.withPair (newTokenPair env w) w.now)
          authSessions := sessions } } := by
  unfold refreshAuthSession at h
  simp only at h
  split at h
  · cases h
    exact Or.inl ⟨_, w.draws, rfl, le_refl _, rfl⟩
  split at h
  · cases h
    exact Or.inl ⟨_, w.draws, rfl, le_refl _, rfl⟩
  next session row hjoin =>
  split at h
  · cases h
    exact Or.inl ⟨_, w.draws + 2, rfl, by omega, rfl⟩
  next sessions hsessions =>
  split at h
  · cases h
    exact Or.inl ⟨_, w.draws + 2, rfl, by omega, rfl⟩
  obtain ⟨-, -, -, hrow, hid, hlive, -⟩ := Db.joinSession_some hjoin
  rw [Db.first?_touch_live (f := fun r => r.withPair (newTokenPair env w) w.now) hrow
    (UserRow.isLive_iff.mpr ⟨hid, hlive⟩) (fun _ => rfl) (fun _ => rfl)] at h
  cases h
  exact Or.inr ⟨session, row, sessions, hjoin, hsessions, rfl, rfl⟩

/-- A session that no other one can be confused with is the one the join finds. -/
theorem Db.joinSession_eq {db : Db} {p : AuthSession → Bool} {s : AuthSession} {u : UserRow}
    (hs : s ∈ db.authSessions.rows) (hp : p s = true) (hopen : s.revokedAt = none)
    (hunique : ∀ a ∈ db.authSessions.rows, p a = true → a = s)
    (hu : u ∈ db.users.rows) (hid : u.id = s.userID) (hlive : u.deletedAt = none)
    (hflag : u.tokenRevokedAt = none) : db.joinSession p = some (s, u) := by
  have hfirst : (db.users.first? fun a => a.isLive s.userID && a.tokenRevokedAt.isNone) =
      some u := by
    refine Table.first?_eq_of_unique hu ?_ ?_
    · simp [UserRow.isLive_iff, hid, hlive, hflag]
    · intro a ha hmatch
      simp only [Bool.and_eq_true, UserRow.isLive_iff] at hmatch
      exact db.user_eq_of_id ha hu (hmatch.1.1.trans hid.symm)
  cases hjoin : db.joinSession p with
  | none =>
    have hnone := List.findSome?_eq_none_iff.mp hjoin s hs
    simp [hp, hopen, hfirst] at hnone
  | some pair =>
    obtain ⟨a, b⟩ := pair
    obtain ⟨ha, hpa, -, hb, hbid, -, -⟩ := Db.joinSession_some hjoin
    have has := hunique a ha hpa
    subst has
    rw [db.user_eq_of_id hb hu (hbid.trans hid.symm)]

end PapeSdk
