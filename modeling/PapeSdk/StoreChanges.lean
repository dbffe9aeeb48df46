import Mathlib.Logic.Relation
import PapeSdk.StoreRuns

/-!
What the store's functions on accounts and sessions can do, said once. Each of them
fails, or makes a change of the list here, with the effect it is named by; a login by code
makes two when it opens the account. An invariant is checked against the list and then
holds for all of them.
-/

namespace PapeSdk

open KeyedTables Identifiers

/-- The identifiers of a live row: a phone number and perhaps an email, or an email alone. -/
def UserRow.Bound (env : Externals) (r : UserRow) : Prop :=
  IsPhone r.phone ∧ (∀ e, r.email = some e → IsEmail env e) ∨
    IsEmail env r.phone ∧ r.email = some r.phone

/-- The row of an account without a session, a deletion, a cancellation or a security column. -/
structure UserRow.Blank (env : Externals) (r : UserRow) : Prop where
  bound : r.Bound env
  token : r.token = ""
  deletedAt : r.deletedAt = none
  cancellationStatus : r.cancellationStatus = 1
  cancellationAt : r.cancellationAt = none
  longToken : r.longToken = none
  securityChangedAt : r.securityChangedAt = 0
  securityOverride : r.securityOverride = none

/-- An update that concerns neither sessions nor identifiers nor deletion. -/
structure UserRow.Quiet (r s : UserRow) : Prop where
  id : s.id = r.id
  phone : s.phone = r.phone
  email : s.email = r.email
  token : s.token = r.token
  refreshToken : s.refreshToken = r.refreshToken
  tokenRevokedAt : s.tokenRevokedAt = r.tokenRevokedAt
  cancellationStatus : s.cancellationStatus = r.cancellationStatus
  cancellationAt : s.cancellationAt = r.cancellationAt
  deletedAt : s.deletedAt = r.deletedAt

/-- The writes to one account that are quiet. -/
inductive Touch
  | password (userID : ℕ) (hash : String)
  | override (userID : ℕ) (safe : Bool)
  | longToken (userID : ℕ) (token : String)

def Touch.userID : Touch → ℕ
  | password userID _ | override userID _ | longToken userID _ => userID

/-- The row of the account after the write. -/
def Touch.update (now : ℕ) (t : Touch) (r : UserRow) : UserRow :=
  match t with
  | password _ hash => r.withPassword hash now
  | override _ safe => { r with securityOverride := some (if safe then 1 else 0) }
  | longToken _ token => { r with longToken := some token }

theorem Touch.quiet (t : Touch) (now : ℕ) (r : UserRow) : r.Quiet (t.update now r) := by
  cases t <;> constructor <;> rfl

theorem Touch.keys (t : Touch) (now : ℕ) (r : UserRow) :
    userKeys (t.update now r) = userKeys r := by
  have hquiet := t.quiet now r
  simp only [userKeys, hquiet.id, hquiet.phone, hquiet.email]

/-- What a change is made for. -/
inductive Effect
  | draw
  | comet
  | touch (t : Touch)
  | create
  | login (userID : ℕ)
  | refresh (token : String)
  | revokeSession (token : String)
  | revokeTokens (userID : ℕ)
  | rebind (userID : ℕ)
  | delete (userID : ℕ)
  | restore (userID : ℕ)
  | hardDelete (userID : ℕ)

inductive Change (env : Externals) : World → Effect → World → Prop
  | draw (w : World) (n : ℕ) (h : w.draws ≤ n) : Change env w .draw { w with draws := n }
  | comet (w : World) (n : ℕ) (rows : Table cometKeys) (h : w.draws ≤ n) :
      Change env w .comet { w with draws := n, db := { w.db with cometSessions := rows } }
  | touch (w : World) (t : Touch) :
      Change env w (.touch t) { w with
        db := { w.db with
          users := w.db.users.touch (fun r => r.id == t.userID) (t.update w.now) (t.keys w.now) } }
  | create (w : World) (row : UserRow) (users : Table userKeys)
      (husers : w.db.users.insert? { row with id := w.db.nextUserID } = some users)
      (hblank : row.Blank env) :
      Change env w .create { w with
        db := { w.db with users := users, userSequence := some w.db.nextUserID } }
  | login (w : World) (row : UserRow) (sessions : Table sessionKeys)
      (hrow : row ∈ w.db.users.rows) (hlive : row.deletedAt = none)
      (hsessions : w.db.authSessions.insert? (newSession env w row.id) = some sessions) :
      Change env w (.login row.id) { w with
        draws := w.draws + 3
        db := { w.db with
          users := w.db.users.touch (UserRow.isLive row.id)
            (fun r => r.loggedIn (newTokenPair env w) w.now)
          authSessions := sessions } }
  | refresh (w : World) (session : AuthSession) (row : UserRow) (sessions : Table sessionKeys)
      (hjoin : w.db.joinSession (fun s => s.refreshToken == session.refreshToken &&
        w.now ≤ s.refreshExpiresAt) = some (session, row))
      (hsessions : w.db.authSessions.update?
        (AuthSession.isRotating session.id session.refreshToken w.now)
        (fun s => s.rotated (newTokenPair env w) w.now) = some sessions) :
      Change env w (.refresh session.refreshToken) { w with
        draws := w.draws + 2
        db := { w.db with
          users := w.db.users.touch (UserRow.isLive session.userID)
            (fun r => r.withPair (newTokenPair env w) w.now)
          authSessions := sessions } }
  | revokeSession (w : World) (token : String) :
      Change env w (.revokeSession token) { w with
        db := { w.db with
          authSessions := w.db.authSessions.touch
            (fun s => (s.accessToken == token || s.refreshToken == token) && s.revokedAt.isNone)
            (fun s => { s with revokedAt := some w.now }) } }
  | revokeTokens (w : World) (userID : ℕ) :
      Change env w (.revokeTokens userID) { w with
        db := { w.db with
          users := w.db.users.touch (UserRow.isLive userID)
            (fun r => { r with tokenRevokedAt := some w.now })
          authSessions := w.db.revokeSessionsOf userID w.now } }
  | rebind (w : World) (row : UserRow) (phone email : String) (users : Table userKeys)
      (hrow : row ∈ w.db.users.rows) (hlive : row.deletedAt = none)
      (hbound : ∀ r : UserRow, (r.rebound phone email w.now).Bound env)
      (husers : w.db.users.update? (fun r => r.id == row.id)
        (fun r => r.rebound phone email w.now) = some users) :
      Change env w (.rebind row.id) { w with db := { w.db with users := users } }
  | delete (w : World) (p : UserRow → Bool) (userID now : ℕ) (users : Table userKeys)
      (hp : ∀ r, p r = true → r.isLive userID = true)
      (husers : w.db.users.update? p (fun r => r.softDelete now) = some users) :
      Change env w (.delete userID) { w with
        db := { w.db with
          users := users
          authSessions := w.db.revokeSessionsOf userID now } }
  | restore (w : World) (id : ℕ) (phone : String) (users : Table userKeys)
      (hphone : IsIdentifier env phone)
      (husers : w.db.users.update? (fun r => r.id == id) (fun r => r.restored phone w.now) =
        some users) :
      Change env w (.restore id) { w with db := { w.db with users := users } }
  | hardDelete (w : World) (id : ℕ) :
      Change env w (.hardDelete id) { w with
        db := { w.db with
          users := w.db.users.delete fun r => r.id == id
          authSessions := w.db.authSessions.delete fun s => s.userID == id
          cometSessions := w.db.cometSessions.delete fun s => s.userID == id } }

abbrev Changes (env : Externals) : World → World → Prop :=
  Relation.ReflTransGen fun w w' => ∃ k, Change env w k w'

/-- The call fails, having drawn at most, or makes the one change. -/
def Makes (env : Externals) (w : World) (k : Effect) {α : Type}
    (r : World × Except String α) : Prop :=
  (∃ e n, w.draws ≤ n ∧ r = ({ w with draws := n }, .error e)) ∨
    ∃ a, r.2 = .ok a ∧ Change env w k r.1

/-- The tables of codes are the same in both states. -/
structure SameCodes (w w' : World) : Prop where
  rows : w'.db.smsVerifications = w.db.smsVerifications
  events : w'.db.smsEvents = w.db.smsEvents
  sequence : w'.db.smsSequence = w.db.smsSequence

theorem SameCodes.refl (w : World) : SameCodes w w := ⟨rfl, rfl, rfl⟩

theorem SameCodes.trans {w w' w'' : World} (h : SameCodes w w') (h' : SameCodes w' w'') :
    SameCodes w w'' :=
  ⟨h'.rows.trans h.rows, h'.events.trans h.events, h'.sequence.trans h.sequence⟩

theorem Changes.sameCodes {env : Externals} {w w' : World} (h : Changes env w w') :
    SameCodes w w' := by
  induction h with
  | refl => exact SameCodes.refl w
  | tail _ hchange ih =>
    obtain ⟨k, hchange⟩ := hchange
    apply ih.trans
    cases hchange <;> exact ⟨rfl, rfl, rfl⟩

theorem Changes.now {env : Externals} {w w' : World} (h : Changes env w w') : w'.now = w.now := by
  induction h with
  | refl => rfl
  | tail _ hchange ih =>
    obtain ⟨k, hchange⟩ := hchange
    cases hchange <;> exact ih

section
variable {env : Externals}

theorem bound_of_validated {phone email p e : String} {r : UserRow}
    (h : validateBindings env phone email = .ok (p, e)) (hphone : r.phone = primaryOf p e)
    (hemail : r.email = emailValue e) : r.Bound env := by
  obtain ⟨hp, he, hsome⟩ := validateBindings_ok h
  rcases hp with rfl | hp
  · have he : IsEmail env e := by
      rcases he with rfl | he
      · simp at hsome
      · exact he
    refine Or.inr ⟨by simpa [hphone, primaryOf] using he, ?_⟩
    simp [hphone, hemail, primaryOf, emailValue, ne_empty_of_email he]
  · have hne := ne_empty_of_phone hp
    refine Or.inl ⟨by simpa [hphone, primaryOf, hne] using hp, ?_⟩
    intro a ha
    rcases he with rfl | he
    · simp [hemail, emailValue] at ha
    · rw [hemail, emailValue, if_neg (ne_empty_of_email he)] at ha
      cases ha
      exact he

theorem Change.toChanges {k : Effect} {w w' : World} (h : Change env w k w') :
    Changes env w w' := Relation.ReflTransGen.single ⟨k, h⟩

section
variable {α : Type} {k : Effect} {w : World} {r : World × Except String α}

theorem Makes.failed (w : World) (k : Effect) (e : String) :
    Makes env w k ((w, .error e) : World × Except String α) :=
  Or.inl ⟨e, w.draws, le_refl _, rfl⟩

/-- What such a call leaves, whatever it answers. -/
theorem Makes.world (h : Makes env w k r) :
    (∃ n, w.draws ≤ n ∧ r.1 = { w with draws := n }) ∨ Change env w k r.1 := by
  rcases h with ⟨e, n, hn, rfl⟩ | ⟨a, -, hchange⟩
  · exact Or.inl ⟨n, hn, rfl⟩
  · exact Or.inr hchange

theorem Makes.changes (h : Makes env w k r) : Changes env w r.1 := by
  rcases h.world with ⟨n, hn, hworld⟩ | hchange
  · rw [hworld]
    exact (Change.draw w n hn).toChanges
  · exact hchange.toChanges

end

theorem issueAuthSession_makes (w : World) (userID : ℕ) :
    Makes env w (.login userID) (issueAuthSession env w userID) := by
  rcases h : issueAuthSession env w userID with ⟨w', result⟩
  rcases issueAuthSession_cases h with ⟨e, n, rfl, hn, rfl⟩ |
    ⟨row, sessions, hrow, hlive, hs, hresult, rfl⟩
  · exact Or.inl ⟨e, n, hn, rfl⟩
  · obtain ⟨rfl, hdeleted⟩ := UserRow.isLive_iff.mp hlive
    exact Or.inr ⟨_, hresult, Change.login w row sessions hrow hdeleted hs⟩

theorem issueAuthSession_changes (w : World) (userID : ℕ) :
    Changes env w (issueAuthSession env w userID).1 := (issueAuthSession_makes w userID).changes

theorem refreshByToken_makes (w : World) (token : String) :
    Makes env w (.refresh token) (refreshByToken env w token) := by
  rcases h : refreshByToken env w token with ⟨w', result⟩
  rcases refreshAuthSession_cases h with ⟨e, n, rfl, hn, rfl⟩ |
    ⟨session, row, sessions, hjoin, hs, hresult, rfl⟩
  · exact Or.inl ⟨e, n, hn, rfl⟩
  · have htoken := (Db.joinSession_some hjoin).2.1
    simp only [Bool.and_eq_true, beq_iff_eq] at htoken
    obtain ⟨rfl, -⟩ := htoken
    exact Or.inr ⟨_, hresult, Change.refresh w session row sessions hjoin hs⟩

theorem refreshByToken_changes (w : World) (token : String) :
    Changes env w (refreshByToken env w token).1 := (refreshByToken_makes w token).changes

theorem revokeSessionByToken_makes (w : World) (token : String) :
    Makes env w (.revokeSession token) (revokeSessionByToken w token) := by
  unfold revokeSessionByToken
  split
  · exact Makes.failed w _ _
  · exact Or.inr ⟨(), rfl, Change.revokeSession w token⟩

theorem createAccount_cases {w w' : World} {phone email hash : String}
    {result : Except String User} (h : createAccount env w phone email hash = (w', result)) :
    (∃ e, result = .error e ∧ w' = w) ∨
    ∃ (row : UserRow) (users : Table userKeys), row.Blank env ∧
      w.db.users.insert? { row with id := w.db.nextUserID } = some users ∧
      w' = { w with db := { w.db with users := users, userSequence := some w.db.nextUserID } } ∧
      result = .ok ((userByPhoneRow w' row.phone).getD User.zero) := by
  unfold createAccount at h
  split at h
  · cases h
    exact Or.inl ⟨_, rfl, rfl⟩
  next p e hvalid =>
  simp only at h
  split at h
  · cases h
    exact Or.inl ⟨_, rfl, rfl⟩
  next db hdb =>
  cases h
  obtain ⟨users, husers, rfl⟩ := Db.insertUser_some hdb
  exact Or.inr ⟨_, users, ⟨bound_of_validated hvalid rfl rfl, rfl, rfl, rfl, rfl, rfl, rfl, rfl⟩,
    husers, rfl, rfl⟩

theorem createAccount_makes (w : World) (phone email hash : String) :
    Makes env w .create (createAccount env w phone email hash) := by
  rcases h : createAccount env w phone email hash with ⟨w', result⟩
  rcases createAccount_cases h with ⟨e, rfl, rfl⟩ | ⟨row, users, hblank, husers, rfl, hresult⟩
  · exact Makes.failed w' _ e
  · exact Or.inr ⟨_, hresult, Change.create w row users husers hblank⟩

theorem createAccount_changes (w : World) (phone email hash : String) :
    Changes env w (createAccount env w phone email hash).1 :=
  (createAccount_makes w phone email hash).changes

theorem createAccount_email_cases {w w' : World} {x : String} {result : Except String User}
    (hx : IsEmail env x) (hcall : createAccount env w "" x "" = (w', result)) :
    (∃ e, result = .error e ∧ w' = w) ∨
    ∃ row db, row.answersTo x = true ∧ w.db.insertUser row = some db ∧
      w' = { w with db := db } ∧ result = .ok ((userByPhoneRow w' x).getD User.zero) := by
  simp only [createAccount, validateBindings_email hx, primaryOf, if_true] at hcall
  split at hcall
  · cases hcall
    exact Or.inl ⟨_, rfl, rfl⟩
  · next db hinsert =>
    cases hcall
    exact Or.inr ⟨_, db, by simp [UserRow.answersTo], hinsert, rfl, rfl⟩

/-- A row inserted for an identifier without an account is found by the identifier. -/
theorem insertUser_found {w : World} {db : Db} {row : UserRow} {x : String}
    (hnone : userByPhoneRow w x = none) (hrow : row.answersTo x = true)
    (hinsert : w.db.insertUser row = some db) :
    ((userByPhoneRow { w with db := db } x).getD User.zero).id = w.db.nextUserID := by
  obtain ⟨users, husers, rfl⟩ := Db.insertUser_some hinsert
  have hnew : { row with id := w.db.nextUserID } ∈ users.rows :=
    (Table.mem_insert? husers).mpr (Or.inr rfl)
  have hfirst : users.first? (UserRow.answersTo x) =
      some { row with id := w.db.nextUserID } := by
    refine Table.first?_eq_of_unique hnew hrow ?_
    intro a ha hax
    rcases (Table.mem_insert? husers).mp ha with hold | hlast
    · exact absurd hax (Table.first?_eq_none.mp (Option.map_eq_none_iff.mp hnone) a hold)
    · exact hlast
  simp [userByPhoneRow, hfirst]

/-- A live account of this id is found under the text. -/
def World.Finds (env : Externals) (w : World) (phone : String) (id : ℕ) : Prop :=
  ∃ x user, normalizeAccount env phone = .ok x ∧ userByPhoneRow w x = some user ∧ user.id = id

/-- What a login by code leaves: at most a session, of the account that is found or of one
opened for it. -/
inductive Enters (env : Externals) (w : World) (phone : String) : World → Prop
  | draws (n : ℕ) (h : w.draws ≤ n) : Enters env w phone { w with draws := n }
  | finds (id : ℕ) (w' : World) (hfinds : w.Finds env phone id)
      (hlogin : Change env w (.login id) w') : Enters env w phone w'
  | opens (v w' : World) (hcreate : Change env w .create v)
      (hlogin : (∃ n, v.draws ≤ n ∧ w' = { v with draws := n }) ∨
        Change env v (.login w.db.nextUserID) w') : Enters env w phone w'

theorem Change.thenLogin {w v w' : World} {id : ℕ} (hcreate : Change env w .create v)
    (hlogin : (∃ n, v.draws ≤ n ∧ w' = { v with draws := n }) ∨ Change env v (.login id) w') :
    Changes env w w' := by
  rcases hlogin with ⟨n, hn, rfl⟩ | hlogin
  · exact hcreate.toChanges.trans (Change.draw v n hn).toChanges
  · exact hcreate.toChanges.trans hlogin.toChanges

theorem Enters.changes {w w' : World} {phone : String} (h : Enters env w phone w') :
    Changes env w w' := by
  cases h with
  | draws n hn => exact (Change.draw w n hn).toChanges
  | finds id w' hfinds hlogin => exact hlogin.toChanges
  | opens v w' hcreate hlogin => exact hcreate.thenLogin hlogin

theorem createUserRow_enters (w : World) {phone x : String} (hx : IsPhone x)
    (hnone : userByPhoneRow w x = none) : Enters env w phone (createUserRow env w x).1 := by
  unfold createUserRow
  split
  · next db hdb =>
    obtain ⟨users, husers, rfl⟩ := Db.insertUser_some hdb
    have hblank : UserRow.Blank env
        { id := 0, phone := x, createdAt := w.now, lastLoginAt := w.now } :=
      ⟨Or.inl ⟨hx, by simp⟩, rfl, rfl, rfl, rfl, rfl, rfl, rfl⟩
    exact Enters.opens _ _ (Change.create w _ users husers hblank)
      (issueAuthSession_makes _ w.db.nextUserID).world
  · rw [hnone]
    exact Enters.draws w.draws (le_refl _)

theorem getOrCreateUser_enters (w : World) (phone : String) :
    Enters env w phone (getOrCreateUser env w phone).1 := by
  unfold getOrCreateUser
  split
  · exact Enters.draws w.draws (le_refl _)
  next x hx =>
  cases hlookup : userByPhoneRow w x with
  | some u =>
    have hmakes : Makes env w (.login u.id) (issueAuthSession env w u.id) :=
      issueAuthSession_makes w u.id
    rcases hmakes.world with ⟨n, hn, hworld⟩ | hlogin
    · exact hworld ▸ Enters.draws n hn
    · exact Enters.finds u.id _ ⟨x, u, hx, hlookup, rfl⟩ hlogin
  | none =>
    dsimp only
    by_cases hat : hasAt x = true
    · rw [if_pos hat]
      have hmakes : Makes env w .create (createAccount env w "" x "") :=
        createAccount_makes w "" x ""
      rcases hcall : createAccount env w "" x "" with ⟨v, result⟩
      rw [hcall] at hmakes
      rcases createAccount_email_cases ((isIdentifier_of_normalize hx).isEmail hat) hcall with
        ⟨e, rfl, rfl⟩ | ⟨row, db, hrow, hinsert, rfl, rfl⟩
      · exact Enters.draws v.draws (le_refl _)
      · rcases hmakes with ⟨e, n, -, herror⟩ | ⟨a, -, hcreate⟩
        · cases herror
        · dsimp only
          rw [insertUser_found hlookup hrow hinsert]
          exact Enters.opens _ _ hcreate (issueAuthSession_makes _ w.db.nextUserID).world
    · rw [if_neg hat]
      exact createUserRow_enters w ((isIdentifier_of_normalize hx).isPhone (by simpa using hat))
        hlookup

theorem getOrCreateUser_changes (w : World) (phone : String) :
    Changes env w (getOrCreateUser env w phone).1 := (getOrCreateUser_enters w phone).changes

theorem createUser_enters (env : Externals) (w : World) (phone : String) :
    (createUser env w phone).1 = w ∨
      ∃ x, normalizeAccount env phone = .ok x ∧ Enters env w x (createUser env w phone).1 := by
  unfold createUser
  split
  · exact Or.inl rfl
  next x hx =>
  have hlogin : Enters env w x (getOrCreateUser env w x).1 := getOrCreateUser_enters w x
  refine Or.inr ⟨x, hx, ?_⟩
  split
  · next heq => simpa [heq] using hlogin
  · next heq =>
    rw [heq] at hlogin
    split
    · exact hlogin
    · exact hlogin

theorem updateBindingsTx_cases {w w' : World} {id : ℕ} {phone email : Option String}
    {kind retained : String} {result : Except String Unit}
    (h : updateBindingsTx env w id phone email kind retained = (w', result)) :
    (∃ e, result = .error e ∧ w' = w) ∨
    ∃ row p e users, w.db.users.first? (UserRow.isLive id) = some row ∧
      ¬ (kind = "phone" ∧ (currentBindings row).2 ≠ retained ∨
        kind = "email" ∧ (currentBindings row).1 ≠ retained) ∧
      validateBindings env (phone.getD (currentBindings row).1)
        (email.getD (currentBindings row).2) = .ok (p, e) ∧
      w.db.users.update? (fun r => r.id == id) (fun r => r.rebound p e w.now) = some users ∧
      result = .ok () ∧ w' = { w with db := { w.db with users := users } } := by
  unfold updateBindingsTx at h
  split at h
  · cases h
    exact Or.inl ⟨_, rfl, rfl⟩
  next row hrow =>
  simp only at h
  split at h
  · cases h
    exact Or.inl ⟨_, rfl, rfl⟩
  next hretained =>
  split at h
  · cases h
    exact Or.inl ⟨_, rfl, rfl⟩
  next p e hvalid =>
  split at h
  · cases h
    exact Or.inl ⟨_, rfl, rfl⟩
  next users husers =>
  cases h
  exact Or.inr ⟨row, p, e, users, hrow, hretained, hvalid, husers, rfl, rfl⟩

theorem updateBindingsTx_makes (w : World) (id : ℕ) (phone email : Option String)
    (kind retained : String) :
    Makes env w (.rebind id) (updateBindingsTx env w id phone email kind retained) := by
  rcases h : updateBindingsTx env w id phone email kind retained with ⟨w', result⟩
  rcases updateBindingsTx_cases h with ⟨e, rfl, rfl⟩ |
    ⟨row, p, e, users, hrow, -, hvalid, husers, rfl, rfl⟩
  · exact Makes.failed w' _ e
  · obtain ⟨rfl, hlive⟩ := UserRow.isLive_iff.mp (Table.first?_holds hrow)
    exact Or.inr ⟨(), rfl, Change.rebind w row p e users (Table.mem_of_first? hrow) hlive
      (fun r => bound_of_validated hvalid rfl rfl) husers⟩

theorem updateBindingsTx_changes (w : World) (id : ℕ) (phone email : Option String)
    (kind retained : String) :
    Changes env w (updateBindingsTx env w id phone email kind retained).1 :=
  (updateBindingsTx_makes w id phone email kind retained).changes

theorem unbindVerified_makes (w : World) (id : ℕ) (kind retained : String) :
    Makes env w (.rebind id) (unbindVerified env w id kind retained) := by
  unfold unbindVerified
  split
  · exact updateBindingsTx_makes w id _ _ _ _
  split
  · exact updateBindingsTx_makes w id _ _ _ _
  · exact Makes.failed w _ _

theorem unbindVerified_changes (w : World) (id : ℕ) (kind retained : String) :
    Changes env w (unbindVerified env w id kind retained).1 :=
  (unbindVerified_makes w id kind retained).changes

theorem updatePhone_makes (w : World) (userID : ℕ) (account : String) :
    Makes env w (.rebind userID) (updatePhone env w userID account) := by
  unfold updatePhone
  split
  · exact Makes.failed w _ _
  split
  · exact updateBindingsTx_makes w userID _ _ _ _
  · exact updateBindingsTx_makes w userID _ _ _ _

theorem deleteUser_makes (w : World) (userID : ℕ) :
    Makes env w (.delete userID) (deleteUser w userID) := by
  unfold deleteUser
  split
  · exact Makes.failed w _ _
  · next users husers =>
    exact Or.inr ⟨(), rfl, Change.delete w _ userID w.now users (fun _ h => h) husers⟩

/-- An account that is not due is no error. -/
theorem completeCancellation_makes (env : Externals) (w : World) (userID now : ℕ) :
    Makes env w (.delete userID) (completeCancellation w userID now) ∧
        (completeCancellation w userID now).2 ≠ .ok false ∨
      completeCancellation w userID now = (w, .ok false) := by
  unfold completeCancellation
  simp only
  split
  · exact Or.inl ⟨Makes.failed w _ _, by simp⟩
  next users husers =>
  split
  · exact Or.inr rfl
  · refine Or.inl ⟨Or.inr ⟨true, rfl, Change.delete w _ userID now users ?_ husers⟩, by simp⟩
    intro r hr
    simp only [Bool.and_eq_true, beq_iff_eq, UserRow.isDue_iff] at hr
    exact UserRow.isLive_iff.mpr ⟨hr.1, hr.2.2.2⟩

theorem completeCancellation_changes (w : World) (userID now : ℕ) :
    Changes env w (completeCancellation w userID now).1 := by
  rcases completeCancellation_makes env w userID now with ⟨hmakes, -⟩ | hnone
  · exact hmakes.changes
  · rw [hnone]

theorem restoreUpdate_makes (w : World) (id : ℕ) {phone : String}
    (hphone : IsIdentifier env phone) : Makes env w (.restore id) (restoreUpdate w id phone) := by
  unfold restoreUpdate
  split
  · exact Makes.failed w _ _
  next users husers =>
  split
  · exact Makes.failed w _ _
  · exact Or.inr ⟨(), rfl, Change.restore w id phone users hphone husers⟩

theorem restoreUpdate_changes (w : World) (id : ℕ) {phone : String}
    (hphone : IsIdentifier env phone) : Changes env w (restoreUpdate w id phone).1 :=
  (restoreUpdate_makes w id hphone).changes

theorem restoreSelect_ok {w : World} {id : ℕ} {phone x : String}
    (h : restoreSelect env w id phone = .ok x) : IsIdentifier env x := by
  unfold restoreSelect at h
  split at h
  · cases h
  · exact isIdentifier_of_normalize h

theorem restoreUser_makes (w : World) (id : ℕ) (phone : String) :
    Makes env w (.restore id) (restoreUser env w id phone) := by
  unfold restoreUser
  split
  · exact Makes.failed w _ _
  · next hselect => exact restoreUpdate_makes w id (restoreSelect_ok hselect)

theorem restoreUser_changes (w : World) (id : ℕ) (phone : String) :
    Changes env w (restoreUser env w id phone).1 := (restoreUser_makes w id phone).changes

theorem hardDeleteUser_makes (w : World) (id : ℕ) :
    Makes env w (.hardDelete id) (hardDeleteUser w id) := by
  unfold hardDeleteUser
  split
  · exact Makes.failed w _ _
  · exact Or.inr ⟨(), rfl, Change.hardDelete w id⟩

theorem setSecurityOverride_makes (w : World) (id : ℕ) (safe : Bool) :
    Makes env w (.touch (.override id safe)) (setSecurityOverride w id safe) := by
  unfold setSecurityOverride
  split
  · exact Makes.failed w _ _
  · exact Or.inr ⟨(), rfl, Change.touch w (.override id safe)⟩

theorem setSecurityOverride_changes (w : World) (id : ℕ) (safe : Bool) :
    Changes env w (setSecurityOverride w id safe).1 := (setSecurityOverride_makes w id safe).changes

theorem createCometSession_makes (w : World) (userID : ℕ) :
    Makes env w .comet (createCometSession env w userID) := by
  have hdraws : w.draws ≤ w.draws + 2 := Nat.le_add_right _ _
  unfold createCometSession
  simp only
  split
  · exact Or.inl ⟨_, _, hdraws, rfl⟩
  · exact Or.inr ⟨_, rfl, Change.comet w _ _ hdraws⟩

theorem createCometSession_changes (w : World) (userID : ℕ) :
    Changes env w (createCometSession env w userID).1 := (createCometSession_makes w userID).changes

end

end PapeSdk
