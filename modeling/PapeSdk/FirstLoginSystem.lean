import PapeSdk.AuthSoundness
import PapeSdk.StoreInvariant

/-!
Concurrent calls of `GetOrCreateUser` for one identifier. A call looks the
identifier up, inserts an account if there is none and opens a session, each in
a statement or a transaction of its own; the statements of different calls come
in any order. Phone numbers and emails are inserted by different functions,
which differ in what they do when the insert fails.
-/

namespace PapeSdk

open KeyedTables Identifiers EventRuns

inductive LoginPhase
  | looking
  /-- `createUser` is about to insert. -/
  | inserting
  | lookingAgain
  /-- `CreateAccount` is about to insert. -/
  | creating
  | reading (primary : String)
  | issuing (userID : ℕ) (created : Bool)
  /-- The result of the call, and when its last statement ran. -/
  | answered (result : Except String (User × Bool)) (time : ℕ)
  deriving DecidableEq

/-- The next statement or transaction of a call. -/
def LoginPhase.handle (env : Externals) (x : String) (w : World) :
    LoginPhase → Option (World × LoginPhase)
  | .looking =>
    match userByPhoneRow w x with
    | some u => some (w, .issuing u.id false)
    | none => some (w, if hasAt x then .creating else .inserting)
  | .inserting =>
    match w.db.insertUser { id := 0, phone := x, createdAt := w.now, lastLoginAt := w.now } with
    | some db => some ({ w with db := db }, .issuing w.db.nextUserID true)
    | none => some (w, .lookingAgain)
  | .lookingAgain =>
    match userByPhoneRow w x with
    | some u => some (w, .issuing u.id false)
    | none => some (w, .answered (.ok (User.zero, false)) w.now)
  | .creating =>
    match validateBindings env "" x with
    | .error e => some (w, .answered (.error e) w.now)
    | .ok (phone, email) =>
      match w.db.insertUser
          { id := 0, phone := primaryOf phone email, email := emailValue email
            passwordHash := some "", tokenRevokedAt := some 0
            createdAt := w.now, lastLoginAt := w.now } with
      | none => some (w, .answered (.error "手机号或邮箱已被其他账号绑定") w.now)
      | some db => some ({ w with db := db }, .reading (primaryOf phone email))
  | .reading primary =>
    some (w, .issuing ((userByPhoneRow w primary).getD User.zero).id true)
  | .issuing userID created =>
    match issueAuthSession env w userID with
    | (w', issued) => some (w', .answered (issued.map fun u => (u, created)) w.now)
  | .answered _ _ => none

/-- At most so many steps of a call, without any other step in between. -/
def LoginPhase.finish (env : Externals) (x : String) :
    ℕ → World → LoginPhase → World × LoginPhase
  | 0, w, phase => (w, phase)
  | n + 1, w, phase =>
    match phase.handle env x w with
    | none => (w, phase)
    | some (w', phase') => phase'.finish env x n w'

/-- A call that is not interrupted is `getOrCreateUser`. -/
theorem LoginPhase.finish_looking {env : Externals} {x : String} (w : World)
    (hx : normalizeAccount env x = .ok x) :
    LoginPhase.looking.finish env x 4 w = ((getOrCreateUser env w x).1,
      .answered (getOrCreateUser env w x).2 w.now) := by
  unfold getOrCreateUser
  simp only [hx, finish, handle]
  cases hlookup : userByPhoneRow w x with
  | some u => rfl
  | none =>
    by_cases hat : hasAt x = true
    · simp only [if_pos hat, createAccount]
      cases hvalid : validateBindings env "" x with
      | error e => rfl
      | ok pair =>
        obtain ⟨phone, email⟩ := pair
        simp only
        cases w.db.insertUser
            { id := 0, phone := primaryOf phone email, email := emailValue email
              passwordHash := some "", tokenRevokedAt := some 0
              createdAt := w.now, lastLoginAt := w.now } with
        | none => rfl
        | some db => rfl
    · simp only [if_neg hat, createUserRow]
      cases w.db.insertUser
          { id := 0, phone := x, createdAt := w.now, lastLoginAt := w.now } with
      | some db => rfl
      | none => simp only [hlookup]

structure FirstLogins where
  world : World
  calls : List LoginPhase

inductive FirstLoginLabel
  /-- A call with an argument that normalizes to the identifier. -/
  | call
  | handle (i : ℕ)
  | advance (seconds : ℕ)
  deriving DecidableEq

def FirstLogins.step (env : Externals) (x : String) (s : FirstLogins) :
    FirstLoginLabel → Option FirstLogins
  | .call => some { s with calls := s.calls ++ [.looking] }
  | .handle i =>
    match s.calls[i]? with
    | none => none
    | some phase =>
      match phase.handle env x s.world with
      | none => none
      | some (w, phase') => some ⟨w, s.calls.set i phase'⟩
  | .advance seconds => some { s with world := { s.world with now := s.world.now + seconds } }

def FirstLoginStep (env : Externals) (x : String) (s : FirstLogins) (l : FirstLoginLabel)
    (s' : FirstLogins) : Prop := s.step env x l = some s'

/-- No account, deleted or not, has the identifier in one of its columns. -/
def World.Unclaimed (w : World) (x : String) : Prop :=
  ∀ r ∈ w.db.users.rows, r.phone ≠ x ∧ r.email ≠ some x

/-- A call that is about to insert an email finds it still unclaimed. -/
def FirstLogins.Unraced (x : String) (s : FirstLogins) : FirstLoginLabel → Prop
  | .handle i => s.calls[i]? = some .creating → s.world.Unclaimed x
  | _ => True

def UnracedStep (env : Externals) (x : String) (s : FirstLogins) (l : FirstLoginLabel)
    (s' : FirstLogins) : Prop := s.step env x l = some s' ∧ s.Unraced x l

/-- Whether the call created the account, as far as it is known. -/
def LoginPhase.creator : LoginPhase → Bool
  | .reading _ => true
  | .issuing _ created => created
  | .answered (.ok (_, created)) _ => created
  | _ => false

def LoginPhase.isAnswered : LoginPhase → Bool
  | .answered _ _ => true
  | _ => false

/-- How many statements a call has left at most. -/
def LoginPhase.left : LoginPhase → ℕ
  | .looking => 4
  | .inserting | .creating => 3
  | .lookingAgain | .reading _ => 2
  | .issuing _ _ => 1
  | .answered _ _ => 0

/-- All calls that answered succeeded for one account, at most one of them created it, and the
tokens they returned stand for it. -/
structure FirstLogins.Agree (s : FirstLogins) : Prop where
  succeed : ∀ result t, .answered result t ∈ s.calls → ∃ u created, result = .ok (u, created)
  same : ∃ account, ∀ u created t, .answered (.ok (u, created)) t ∈ s.calls → u.id = account
  once : s.calls.countP (fun c => c.isAnswered && c.creator) ≤ 1
  created : s.calls ≠ [] → s.calls.all LoginPhase.isAnswered = true →
    s.calls.countP LoginPhase.creator = 1
  authenticate : ∀ u created t, .answered (.ok (u, created)) t ∈ s.calls →
    s.world.now ≤ t + accessTokenTTL →
    ∃ v, userByToken s.world u.token = .ok (some v) ∧ v.id = u.id

end PapeSdk
