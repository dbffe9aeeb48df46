import PapeSdk.Handlers
import PapeSdk.StoreChanges

/-!
What a completed request does to the store. The verification of a code consumes
the row that a lookup over the scenes finds first, and it fails when there is
none. Before and after it a handler only makes changes of accounts and sessions,
and of the calls it makes at most one opens a session: a login by password or a
refresh before the verification, or a login by code right after it.
-/

namespace PapeSdk

open KeyedTables Identifiers

section
variable {cfg : AuthConfig} {env : Externals} {request : Request} {w w' : World}

/-- The world after the consumption of the code with this id. -/
def World.consume (w : World) (id : ℕ) : World :=
  { w with db := w.db.withCodes (w.db.consumed id w.now) w.db.smsEvents w.db.smsSequence }

theorem findSMS_normalized {phone x scene code : String} (hx : normalizeAccount env phone = .ok x) :
    findSMS env w x scene code = findSMS env w phone scene code := by
  unfold findSMS
  rw [normalizeAccount_idem hx, hx]

/-- A row that a lookup finds is there to be consumed. -/
theorem consumeSMS_of_find {phone scene code : String} {id : ℕ}
    (h : findSMS env w phone scene code = .ok id) : consumeSMS w id = (w.consume id, .ok ()) := by
  obtain ⟨x, r, -, hr, hid, -, -, -, hopen, -⟩ := findSMS_ok h
  have hone : w.db.smsVerifications.affected (fun r => r.id == id && r.consumedAt.isNone) = 1 := by
    apply Table.affected_eq_one (k := r.id) hr (by simp [smsKeys]) (by simp [hid, hopen])
    intro a ha hmatch
    simp only [Bool.and_eq_true, beq_iff_eq] at hmatch
    exact w.db.sms_eq_of_id ha hr (hmatch.1.trans hid.symm)
  unfold consumeSMS
  simp only [hone, ne_eq, not_true_eq_false, if_false]
  rfl

theorem verifySMSForScene_of_find {phone scene code : String} {id : ℕ}
    (h : findSMS env w phone scene code = .ok id) :
    verifySMSForScene env w phone scene code = (w.consume id, .ok ()) := by
  unfold verifySMSForScene
  split
  · next e he =>
    simp only [findSMS, he] at h
    cases h
  next x hx =>
  split
  · next hscene =>
    simp only [findSMS, hx, hscene, if_true] at h
    cases h
  · have hfind := (findSMS_normalized hx).trans h
    simp only [verifySMS, hfind, consumeSMS_of_find hfind]

theorem verifySMSForScene_of_error {phone scene code e : String}
    (h : findSMS env w phone scene code = .error e) :
    ∃ e', verifySMSForScene env w phone scene code = (w, .error e') := by
  unfold verifySMSForScene
  split
  · exact ⟨_, rfl⟩
  next x hx =>
  split
  · exact ⟨_, rfl⟩
  · have hfind := (findSMS_normalized hx).trans h
    simp only [verifySMS, hfind]
    exact ⟨_, rfl⟩

/-- The row that a verification over several scenes consumes. -/
def pickSMS (env : Externals) (w : World) (phone code : String) (scenes : List String) : Option ℕ :=
  scenes.findSome? fun scene => (findSMS env w phone scene code).toOption

theorem verifyScenes_of_pick {phone code : String} {scenes : List String} (last : Option String) :
    (∀ id, pickSMS env w phone code scenes = some id →
      verifyScenes env w phone code last scenes = (w.consume id, .ok ())) ∧
    (pickSMS env w phone code scenes = none →
      ∃ e, verifyScenes env w phone code last scenes = (w, .error e)) := by
  induction scenes generalizing last with
  | nil => exact ⟨fun _ hpick => (by cases hpick), fun _ => ⟨_, rfl⟩⟩
  | cons scene rest ih =>
    unfold pickSMS at ih ⊢
    rw [List.findSome?_cons, verifyScenes]
    cases hfind : findSMS env w phone scene code with
    | ok id =>
      rw [verifySMSForScene_of_find hfind]
      refine ⟨?_, fun hpick => (by cases hpick)⟩
      intro id' hpick
      cases hpick
      rfl
    | error e =>
      obtain ⟨e', he'⟩ := verifySMSForScene_of_error hfind
      rw [he']
      exact ih (some e')

/-- The row whose code the plan goes on to consume; `none` when it accepts no code. -/
def Plan.accepts (env : Externals) : Plan → Option ℕ
  | .reply _ _ => none
  | .checkScene w address scene code _ => pickSMS env w address code [scene]
  | .checkAny w address code scenes _ => pickSMS env w address code (uniqueScenes scenes)

def Plan.world : Plan → World
  | .reply w _ | .checkScene w _ _ _ _ | .checkAny w _ _ _ _ => w

def Plan.next : Plan → World → World × Reply
  | .reply _ result => fun w => (w, result)
  | .checkScene _ _ _ _ next | .checkAny _ _ _ _ next => next

def Plan.address : Plan → String
  | .reply _ _ => ""
  | .checkScene _ address _ _ _ | .checkAny _ address _ _ _ => address

def Plan.code : Plan → String
  | .reply _ _ => ""
  | .checkScene _ _ _ code _ | .checkAny _ _ code _ _ => code

/-- Without an accepted code a plan leaves the store as it was when the verification began. -/
theorem Plan.run_of_none {p : Plan} (h : p.accepts env = none) : (p.run env).1 = p.world := by
  cases p with
  | reply w result => rfl
  | checkScene w address scene code cont =>
    simp only [accepts, pickSMS, List.findSome?_cons, List.findSome?_nil] at h
    cases hfind : findSMS env w address scene code with
    | ok id => simp [hfind, Except.toOption] at h
    | error e =>
      obtain ⟨e', he'⟩ := verifySMSForScene_of_error hfind
      simp only [run, he', world]
  | checkAny w address code scenes cont =>
    obtain ⟨e, he⟩ := (verifyScenes_of_pick none).2 h
    simp only [run, verifySMSForAnyScene, he, world]

/-- With an accepted code a plan consumes its row and goes on. -/
theorem Plan.run_of_some {p : Plan} {id : ℕ} (h : p.accepts env = some id) :
    p.run env = p.next (p.world.consume id) := by
  cases p with
  | reply w result => cases h
  | checkScene w address scene code cont =>
    simp only [accepts, pickSMS, List.findSome?_cons, List.findSome?_nil] at h
    cases hfind : findSMS env w address scene code with
    | ok id' =>
      simp only [hfind, Except.toOption, Option.some.injEq] at h
      subst h
      simp only [run, verifySMSForScene_of_find hfind, next, world]
    | error e => simp [hfind, Except.toOption] at h
  | checkAny w address code scenes cont =>
    have hverify := (verifyScenes_of_pick none).1 id h
    simp only [run, verifySMSForAnyScene, hverify, next, world]

/-- The row that a verification consumes is open and has not expired. -/
theorem pickSMS_row {phone code : String} {scenes : List String} {id : ℕ}
    (h : pickSMS env w phone code scenes = some id) :
    ∃ r ∈ w.db.smsVerifications.rows, r.id = id ∧ normalizeAccount env phone = .ok r.phone ∧
      r.code = code ∧ r.consumedAt = none ∧ w.now ≤ r.expiresAt := by
  obtain ⟨scene, -, hscene⟩ := List.exists_of_findSome?_eq_some h
  cases hfind : findSMS env w phone scene code with
  | ok id' =>
    rw [hfind] at hscene
    cases hscene
    obtain ⟨x, r, hx, hr, hid, rfl, -, hcode, hopen, hfresh⟩ := findSMS_ok hfind
    exact ⟨r, hr, hid, hx, hcode, hopen, hfresh⟩
  | error e =>
    rw [hfind] at hscene
    cases hscene

theorem Plan.accepts_row {p : Plan} {id : ℕ} (h : p.accepts env = some id) :
    ∃ r ∈ p.world.db.smsVerifications.rows, r.id = id ∧
      normalizeAccount env p.address = .ok r.phone ∧ r.code = p.code ∧ r.consumedAt = none ∧
      p.world.now ≤ r.expiresAt := by
  cases p with
  | reply w result => cases h
  | checkScene w address scene code cont => exact pickSMS_row h
  | checkAny w address code scenes cont => exact pickSMS_row h

/-- The attempts to set a password that may follow a login. -/
inductive Rehashed (env : Externals) (w : World) : World → Prop
  | same : Rehashed env w w
  | hashed (password : String) : Rehashed env w (passwordHash env w password).1
  | set (userID : ℕ) (password : String) : Rehashed env w (setPassword env w userID password).1

/-- Changes that open no session. -/
structure Keeps (env : Externals) (w w' : World) : Prop where
  changes : Changes env w w'
  sessions : NoNewSession w w'

def Effect.opensSession : Effect → Bool
  | .login _ | .refresh _ => true
  | _ => false

theorem Change.keeps {k : Effect} (h : Change env w k w') (hk : k.opensSession = false) :
    Keeps env w w' := by
  refine ⟨h.toChanges, ?_⟩
  cases h with
  | login | refresh => cases hk
  | draw | comet | touch | create | rebind | restore => exact NoNewSession.of_sub fun _ hs => hs
  | revokeSession | revokeTokens | delete => exact NoNewSession.of_revoked rfl
  | hardDelete id => exact NoNewSession.of_sub fun s hs => (Table.mem_delete.mp hs).1

theorem Makes.keeps {α : Type} {k : Effect} {r : World × Except String α} (h : Makes env w k r)
    (hk : k.opensSession = false) : Keeps env w r.1 := by
  rcases h.world with ⟨n, hn, hworld⟩ | hchange
  · rw [hworld]
    exact (Change.draw w n hn).keeps rfl
  · exact hchange.keeps hk

theorem Keeps.refl (w : World) : Keeps env w w :=
  ⟨Relation.ReflTransGen.refl, NoNewSession.of_sub fun _ hs => hs⟩

theorem passwordHash_world (env : Externals) (w : World) (password : String) :
    ∃ n, w.draws ≤ n ∧ (passwordHash env w password).1 = { w with draws := n } := by
  unfold passwordHash
  split
  · exact ⟨w.draws, le_refl _, rfl⟩
  split
  · exact ⟨w.draws, le_refl _, rfl⟩
  · exact ⟨w.draws + 1, Nat.le_succ _, rfl⟩

theorem passwordHash_keeps (w : World) (password : String) :
    Keeps env w (passwordHash env w password).1 := by
  obtain ⟨n, hn, hworld⟩ := passwordHash_world env w password
  rw [hworld]
  exact (Change.draw w n hn).keeps rfl

theorem setPassword_keeps (w : World) (userID : ℕ) (password : String) :
    Keeps env w (setPassword env w userID password).1 := by
  have hhash : Keeps env w (passwordHash env w password).1 := passwordHash_keeps w password
  unfold setPassword
  split
  · next heq => simpa [heq] using hhash
  · next w' hash heq =>
    rw [heq] at hhash
    have htouch : Changes env w' (setPasswordHash w' userID hash).1 :=
      (Change.touch w' (.password userID hash)).toChanges
    exact ⟨hhash.changes.trans htouch, hhash.sessions⟩

theorem Rehashed.keeps (h : Rehashed env w w') : Keeps env w w' := by
  cases h with
  | same => exact Keeps.refl w
  | hashed password => exact passwordHash_keeps w password
  | set userID password => exact setPassword_keeps w userID password

theorem updatePhone_keeps (w : World) (userID : ℕ) (account : String) :
    Keeps env w (updatePhone env w userID account).1 :=
  (updatePhone_makes w userID account).keeps rfl

theorem unbindVerified_keeps (w : World) (id : ℕ) (kind retained : String) :
    Keeps env w (unbindVerified env w id kind retained).1 :=
  (unbindVerified_makes w id kind retained).keeps rfl

theorem unbindAndDeleteUser_keeps (w : World) (userID : ℕ) (hard : Bool) :
    Keeps env w (unbindAndDeleteUser request w userID hard).1 := by
  unfold unbindAndDeleteUser
  split
  · exact Keeps.refl w
  split
  · exact Keeps.refl w
  split
  · exact (hardDeleteUser_makes w userID).keeps rfl
  · exact (deleteUser_makes w userID).keeps rfl

theorem passwordLogin_changes (w : World) (phone password : String) :
    Changes env w (passwordLogin env w phone password).1 := by
  unfold passwordLogin
  split
  · exact Relation.ReflTransGen.refl
  · exact issueAuthSession_changes w _

theorem loginWithCode_rehashed (form : Form) (phone : String) (existing : User) (w : World) :
    Rehashed env (getOrCreateUser env w phone).1 (loginWithCode env form phone existing w).1 := by
  unfold loginWithCode
  split
  · next heq =>
    rw [heq]
    exact Rehashed.same
  next w' u created heq =>
  rw [heq]
  split
  · have hset : Rehashed env w' (setPassword env w' u.id (form.get "password")).1 :=
      Rehashed.set u.id _
    split
    all_goals
      next heq' =>
      rw [heq'] at hset
      exact hset
  · exact Rehashed.same

/-- An attempt to hash a password for nobody. -/
theorem hashOnly_rehashed (w : World) (password : String) :
    Rehashed env w (match passwordHash env w password with
      | (w, .error e) => ((w, .error e) : World × Reply)
      | (w, .ok _) => (w, .ok none)).1 := by
  have hhash : Rehashed env w (passwordHash env w password).1 := Rehashed.hashed password
  split
  all_goals
    next heq =>
    rw [heq] at hhash
    exact hhash

theorem registerWithCode_rehashed (phone password : String) (w : World) :
    Rehashed env (getOrCreateUser env w phone).1 (registerWithCode env phone password w).1 := by
  unfold registerWithCode
  split
  · next heq =>
    rw [heq]
    exact Rehashed.same
  next w' u created heq =>
  rw [heq]
  split
  · exact Rehashed.same
  split
  · exact Rehashed.set u.id password
  · exact hashOnly_rehashed w' password

theorem resetPassword_keeps (form : Form) (u : Option User) (w : World) :
    Keeps env w (resetPassword cfg env form u w).1 := by
  unfold resetPassword
  split
  · exact Keeps.refl w
  split
  · split
    · exact (hashOnly_rehashed w _).keeps
    · exact Keeps.refl w
  · split
    · exact setPassword_keeps w _ _
    · exact Keeps.refl w

theorem recoverWithCode_keeps (u : Option User) (password : String) (w : World) :
    Keeps env w (recoverWithCode env u password w).1 := by
  unfold recoverWithCode
  split
  · exact (hashOnly_rehashed w password).keeps
  · exact setPassword_keeps w _ _

theorem answer_keeps {r : World × Except String Unit} (h : Keeps env w r.1) :
    Keeps env w (answer r).1 := h

/-- The phone number or email and the password that a request presents. -/
def Handler.presentedPassword (request : Request) : Handler → Option (String × String)
  | .userLogin | .mobileRegister | .emailRegister =>
    request.form.toOption.map fun form => (phoneOf form, form.get "password")
  | .userCenterChangePassword => some (request.post.get "phone", request.post.get "old_password")
  | .userCenterDeleteAccount => some (request.post.get "phone", request.post.get "password")
  | .userCenterChangePhone => some (request.post.get "old_phone", request.post.get "password")
  | _ => none

/-- The code that a request presents in order to log in. -/
def Handler.presentedCode (request : Request) : Handler → Option String
  | .userLogin | .mobileRegister | .emailRegister =>
    request.form.toOption.map fun form => form.get "code"
  | .userCenterRegister => some (request.post.get "code")
  | _ => none

/-- The refresh token that a request presents. -/
def Handler.presentedToken (request : Request) : Handler → Option String
  | .refreshToken => request.form.toOption.map fun form =>
    orDefault (form.get "refresh_token") (form.get "refreshToken")
  | _ => none

/-- The calls before a code is verified: at most one of them opens a session. -/
inductive Opens (env : Externals) (h : Handler) (request : Request) (w w' : World) : Prop
  | nothing (hkeeps : Keeps env w w')
  | password {phone password : String}
      (hgiven : h.presentedPassword request = some (phone, password))
      (hkeeps : Keeps env (passwordLogin env w phone password).1 w')
  | token {token : String} (hgiven : h.presentedToken request = some token)
      (hkeeps : Keeps env (refreshByToken env w token).1 w')

/-- The calls of a handler before and after it verifies a code. A login by code is the first
call of its request. -/
structure Plan.Calls (env : Externals) (h : Handler) (request : Request) (w : World)
    (p : Plan) : Prop where
  before : Opens env h request w p.world
  after : (∀ v, Keeps env v (p.next v).1) ∨
    p.world = w ∧ h.presentedCode request = some p.code ∧
      ∀ v, Rehashed env (getOrCreateUser env v p.address).1 (p.next v).1

variable {h : Handler}

theorem Plan.Calls.reply {result : Reply} (hopens : Opens env h request w w') :
    Plan.Calls env h request w (.reply w' result) :=
  ⟨hopens, Or.inl fun v => Keeps.refl v⟩

theorem Plan.Calls.refused {result : Reply} : Plan.Calls env h request w (.reply w result) :=
  Plan.Calls.reply (Opens.nothing (Keeps.refl w))

theorem Plan.Calls.checkScene {address scene code : String} {cont : World → World × Reply}
    (hopens : Opens env h request w w') (hcont : ∀ v, Keeps env v (cont v).1) :
    Plan.Calls env h request w (.checkScene w' address scene code cont) :=
  ⟨hopens, Or.inl hcont⟩

theorem Plan.Calls.checkAny {address code : String} {scenes : List String}
    {cont : World → World × Reply} (hcont : ∀ v, Keeps env v (cont v).1) :
    Plan.Calls env h request w (.checkAny w address code scenes cont) :=
  ⟨Opens.nothing (Keeps.refl w), Or.inl hcont⟩

theorem Plan.Calls.loginScene {address scene code : String} {cont : World → World × Reply}
    (hgiven : h.presentedCode request = some code)
    (hlogin : ∀ v, Rehashed env (getOrCreateUser env v address).1 (cont v).1) :
    Plan.Calls env h request w (.checkScene w address scene code cont) :=
  ⟨Opens.nothing (Keeps.refl w), Or.inr ⟨rfl, hgiven, hlogin⟩⟩

theorem Plan.Calls.loginAny {address code : String} {scenes : List String}
    {cont : World → World × Reply} (hgiven : h.presentedCode request = some code)
    (hlogin : ∀ v, Rehashed env (getOrCreateUser env v address).1 (cont v).1) :
    Plan.Calls env h request w (.checkAny w address code scenes cont) :=
  ⟨Opens.nothing (Keeps.refl w), Or.inr ⟨rfl, hgiven, hlogin⟩⟩

theorem Plan.Calls.follows {p : Plan} (hcalls : p.Calls env h request w) :
    Changes env w p.world ∧ ∀ v, Changes env v (p.next v).1 := by
  constructor
  · cases hcalls.before with
    | nothing hkeeps => exact hkeeps.changes
    | password hgiven hkeeps => exact (passwordLogin_changes w _ _).trans hkeeps.changes
    | token hgiven hkeeps => exact (refreshByToken_changes w _).trans hkeeps.changes
  · intro v
    rcases hcalls.after with hkeeps | ⟨-, -, hlogin⟩
    · exact (hkeeps v).changes
    · exact (getOrCreateUser_changes v _).trans (hlogin v).keeps.changes

def Handler.isSend : Handler → Bool
  | .sendCode | .sendCodeWithData | .userCenterSendCode => true
  | _ => false

theorem loginLike_calls (isNew : Bool)
    (hpassword : h.presentedPassword request =
      request.form.toOption.map fun form => (phoneOf form, form.get "password"))
    (hcode : h.presentedCode request = request.form.toOption.map fun form => form.get "code") :
    (loginLike cfg env request w isNew).Calls env h request w := by
  unfold loginLike
  split
  · exact Plan.Calls.refused
  next form hform =>
  rw [hform] at hpassword hcode
  simp only
  split
  · exact Plan.Calls.refused
  split
  · have hopens : Opens env h request w
        (passwordLogin env w (phoneOf form) (form.get "password")).1 :=
      Opens.password hpassword (Keeps.refl _)
    split
    all_goals
      next heq =>
      rw [heq] at hopens
      exact Plan.Calls.reply hopens
  split
  · exact Plan.Calls.refused
  split
  · exact Plan.Calls.refused
  split
  · exact Plan.Calls.refused
  split
  · exact Plan.Calls.refused
  · exact Plan.Calls.loginAny hcode fun v => loginWithCode_rehashed form _ _ v

theorem refreshToken_calls :
    (refreshToken env request w).Calls env .refreshToken request w := by
  unfold refreshToken
  split
  · exact Plan.Calls.refused
  next form hform =>
  have hopens : Opens env .refreshToken request w (refreshByToken env w
      (orDefault (form.get "refresh_token") (form.get "refreshToken"))).1 :=
    Opens.token (by rw [Handler.presentedToken, hform]; rfl) (Keeps.refl _)
  split
  all_goals
    next heq =>
    rw [heq] at hopens
    exact Plan.Calls.reply hopens

theorem passwordReset_calls : (passwordReset cfg env request w).Calls env h request w := by
  unfold passwordReset
  split
  · exact Plan.Calls.refused
  next form _ =>
  split
  · exact Plan.Calls.refused
  split
  · exact Plan.Calls.refused
  simp only
  split
  · exact Plan.Calls.refused
  next u _ =>
  split
  · split
    · have hhash : Keeps env w (passwordHash env w (form.get "password")).1 :=
        passwordHash_keeps w _
      split
      all_goals
        next heq =>
        rw [heq] at hhash
        exact Plan.Calls.reply (Opens.nothing hhash)
    · exact Plan.Calls.refused
  · exact Plan.Calls.checkScene (Opens.nothing (Keeps.refl w)) (resetPassword_keeps form u)

theorem accountBindPhone_calls : (accountBindPhone env request w).Calls env h request w := by
  unfold accountBindPhone
  split
  · exact Plan.Calls.refused
  split
  · exact Plan.Calls.refused
  split
  · exact Plan.Calls.refused
  simp only
  split
  · exact Plan.Calls.refused
  · exact Plan.Calls.checkAny fun v => answer_keeps (updatePhone_keeps v _ _)

theorem cancellationCodeVerify_calls :
    (cancellationCodeVerify request w).Calls env h request w := by
  unfold cancellationCodeVerify
  split
  · exact Plan.Calls.refused
  split
  · exact Plan.Calls.refused
  · exact Plan.Calls.checkAny fun v => Keeps.refl v

theorem accountUnbind_calls : (accountUnbind env request w).Calls env h request w := by
  unfold accountUnbind
  split
  · exact Plan.Calls.refused
  split
  · exact Plan.Calls.refused
  split
  · exact Plan.Calls.refused
  · exact Plan.Calls.checkAny fun v => answer_keeps (unbindVerified_keeps v _ _ _)

theorem userCenterRegister_calls :
    (userCenterRegister cfg env request w).Calls env .userCenterRegister request w := by
  unfold userCenterRegister
  split
  · exact Plan.Calls.refused
  split
  · exact Plan.Calls.refused
  split
  · exact Plan.Calls.refused
  split
  · exact Plan.Calls.refused
  · exact Plan.Calls.loginScene rfl fun v => registerWithCode_rehashed _ _ v

theorem userCenterRecoverPassword_calls :
    (userCenterRecoverPassword cfg env request w).Calls env h request w := by
  unfold userCenterRecoverPassword
  split
  · exact Plan.Calls.refused
  split
  · exact Plan.Calls.refused
  simp only
  split
  · exact Plan.Calls.refused
  split
  · exact Plan.Calls.refused
  next u _ =>
  split
  · have hhash : Keeps env w (passwordHash env w (request.post.get "password")).1 :=
      passwordHash_keeps w _
    split
    all_goals
      next heq =>
      rw [heq] at hhash
      exact Plan.Calls.reply (Opens.nothing hhash)
  · exact Plan.Calls.checkScene (Opens.nothing (Keeps.refl w)) (recoverWithCode_keeps u _)

theorem userCenterChangePassword_calls :
    (userCenterChangePassword env request w).Calls env .userCenterChangePassword request w := by
  have hopens : ∀ {w'}, Keeps env (passwordLogin env w (request.post.get "phone")
      (request.post.get "old_password")).1 w' → Opens env .userCenterChangePassword request w w' :=
    fun hkeeps => Opens.password rfl hkeeps
  unfold userCenterChangePassword
  split
  · exact Plan.Calls.refused
  split
  · next heq =>
    rw [heq] at hopens
    exact Plan.Calls.reply (hopens (Keeps.refl _))
  next w' u heq =>
  rw [heq] at hopens
  simp only
  split
  · exact Plan.Calls.reply (hopens (Keeps.refl w'))
  · exact Plan.Calls.reply (hopens (setPassword_keeps w' u.id _))

theorem userCenterDeleteAccount_calls :
    (userCenterDeleteAccount env request w).Calls env .userCenterDeleteAccount request w := by
  have hopens : ∀ {w'}, Keeps env (passwordLogin env w (request.post.get "phone")
      (request.post.get "password")).1 w' → Opens env .userCenterDeleteAccount request w w' :=
    fun hkeeps => Opens.password rfl hkeeps
  unfold userCenterDeleteAccount
  split
  · exact Plan.Calls.refused
  split
  · next heq =>
    rw [heq] at hopens
    exact Plan.Calls.reply (hopens (Keeps.refl _))
  next w' u heq =>
  rw [heq] at hopens
  exact Plan.Calls.reply (hopens (unbindAndDeleteUser_keeps w' u.id false))

theorem userCenterChangePhone_calls :
    (userCenterChangePhone env request w).Calls env .userCenterChangePhone request w := by
  have hopens : Opens env .userCenterChangePhone request w
      (passwordLogin env w (request.post.get "old_phone") (request.post.get "password")).1 :=
    Opens.password rfl (Keeps.refl _)
  unfold userCenterChangePhone
  split
  · exact Plan.Calls.refused
  split
  · exact Plan.Calls.refused
  split
  · next heq =>
    rw [heq] at hopens
    exact Plan.Calls.reply hopens
  · next w' u heq =>
    rw [heq] at hopens
    exact Plan.Calls.checkScene hopens fun v => answer_keeps (updatePhone_keeps v _ _)

theorem Handler.calls (hsend : h.isSend = false) :
    (h.plan cfg env request w).Calls env h request w := by
  cases h with
  | sendCode | sendCodeWithData | userCenterSendCode => cases hsend
  | userLogin =>
    rw [plan, PapeSdk.userLogin]
    exact loginLike_calls false rfl rfl
  | mobileRegister =>
    rw [plan, PapeSdk.mobileRegister]
    exact loginLike_calls true rfl rfl
  | emailRegister =>
    rw [plan, PapeSdk.emailRegister]
    exact loginLike_calls true rfl rfl
  | refreshToken =>
    rw [plan]
    exact refreshToken_calls
  | passwordReset =>
    rw [plan]
    exact passwordReset_calls
  | accountBindPhone =>
    rw [plan]
    exact accountBindPhone_calls
  | cancellationCodeVerify =>
    rw [plan]
    exact cancellationCodeVerify_calls
  | accountUnbind =>
    rw [plan]
    exact accountUnbind_calls
  | userCenterRegister =>
    rw [plan]
    exact userCenterRegister_calls
  | userCenterRecoverPassword =>
    rw [plan]
    exact userCenterRecoverPassword_calls
  | userCenterChangePassword =>
    rw [plan]
    exact userCenterChangePassword_calls
  | userCenterDeleteAccount =>
    rw [plan]
    exact userCenterDeleteAccount_calls
  | userCenterChangePhone =>
    rw [plan]
    exact userCenterChangePhone_calls

/-- New codes for one address, none of them consumed, and one event that records the issue. -/
structure Issued (w w' : World) (x : String) : Prop where
  rows : ∃ new, new ≠ [] ∧
    w'.db.smsVerifications.rows = w.db.smsVerifications.rows ++ new ∧
    ∀ r ∈ new, r.phone = x ∧ r.consumedAt = none
  events : ∃ ip time, w'.db.smsEvents = w.db.smsEvents ++ [⟨x, ip, time⟩]
  step : CodesStep w w'

theorem Issued.insert {x phone scene code ip : String} (h : Issued w w' x)
    (hx : normalizeAccount env phone = .ok x) :
    Issued w (insertSMS env w' phone scene code ip).1 x := by
  have hstep := h.step.trans (insertSMS_step env w' phone scene code ip)
  rcases hcall : insertSMS env w' phone scene code ip with ⟨w'', result⟩
  rw [hcall] at hstep
  rcases insertSMS_cases hcall with ⟨_, -, rfl⟩ | ⟨y, rows, -, hy, hrows, rfl⟩
  · exact h
  · rw [hx] at hy
    cases hy
    obtain ⟨new, hne, hnew, hall⟩ := h.rows
    refine ⟨⟨new ++ [⟨w'.db.nextSmsID, x, scene, code, ip, w'.now, w'.now + smsCodeTTL, none⟩],
      by simp, ?_, ?_⟩, h.events, hstep⟩
    · have hinsert := Table.insert?_rows hrows
      simp only [Db.withCodes]
      rw [hinsert, hnew, List.append_assoc]
    · intro r hr
      rcases List.mem_append.mp hr with hold | hlast
      · exact hall r hold
      · rw [List.mem_singleton.mp hlast]
        exact ⟨rfl, rfl⟩

theorem Issued.mirror {x phone code ip : String} {scenes : List String} (h : Issued w w' x)
    (hx : normalizeAccount env phone = .ok x) :
    Issued w (mirrorSMSCode env w' phone code ip scenes) x := by
  unfold mirrorSMSCode
  induction uniqueScenes scenes generalizing w' with
  | nil => exact h
  | cons scene rest ih =>
    rw [List.foldl_cons]
    exact ih (h.insert hx)

theorem issueSMS_issued {x scene code ip : String} (hx : normalizeAccount env x = .ok x)
    (h : issueSMS env w x scene code ip = (w', .ok ())) : Issued w w' x := by
  have hstep := issueSMS_step env w x scene code ip
  rw [h] at hstep
  unfold issueSMS at h
  split at h
  · cases h
  next v hinsert =>
  cases h
  rcases insertSMS_cases hinsert with ⟨e, he, -⟩ | ⟨y, rows, -, hy, hrows, rfl⟩
  · cases he
  · rw [hx] at hy
    cases hy
    refine ⟨⟨_, ?_, Table.insert?_rows hrows, ?_⟩, ⟨ip, w.now, rfl⟩, hstep⟩
    · simp
    · intro r hr
      rw [List.mem_singleton.mp hr]
      exact ⟨rfl, rfl⟩

/-- A code for an email address is the one that was sent. -/
def Request.SentTo (request : Request) (address code : String) : Prop :=
  hasAt address = true → request.sent = .ok () ∧ (request.digits ≠ "" → code = request.digits)

/-- What a request for a code comes to. -/
theorem issueSMSForScene_ends {phone scene : String} {authenticated : Bool}
    {result : Except String (Option String)}
    (h : issueSMSForScene cfg env request w phone scene authenticated = (w', result)) :
    (w' = w ∧ ∀ code, result ≠ .ok (some code)) ∨
    ∃ address ip code, normalizeAccount env phone = .ok address ∧ request.SentTo address code ∧
      result = .ok (some code) ∧ issueSMS env w address scene code ip = (w', .ok ()) := by
  unfold issueSMSForScene at h
  split at h
  · cases h
    exact Or.inl ⟨rfl, by simp⟩
  next address haddress =>
  split at h
  · cases h
    exact Or.inl ⟨rfl, by simp⟩
  split at h
  · cases h
    exact Or.inl ⟨rfl, by simp⟩
  · cases h
    exact Or.inl ⟨rfl, by simp⟩
  simp only at h
  split at h
  · cases h
    exact Or.inl ⟨rfl, by simp⟩
  split at h
  · cases h
    exact Or.inl ⟨rfl, by simp⟩
  next hsent =>
  split at h
  · next v e hissue =>
    cases h
    refine Or.inl ⟨?_, by simp⟩
    unfold issueSMS at hissue
    split at hissue
    · next hinsert =>
      cases hissue
      rcases insertSMS_cases hinsert with ⟨_, -, hsame⟩ | ⟨_, _, hok, -⟩
      · exact hsame
      · cases hok
    · cases hissue
  · next v hissue =>
    cases h
    refine Or.inr ⟨address, _, _, haddress, fun hmail => ?_, rfl, hissue⟩
    rw [hmail, Bool.or_true, if_pos rfl] at hsent
    refine ⟨hsent, fun hdigits => ?_⟩
    rw [hmail, Bool.or_true, if_pos rfl, if_neg hdigits]

/-- A request for a code either leaves the store alone or issues a code. -/
theorem issueSMSForScene_cases {phone scene : String} {authenticated : Bool}
    {result : Except String (Option String)}
    (h : issueSMSForScene cfg env request w phone scene authenticated = (w', result)) :
    (w' = w ∧ ∀ code, result ≠ .ok (some code)) ∨
    ∃ x, normalizeAccount env phone = .ok x ∧ Issued w w' x := by
  rcases issueSMSForScene_ends h with hsame | ⟨address, ip, code, haddress, -, -, hissue⟩
  · exact Or.inl hsame
  · exact Or.inr ⟨address, haddress, issueSMS_issued (normalizeAccount_idem haddress) hissue⟩

theorem issueAndMirror_cases {phone scene : String} {scenes : List String} {authenticated : Bool} :
    (∃ result, issueAndMirror cfg env request w phone scene authenticated scenes =
      .reply w result) ∨
    ∃ x w' result, issueAndMirror cfg env request w phone scene authenticated scenes =
      .reply w' result ∧ Issued w w' x := by
  unfold issueAndMirror
  rcases hcall : issueSMSForScene cfg env request w phone scene authenticated with ⟨w', result⟩
  rcases issueSMSForScene_cases hcall with ⟨rfl, hnone⟩ | ⟨x, hx, hissued⟩
  · rcases result with e | _ | code
    · exact Or.inl ⟨_, rfl⟩
    · exact Or.inl ⟨_, rfl⟩
    · exact absurd rfl (hnone code)
  · rcases result with e | _ | code
    · exact Or.inr ⟨x, _, _, rfl, hissued⟩
    · exact Or.inr ⟨x, _, _, rfl, hissued⟩
    · exact Or.inr ⟨x, _, _, rfl, hissued.mirror hx⟩

theorem Handler.send_cases (cfg : AuthConfig) (env : Externals) (request : Request) (w : World)
    {h : Handler} (hsend : h.isSend = true) :
    (∃ result, h.plan cfg env request w = .reply w result) ∨
    ∃ x w' result, h.plan cfg env request w = .reply w' result ∧ Issued w w' x := by
  cases h with
  | sendCode =>
    rw [plan, PapeSdk.sendCode]
    split
    · exact Or.inl ⟨_, rfl⟩
    simp only
    split
    · exact Or.inl ⟨_, rfl⟩
    · exact issueAndMirror_cases
  | sendCodeWithData =>
    rw [plan, PapeSdk.sendCodeWithData]
    split
    · exact Or.inl ⟨_, rfl⟩
    simp only
    split
    · exact Or.inl ⟨_, rfl⟩
    · exact issueAndMirror_cases
  | userCenterSendCode =>
    rw [plan, PapeSdk.userCenterSendCode]
    split
    · exact Or.inl ⟨_, rfl⟩
    split
    · exact Or.inl ⟨_, rfl⟩
    next phone _ =>
    rcases hcall : issueSMSForScene cfg env request w phone
      ((request.post.lookup "scene").getD "usercenter") false with ⟨w', result⟩
    simp only [hcall]
    rcases issueSMSForScene_cases hcall with ⟨rfl, -⟩ | ⟨x, -, hissued⟩
    · cases result <;> exact Or.inl ⟨_, rfl⟩
    · cases result <;> exact Or.inr ⟨x, w', _, rfl, hissued⟩
  | _ => cases hsend

end

end PapeSdk
