import PapeSdk.AuthSoundness

/-!
The requests that log in by a code: `loginLike` and `userCenterRegister`. For
each of them one record lists the guards that it passes before it verifies the
code, and the policy of the configuration on an identifier with or without an
account is read off these guards.
-/

namespace PapeSdk

open KeyedTables Identifiers

/-- What the configuration demands before a code of an identifier may log in. -/
structure CodePolicy (cfg : AuthConfig) (account : Option User) : Prop where
  newcomer : account = none → cfg.allowRegister = true
  existing : account ≠ none → cfg.smsOnlyRegister = false

def loginScenes (form : Form) : List String :=
  [orDefault (form.get "scene") "login", "login", "web_login", "account", "register", "usercenter"]

/-- The guards of `loginLike` before it verifies a code of `x`. -/
structure LoginByCode (cfg : AuthConfig) (env : Externals) (request : Request) (w : World)
    (isNew : Bool) (form : Form) (x : String) : Prop where
  parsed : request.form = .ok form
  email : ¬ (request.path = "/v1/user/email/register" ∧ hasAt (phoneOf form) = false)
  noPassword : ((cfg.realPassword || cfg.smsOnlyRegister || hasAt (phoneOf form)) &&
    (form.lookup "password").isSome && !isNew) = false
  normalized : normalizeAccount env (phoneOf form) = .ok x
  allowed : loginAllowed cfg isNew (userByPhoneRow w x).isSome = .ok ()
  valid : isNew = true → form.get "password" ≠ "" → 6 ≤ (form.get "password").utf8ByteSize

/-- The guards of `userCenterRegister` before it verifies a code of `x`. -/
structure RegisterByCode (cfg : AuthConfig) (env : Externals) (request : Request) (w : World)
    (x : String) : Prop where
  csrf : request.validCSRF = true
  normalized : normalizeAccount env (request.post.get "phone") = .ok x
  allowed : CodePolicy cfg (userByPhoneRow w x)

section
variable {cfg : AuthConfig} {env : Externals} {request : Request} {w : World} {isNew : Bool}
  {form : Form} {x : String}

theorem validatePassword_ok {password : String} :
    validatePassword password = .ok () ↔ 6 ≤ password.utf8ByteSize := by
  unfold validatePassword
  split
  · next hshort => simp; omega
  · next hlong => simp; omega

theorem userByPhone_normalized (hx : normalizeAccount env x = .ok x) :
    userByPhone env w x = .ok (userByPhoneRow w x) := by
  rw [userByPhone, hx]

theorem loginAllowed_policy {account : Option User}
    (h : loginAllowed cfg isNew account.isSome = .ok ()) : CodePolicy cfg account := by
  unfold loginAllowed at h
  cases account with
  | none =>
    refine ⟨fun _ => ?_, fun hne => absurd rfl hne⟩
    by_contra hclosed
    cases isNew <;> cases hsms : cfg.smsOnlyRegister <;> simp_all
  | some u =>
    refine ⟨fun hnone => (by cases hnone), fun _ => ?_⟩
    by_contra hsms
    cases isNew <;> simp_all

theorem LoginByCode.policy (h : LoginByCode cfg env request w isNew form x) :
    CodePolicy cfg (userByPhoneRow w x) := loginAllowed_policy h.allowed

theorem LoginByCode.idem (h : LoginByCode cfg env request w isNew form x) :
    normalizeAccount env x = .ok x := normalizeAccount_idem h.normalized

theorem RegisterByCode.idem (h : RegisterByCode cfg env request w x) :
    normalizeAccount env x = .ok x := normalizeAccount_idem h.normalized

theorem loginLike_byCode (h : LoginByCode cfg env request w isNew form x) :
    loginLike cfg env request w isNew =
      .checkAny w x (form.get "code") (loginScenes form)
        (loginWithCode env form x ((userByPhoneRow w x).getD User.zero)) := by
  have hvalid : (if isNew && form.get "password" != "" then
      validatePassword (form.get "password") else .ok ()) = .ok () := by
    split
    · next hnew =>
      simp only [Bool.and_eq_true, bne_iff_ne] at hnew
      exact validatePassword_ok.mpr (h.valid hnew.1 hnew.2)
    · rfl
  unfold loginLike
  simp only [h.parsed, if_neg h.email, h.noPassword, h.normalized, userByPhone_normalized h.idem,
    h.allowed, hvalid, Bool.false_eq_true, if_false]
  rfl

/-- A login request verifies a code, or fails right away, or tries a password. -/
theorem loginLike_cases (cfg : AuthConfig) (env : Externals) (request : Request) (w : World)
    (isNew : Bool) :
    (∃ form x, LoginByCode cfg env request w isNew form x) ∨
    (∃ e, loginLike cfg env request w isNew = .reply w (.error e)) ∨
    ∃ phone password w' result, passwordLogin env w phone password = (w', result) ∧
      loginLike cfg env request w isNew = .reply w' (result.map some) := by
  unfold loginLike
  split
  · exact Or.inr (Or.inl ⟨_, rfl⟩)
  next form hform =>
  simp only
  split
  · exact Or.inr (Or.inl ⟨_, rfl⟩)
  next hemail =>
  split
  · rcases hlogin : passwordLogin env w (phoneOf form) (form.get "password") with ⟨w', result⟩
    refine Or.inr (Or.inr ⟨_, _, w', result, hlogin, ?_⟩)
    cases result with
    | error e => rfl
    | ok u => rfl
  next hpassword =>
  split
  · exact Or.inr (Or.inl ⟨_, rfl⟩)
  next x hx =>
  rw [userByPhone_normalized (normalizeAccount_idem hx)]
  simp only
  split
  · exact Or.inr (Or.inl ⟨_, rfl⟩)
  next hallowed =>
  split
  · exact Or.inr (Or.inl ⟨_, rfl⟩)
  next hvalid =>
  refine Or.inl ⟨form, x, hform, hemail, by simpa using hpassword, hx, hallowed, ?_⟩
  intro hnew hne
  rw [if_pos (by simp [hnew, hne])] at hvalid
  exact validatePassword_ok.mp hvalid

theorem userCenterRegister_byCode (h : RegisterByCode cfg env request w x) :
    userCenterRegister cfg env request w =
      .checkScene w x "register" (request.post.get "code")
        (registerWithCode env x (request.post.get "password")) := by
  have hallowed : (((userByPhoneRow w x).isNone && !cfg.allowRegister) ||
      ((userByPhoneRow w x).isSome && cfg.smsOnlyRegister)) = false := by
    have hpolicy := h.allowed
    cases haccount : userByPhoneRow w x with
    | none => simp [hpolicy.newcomer haccount]
    | some u => simp [hpolicy.existing (by simp [haccount])]
  unfold userCenterRegister
  simp only [h.csrf, h.normalized, userByPhone_normalized h.idem, hallowed, Bool.not_true,
    Bool.false_eq_true, if_false]

theorem userCenterRegister_cases (cfg : AuthConfig) (env : Externals) (request : Request)
    (w : World) :
    (∃ x, RegisterByCode cfg env request w x) ∨
    ∃ e, userCenterRegister cfg env request w = .reply w (.error e) := by
  unfold userCenterRegister
  split
  · exact Or.inr ⟨_, rfl⟩
  next hcsrf =>
  split
  · exact Or.inr ⟨_, rfl⟩
  next x hx =>
  rw [userByPhone_normalized (normalizeAccount_idem hx)]
  simp only
  split
  · exact Or.inr ⟨_, rfl⟩
  next hallowed =>
  refine Or.inl ⟨x, by simpa using hcsrf, hx, ?_, ?_⟩
  · intro hnone
    rw [hnone] at hallowed
    simpa using hallowed
  · intro hsome
    obtain ⟨u, hu⟩ := Option.ne_none_iff_exists'.mp hsome
    rw [hu] at hallowed
    simpa using hallowed

end

end PapeSdk
