import PapeSdk.HandlerChanges
import PapeSdk.SendSystem

/-!
What requests for codes reveal about an account. A request without credentials
sees of the store the clock, the events of the codes and the account of its own
address, and nothing else. Where no code may be issued it answers success without
looking at the events or leaving one, so two stores that differ in the account
answer alike in every sequence exactly when the configuration issues codes for
both of them or for neither, or does not limit the address at all.
-/

namespace PapeSdk

open Identifiers LetterCase

/-- A request for a code that comes after some time. -/
structure Probe where
  wait : ℕ
  handler : Handler
  request : Request
  deriving DecidableEq

/-- The scene of the request; `none` when it is refused before its scene is read. -/
def Probe.scene (p : Probe) : Option String :=
  match p.handler with
  | .sendCode => p.request.form.toOption.map fun form => orDefault (form.get "scene") "account"
  | .sendCodeWithData =>
    p.request.form.toOption.map fun form => orDefault (form.get "scene") "password"
  | .userCenterSendCode =>
    if p.request.validCSRF then some ((p.request.post.lookup "scene").getD "usercenter") else none
  | _ => none

def Probe.ip (p : Probe) : String := orDefault p.request.clientIP "unknown"

/-- The request asks for a code for `x` without credentials, and the provider accepts it. -/
def Probe.AsksFor (env : Externals) (x : String) (w : World) (p : Probe) : Prop :=
  p.request.sent = .ok () ∧
    match p.handler with
    | .sendCode | .sendCodeWithData => ∀ form, p.request.form = .ok form →
        normalizeAccount env (phoneOf form) = .ok x ∧
          authenticatedSMSRequest w form (phoneOf form) = false
    | .userCenterSendCode => normalizeAccount env (p.request.post.get "phone") = .ok x
    | _ => False

def World.later (w : World) (seconds : ℕ) : World := { w with now := w.now + seconds }

/-- Whether each request of the sequence is answered with success. -/
def replies (cfg : AuthConfig) (env : Externals) : World → List Probe → List Bool
  | _, [] => []
  | w, p :: rest =>
    let (w', reply) := serve cfg env p.handler p.request (w.later p.wait)
    reply.isOk :: replies cfg env w' rest

/-- Each request of the sequence asks for `x`, for a scene that `S` admits. -/
def AllAskFor (cfg : AuthConfig) (env : Externals) (x : String) (S : String → Prop) :
    World → List Probe → Prop
  | _, [] => True
  | w, p :: rest =>
    p.AsksFor env x (w.later p.wait) ∧ (∀ scene, p.scene = some scene → S scene) ∧
      AllAskFor cfg env x S (serve cfg env p.handler p.request (w.later p.wait)).1 rest

/-- What the requests for one address see of the store. -/
structure SendView where
  now : ℕ
  events : List SmsEvent
  account : Option User
  deriving DecidableEq

def World.sendView (x : String) (w : World) : SendView :=
  ⟨w.now, w.db.smsEvents, userByPhoneRow w x⟩

/-- Whether a request without credentials gets a code at all. -/
def mayIssue (cfg : AuthConfig) (account : Option User) (scene : String) : Bool :=
  isAccountMaintenanceSMSScene scene ||
    match account with
    | none => cfg.allowRegister && (!cfg.smsOnlyRegister || !equalFold scene "password")
    | some u => !cfg.smsOnlyRegister || (equalFold scene "password" && !userHasPassword u)

namespace SendView

def recent (v : SendView) (p : SmsEvent → Bool) : ℕ :=
  (v.events.filter fun e => v.now ≤ e.createdAt + rateWindow).countP p

/-- The limits leave no room for a code. -/
def isFull (x ip : String) (v : SendView) : Bool :=
  decide (1 ≤ v.recent fun e => e.phone == x) || decide (10 ≤ v.recent fun e => e.ip == ip)

/-- A request for a scene: the view after it, and whether it succeeds. -/
def ask (cfg : AuthConfig) (x scene ip : String) (v : SendView) : SendView × Bool :=
  if scene = "" then (v, false)
  else if mayIssue cfg v.account scene = false then (v, true)
  else if isLimited cfg x && v.isFull x ip then (v, false)
  else ({ v with events := v.events ++ [⟨x, ip, v.now⟩] }, true)

def serve (cfg : AuthConfig) (x : String) (p : Probe) (v : SendView) : SendView × Bool :=
  match p.scene with
  | none => (v, false)
  | some scene => v.ask cfg x scene p.ip

/-- `replies`, as far as the view shows. -/
def replies (cfg : AuthConfig) (x : String) : SendView → List Probe → List Bool
  | _, [] => []
  | v, p :: rest =>
    let (v', reply) := SendView.serve cfg x p { v with now := v.now + p.wait }
    reply :: replies cfg x v' rest

end SendView

/-- Codes for this scene are issued for the account and for nobody alike. -/
def Discreet (cfg : AuthConfig) (u : User) (scene : String) : Prop :=
  isAccountMaintenanceSMSScene scene = true ∨
    (cfg.smsOnlyRegister = false ∧ cfg.allowRegister = true) ∨
    (cfg.smsOnlyRegister = true ∧
      if equalFold scene "password" then userHasPassword u = true else cfg.allowRegister = false)

section
variable {cfg : AuthConfig} {env : Externals} {w w' : World} {x : String} {u : User}

theorem discreet_iff (cfg : AuthConfig) (u : User) (scene : String) :
    Discreet cfg u scene ↔ mayIssue cfg (some u) scene = mayIssue cfg none scene := by
  unfold Discreet mayIssue
  dsimp only
  generalize isAccountMaintenanceSMSScene scene = maintenance
  generalize cfg.smsOnlyRegister = smsOnly
  generalize cfg.allowRegister = allow
  generalize equalFold scene "password" = password
  generalize userHasPassword u = has
  revert maintenance smsOnly allow password has
  decide

theorem insertSMS_view (w : World) (phone scene code ip : String) :
    (insertSMS env w phone scene code ip).1.sendView x = w.sendView x := by
  rcases h : insertSMS env w phone scene code ip with ⟨w', result⟩
  rcases insertSMS_cases h with ⟨_, -, rfl⟩ | ⟨y, rows, -, -, -, rfl⟩
  · rfl
  · rfl

theorem mirrorSMSCode_view (w : World) (phone code ip : String) (scenes : List String) :
    (mirrorSMSCode env w phone code ip scenes).sendView x = w.sendView x := by
  unfold mirrorSMSCode
  induction uniqueScenes scenes generalizing w with
  | nil => rfl
  | cons scene rest ih =>
    rw [List.foldl_cons, ih]
    exact insertSMS_view w phone scene code ip

theorem smsIssuanceAllowed_view (hx : normalizeAccount env x = .ok x) (w : World)
    (scene : String) :
    smsIssuanceAllowed cfg env w x scene false = .ok (mayIssue cfg (userByPhoneRow w x) scene) := by
  have huser : userByPhone env w x = .ok (userByPhoneRow w x) := by
    unfold userByPhone
    rw [hx]
  unfold smsIssuanceAllowed mayIssue
  rw [huser]
  cases isAccountMaintenanceSMSScene scene with
  | true => rfl
  | false =>
    cases userByPhoneRow w x with
    | none => cases cfg.allowRegister <;> simp
    | some u => cases cfg.smsOnlyRegister <;> simp

theorem checkSMSRate_view (hx : normalizeAccount env x = .ok x) (w : World) (ip : String) :
    (checkSMSRate env w x ip).isOk = !(w.sendView x).isFull x ip := by
  rw [checkSMSRate_of_counts hx]
  unfold SendView.isFull
  show _ = !(decide (1 ≤ recentEvents w.db w.now fun e => e.phone == x) ||
    decide (10 ≤ recentEvents w.db w.now fun e => e.ip == ip))
  split
  · next hphone =>
    simp [hphone, Except.isOk, Except.toBool]
  next hphone =>
  split
  · next hip => simp [hip, Except.isOk, Except.toBool]
  · next hip => simp [hphone, hip, Except.isOk, Except.toBool]

theorem issueSMS_view {scene : String} (hx : normalizeAccount env x = .ok x)
    (hscene : scene ≠ "") (w : World) (code ip : String) :
    ∃ w', issueSMS env w x scene code ip = (w', .ok ()) ∧
      w'.sendView x = { w.sendView x with events := w.db.smsEvents ++ [⟨x, ip, w.now⟩] } := by
  obtain ⟨rows, hinsert⟩ := insertSMS_stores w code ip hx hscene
  unfold issueSMS
  rw [hinsert]
  exact ⟨_, rfl, rfl⟩

/-- `issueSMSForScene` does to the view what `ask` does. -/
theorem issueSMSForScene_view (cfg : AuthConfig) (scene : String) {request : Request}
    {phone : String} (hphone : normalizeAccount env phone = .ok x) (hsent : request.sent = .ok ())
    (w : World) :
    ((issueSMSForScene cfg env request w phone scene false).1.sendView x,
      (issueSMSForScene cfg env request w phone scene false).2.isOk) =
        (w.sendView x).ask cfg x scene (orDefault request.clientIP "unknown") := by
  have hx := normalizeAccount_idem hphone
  generalize hip : orDefault request.clientIP "unknown" = ip
  have hip' : (if request.clientIP = "" then "unknown" else request.clientIP) = ip := hip
  have hrate := checkSMSRate_view hx w ip
  unfold issueSMSForScene SendView.ask
  rw [hphone]
  dsimp only
  rw [hip', hsent]
  by_cases hscene : scene = ""
  · rw [if_pos hscene, if_pos hscene]
    rfl
  rw [if_neg hscene, if_neg hscene, smsIssuanceAllowed_view hx]
  show _ = if mayIssue cfg (userByPhoneRow w x) scene = false then _ else _
  cases mayIssue cfg (userByPhoneRow w x) scene with
  | false => rfl
  | true =>
    have hissued : ∀ code, ∃ w', issueSMS env w x scene code ip = (w', .ok ()) ∧
        w'.sendView x = { w.sendView x with events := w.db.smsEvents ++ [⟨x, ip, w.now⟩] } :=
      fun code => issueSMS_view hx hscene w code ip
    unfold isLimited
    dsimp only
    cases cfg.realSMS || hasAt x with
    | false =>
      obtain ⟨w', hissue, hview⟩ := hissued (lastSix x)
      simp only [Bool.false_eq_true, if_false, if_true, Bool.false_and, hissue, Bool.true_eq_false]
      rw [hview]
      rfl
    | true =>
      obtain ⟨w', hissue, hview⟩ := hissued
        (if request.digits = "" then lastSix x else request.digits)
      simp only [if_true, Bool.true_and, Bool.true_eq_false, if_false]
      cases hfull : (w.sendView x).isFull x ip with
      | true =>
        rw [hfull] at hrate
        cases hcheck : checkSMSRate env w x ip with
        | ok u => rw [hcheck] at hrate; cases hrate
        | error e => rfl
      | false =>
        rw [hfull] at hrate
        cases hcheck : checkSMSRate env w x ip with
        | error e => rw [hcheck] at hrate; cases hrate
        | ok u =>
          simp only [hissue]
          rw [hview]
          rfl

theorem issueAndMirror_view {request : Request} {phone scene : String} {scenes : List String}
    (hphone : normalizeAccount env phone = .ok x) (hsent : request.sent = .ok ()) (w : World) :
    (((issueAndMirror cfg env request w phone scene false scenes).run env).1.sendView x,
      ((issueAndMirror cfg env request w phone scene false scenes).run env).2.isOk) =
        (w.sendView x).ask cfg x scene (orDefault request.clientIP "unknown") := by
  rw [← issueSMSForScene_view cfg scene hphone hsent w]
  unfold issueAndMirror
  rcases issueSMSForScene cfg env request w phone scene false with ⟨w', e | ⟨_ | code⟩⟩
  · rfl
  · rfl
  · show ((mirrorSMSCode env w' phone code request.clientIP scenes).sendView x, true) = _
    rw [mirrorSMSCode_view]
    rfl

theorem form_view (cfg : AuthConfig) (scene : String) (scenes : List String) {request : Request}
    {form : Form} (hsent : request.sent = .ok ())
    (hphone : normalizeAccount env (phoneOf form) = .ok x)
    (hauth : authenticatedSMSRequest w form (phoneOf form) = false) :
    phoneForSMS w form = .ok (phoneOf form) ∧
      (((issueAndMirror cfg env request w (phoneOf form) scene
          (authenticatedSMSRequest w form (phoneOf form)) scenes).run env).1.sendView x,
        ((issueAndMirror cfg env request w (phoneOf form) scene
          (authenticatedSMSRequest w form (phoneOf form)) scenes).run env).2.isOk) =
        (w.sendView x).ask cfg x scene (orDefault request.clientIP "unknown") := by
  have hne : phoneOf form ≠ "" := by
    intro hempty
    rw [hempty] at hphone
    exact normalizeAccount_empty hphone
  refine ⟨if_pos hne, ?_⟩
  rw [hauth]
  exact issueAndMirror_view hphone hsent w

/-- A request depends on the view only, and changes it as `SendView.serve` does. -/
theorem serve_view (cfg : AuthConfig) {p : Probe} (h : p.AsksFor env x w) :
    ((serve cfg env p.handler p.request w).1.sendView x,
      (serve cfg env p.handler p.request w).2.isOk) = (w.sendView x).serve cfg x p := by
  obtain ⟨wait, handler, request⟩ := p
  obtain ⟨hsent, haddress⟩ := h
  unfold PapeSdk.serve SendView.serve Probe.scene Probe.ip
  cases handler with
  | sendCode =>
    rw [Handler.plan, PapeSdk.sendCode]
    cases hform : request.form with
    | error e => rfl
    | ok form =>
      obtain ⟨hphone, hauth⟩ := haddress form hform
      obtain ⟨hfor, hview⟩ := form_view cfg (orDefault (form.get "scene") "account")
        [orDefault (form.get "scene") "account", "account", "login", "web_login", "register",
          "bind", "change_phone", "usercenter"] hsent hphone hauth
      dsimp only
      rw [hfor]
      exact hview
  | sendCodeWithData =>
    rw [Handler.plan, PapeSdk.sendCodeWithData]
    cases hform : request.form with
    | error e => rfl
    | ok form =>
      obtain ⟨hphone, hauth⟩ := haddress form hform
      obtain ⟨hfor, hview⟩ := form_view cfg (orDefault (form.get "scene") "password")
        [orDefault (form.get "scene") "password", "account", "login", "register", "password",
          "bind", "change_phone", "usercenter"] hsent hphone hauth
      dsimp only
      rw [hfor]
      exact hview
  | userCenterSendCode =>
    rw [Handler.plan, PapeSdk.userCenterSendCode]
    have hphone : normalizeAccount env (request.post.get "phone") = .ok x := haddress
    cases hcsrf : request.validCSRF with
    | false => rfl
    | true =>
      have hview := issueSMSForScene_view cfg ((request.post.lookup "scene").getD "usercenter")
        (normalizeAccount_idem hphone) hsent w
      simp only [Bool.not_true, Bool.false_eq_true, if_false, if_true, hphone]
      rw [← hview]
      rcases issueSMSForScene cfg env request w x
        ((request.post.lookup "scene").getD "usercenter") false with ⟨w', e | code⟩
      · rfl
      · rfl
  | _ => exact absurd haddress id

theorem replies_view {S : String → Prop} {probes : List Probe}
    (h : AllAskFor cfg env x S w probes) :
    replies cfg env w probes = (w.sendView x).replies cfg x probes := by
  induction probes generalizing w with
  | nil => rfl
  | cons p rest ih =>
    obtain ⟨hasks, -, hrest⟩ := h
    have hview := serve_view cfg hasks
    have hlater : (w.later p.wait).sendView x =
        { w.sendView x with now := (w.sendView x).now + p.wait } := rfl
    unfold replies SendView.replies
    rw [← hlater, ← hview]
    dsimp only
    rw [ih hrest]

theorem AllAskFor.scenes {S : String → Prop} {probes : List Probe}
    (h : AllAskFor cfg env x S w probes) :
    ∀ p ∈ probes, ∀ scene, p.scene = some scene → S scene := by
  induction probes generalizing w with
  | nil => exact fun p hp => (by cases hp)
  | cons p rest ih =>
    obtain ⟨-, hscene, hrest⟩ := h
    intro q hq
    rcases List.mem_cons.mp hq with rfl | hq
    · exact hscene
    · exact ih hrest q hq

namespace SendView

/-- Without a limit only the form of a request decides on its reply. -/
theorem replies_of_unlimited (hlimited : isLimited cfg x = false) (probes : List Probe)
    (v v' : SendView) : v.replies cfg x probes = v'.replies cfg x probes := by
  have hask : ∀ (scene ip : String) (v : SendView), (v.ask cfg x scene ip).2 = !(scene == "") := by
    intro scene ip v
    unfold ask
    by_cases hscene : scene = ""
    · rw [if_pos hscene, hscene]
      rfl
    · rw [if_neg hscene, hlimited]
      cases mayIssue cfg v.account scene <;> simp [hscene]
  have hserve : ∀ (p : Probe) (v v' : SendView), (v.serve cfg x p).2 = (v'.serve cfg x p).2 := by
    intro p v v'
    unfold serve
    cases p.scene with
    | none => rfl
    | some scene => rw [hask, hask]
  induction probes generalizing v v' with
  | nil => rfl
  | cons p rest ih =>
    unfold replies
    dsimp only
    rw [hserve p _ { v' with now := v'.now + p.wait }, ih]

/-- A discreet request takes the same course whether or not there is an account. -/
theorem serve_twin (cfg : AuthConfig) (x : String) {v : SendView} {p : Probe}
    (hv : v.account = some u)
    (h : ∀ scene, p.scene = some scene → scene ≠ "" → Discreet cfg u scene) :
    (serve cfg x p { v with account := none }) =
        ({ (v.serve cfg x p).1 with account := none }, (v.serve cfg x p).2) ∧
      (v.serve cfg x p).1.account = some u := by
  unfold serve
  cases hp : p.scene with
  | none => exact ⟨rfl, hv⟩
  | some scene =>
    unfold ask
    dsimp only
    by_cases hscene : scene = ""
    · rw [if_pos hscene, if_pos hscene]
      exact ⟨rfl, hv⟩
    rw [if_neg hscene, if_neg hscene, hv, (discreet_iff cfg u scene).mp (h scene hp hscene)]
    have hfull : isFull x p.ip { v with account := none } = isFull x p.ip v := rfl
    rw [hfull]
    split
    · exact ⟨rfl, hv⟩
    split
    · exact ⟨rfl, hv⟩
    · exact ⟨rfl, rfl⟩

theorem replies_of_discreet {probes : List Probe} (v : SendView) (hv : v.account = some u)
    (h : ∀ p ∈ probes, ∀ scene, p.scene = some scene → scene ≠ "" → Discreet cfg u scene) :
    v.replies cfg x probes = replies cfg x { v with account := none } probes := by
  induction probes generalizing v with
  | nil => rfl
  | cons p rest ih =>
    have hlater : SendView.account { v with now := v.now + p.wait } = some u := hv
    obtain ⟨htwin, haccount⟩ := serve_twin cfg x hlater (h p List.mem_cons_self)
    unfold replies
    dsimp only at htwin ⊢
    rw [htwin]
    dsimp only
    rw [ih _ haccount fun q hq => h q (List.mem_cons_of_mem _ hq)]

end SendView

/-- Two requests at one time for a scene, after a pause that clears the limits. -/
def twoProbes (x scene : String) (wait : ℕ) : List Probe :=
  let request : Request := { post := [("phone", x), ("scene", scene)] }
  [⟨wait, .userCenterSendCode, request⟩, ⟨0, .userCenterSendCode, request⟩]

theorem twoProbes_ask (cfg : AuthConfig) (hx : normalizeAccount env x = .ok x)
    {S : String → Prop} {scene : String}
    (hS : S scene) (w : World) (wait : ℕ) : AllAskFor cfg env x S w (twoProbes x scene wait) := by
  have hscene : ∀ s, some (([("phone", x), ("scene", scene)].lookup "scene").getD "usercenter") =
      some s → S s := by
    intro s hs
    cases hs
    exact hS
  exact ⟨⟨rfl, hx⟩, hscene, ⟨rfl, hx⟩, hscene, trivial⟩

theorem SendView.isFull_of_old {v : SendView} (h : ∀ e ∈ v.events, e.createdAt + 60 < v.now)
    (ip : String) : v.isFull x ip = false := by
  have hnone : (v.events.filter fun e => v.now ≤ e.createdAt + rateWindow) = [] := by
    apply List.filter_eq_nil_iff.mpr
    intro e he
    have hold := h e he
    rw [decide_eq_true_eq]
    unfold rateWindow
    omega
  unfold isFull recent
  rw [hnone]
  rfl

theorem serve_twoProbes (n : ℕ) (scene : String) (v : SendView) :
    v.serve cfg x ⟨n, .userCenterSendCode, { post := [("phone", x), ("scene", scene)] }⟩ =
      v.ask cfg x scene "unknown" := by
  unfold SendView.serve
  have hscene : Probe.scene ⟨n, .userCenterSendCode,
      { post := [("phone", x), ("scene", scene)] }⟩ = some scene := rfl
  rw [hscene]
  rfl

theorem SendView.isFull_of_recent {v : SendView} {e : SmsEvent} (he : e ∈ v.events)
    (hphone : e.phone = x) (htime : v.now ≤ e.createdAt) (ip : String) : v.isFull x ip = true := by
  have hmem : e ∈ v.events.filter fun e => v.now ≤ e.createdAt + rateWindow := by
    rw [List.mem_filter, decide_eq_true_eq]
    exact ⟨he, by omega⟩
  have hcount : 1 ≤ v.recent fun e => e.phone == x :=
    List.countP_pos_iff.mpr ⟨e, hmem, by simpa using hphone⟩
  unfold isFull
  rw [decide_eq_true hcount]
  rfl

/-- The second of the two is refused exactly when the first got a code. -/
theorem SendView.replies_twoProbes {v : SendView} {scene : String} {wait : ℕ}
    (hlimited : isLimited cfg x = true) (hscene : scene ≠ "")
    (hold : ∀ e ∈ v.events, e.createdAt + 60 < v.now + wait) :
    v.replies cfg x (twoProbes x scene wait) = [true, !mayIssue cfg v.account scene] := by
  have hreplies : v.replies cfg x (twoProbes x scene wait) =
      [(ask cfg x scene "unknown" { v with now := v.now + wait }).2,
        (ask cfg x scene "unknown"
          (ask cfg x scene "unknown" { v with now := v.now + wait }).1).2] := by
    unfold twoProbes replies
    dsimp only
    rw [serve_twoProbes]
    unfold replies
    dsimp only
    rw [serve_twoProbes]
    rfl
  rw [hreplies]
  have hask : ∀ v : SendView, v.ask cfg x scene "unknown" =
      if mayIssue cfg v.account scene = false then (v, true)
      else if v.isFull x "unknown" then (v, false)
      else ({ v with events := v.events ++ [⟨x, "unknown", v.now⟩] }, true) := by
    intro v
    unfold ask
    rw [if_neg hscene, hlimited, Bool.true_and]
  cases hissue : mayIssue cfg v.account scene with
  | false =>
    have hsilent : ask cfg x scene "unknown" { v with now := v.now + wait } =
        ({ v with now := v.now + wait }, true) := by rw [hask, if_pos hissue]
    rw [hsilent]
    dsimp only
    rw [hsilent]
    rfl
  | true =>
    have hissue' : ¬ mayIssue cfg v.account scene = false := by
      rw [hissue]
      exact Bool.true_eq_false_eq_False
    have hfirst : ask cfg x scene "unknown" { v with now := v.now + wait } =
        ({ v with
          now := v.now + wait
          events := v.events ++ [⟨x, "unknown", v.now + wait⟩] }, true) := by
      rw [hask, if_neg hissue', isFull_of_old hold]
      rfl
    have hsecond := isFull_of_recent (x := x) (e := ⟨x, "unknown", v.now + wait⟩)
      (v := { v with
        now := v.now + wait
        events := v.events ++ [⟨x, "unknown", v.now + wait⟩] })
      (List.mem_append_right _ List.mem_cons_self) rfl (Nat.le_refl _) "unknown"
    rw [hfirst]
    dsimp only
    rw [hask, if_neg hissue', hsecond]
    rfl

theorem exists_old (events : List SmsEvent) (now : ℕ) :
    ∃ wait, ∀ e ∈ events, e.createdAt + 60 < now + wait := by
  induction events with
  | nil => exact ⟨0, fun e he => (by cases he)⟩
  | cons e rest ih =>
    obtain ⟨wait, hrest⟩ := ih
    refine ⟨wait + e.createdAt + 61, fun e' he' => ?_⟩
    rcases List.mem_cons.mp he' with rfl | hmem
    · omega
    · have hlt := hrest e' hmem
      omega

/-- Two stores with one clock and the same events; `x` has the account `u` in the first and none
in the second. -/
structure ApartIn (x : String) (u : User) (w w' : World) : Prop where
  now : w'.now = w.now
  events : w'.db.smsEvents = w.db.smsEvents
  account : userByPhoneRow w x = some u
  nobody : userByPhoneRow w' x = none

/-- The replies to all sequences of requests for scenes of `S` are the same from both stores
exactly when the address is not limited or every scene of `S` is discreet. -/
theorem codes_reveal_nothing_iff (hx : normalizeAccount env x = .ok x) (h : ApartIn x u w w')
    (S : String → Prop) :
    (∀ probes, AllAskFor cfg env x S w probes → AllAskFor cfg env x S w' probes →
        replies cfg env w probes = replies cfg env w' probes) ↔
      (isLimited cfg x = true → ∀ scene, S scene → scene ≠ "" → Discreet cfg u scene) := by
  have htwin : w'.sendView x = { w.sendView x with account := none } := by
    unfold World.sendView
    rw [h.now, h.events, h.nobody]
  constructor
  · intro hsame hlimited scene hS hscene
    obtain ⟨wait, hold⟩ := exists_old w.db.smsEvents w.now
    have hasks := twoProbes_ask cfg hx hS w wait
    have hasks' := twoProbes_ask cfg hx hS w' wait
    have hreplies := hsame _ hasks hasks'
    rw [replies_view hasks, replies_view hasks', htwin,
      SendView.replies_twoProbes hlimited hscene hold,
      SendView.replies_twoProbes hlimited hscene hold] at hreplies
    apply (discreet_iff cfg u scene).mpr
    have haccount : (w.sendView x).account = some u := h.account
    rw [haccount] at hreplies
    simpa using hreplies
  · intro hdiscreet probes hasks hasks'
    rw [replies_view hasks, replies_view hasks', htwin]
    cases hlimited : isLimited cfg x with
    | false => exact SendView.replies_of_unlimited hlimited probes _ _
    | true =>
      refine SendView.replies_of_discreet _ h.account fun p hp scene hscene hne => ?_
      exact hdiscreet hlimited scene (hasks.scenes p hp scene hscene) hne

end

/-- Real messages, and no new accounts. -/
def closedMessages : AuthConfig := ⟨false, true, false, false⟩

def emptyStore : World := World.fresh .unary 0

/-- The same store with an account for this phone number. -/
def oneAccount : World := (createAccount .unary emptyStore "13800000000" "" "").1

theorem oneAccount_apart : ∃ u, ApartIn "13800000000" u oneAccount emptyStore := by
  have hsome : (userByPhoneRow oneAccount "13800000000").isSome = true := by decide +kernel
  obtain ⟨u, hu⟩ := Option.isSome_iff_exists.mp hsome
  exact ⟨u, by decide +kernel, by decide +kernel, hu, by decide +kernel⟩

/-- With registration closed two requests in one minute tell the two stores apart. -/
theorem closed_registration_reveals_account :
    ∃ u, ApartIn "13800000000" u oneAccount emptyStore ∧
      ¬ ∀ probes, AllAskFor closedMessages .unary "13800000000" (fun _ => True) oneAccount probes →
        AllAskFor closedMessages .unary "13800000000" (fun _ => True) emptyStore probes →
        replies closedMessages .unary oneAccount probes =
          replies closedMessages .unary emptyStore probes := by
  obtain ⟨u, hu⟩ := oneAccount_apart
  refine ⟨u, hu, fun hsame => ?_⟩
  have hx : normalizeAccount .unary "13800000000" = .ok "13800000000" := rfl
  have hreplies := hsame (twoProbes "13800000000" "usercenter" 61)
    (twoProbes_ask _ hx trivial _ _) (twoProbes_ask _ hx trivial _ _)
  have hfirst : replies closedMessages .unary oneAccount
      (twoProbes "13800000000" "usercenter" 61) = [true, false] := by decide +kernel
  have hsecond : replies closedMessages .unary emptyStore
      (twoProbes "13800000000" "usercenter" 61) = [true, true] := by decide +kernel
  rw [hfirst, hsecond] at hreplies
  cases hreplies

/-- Real messages, and everybody may register. -/
def openMessages : AuthConfig := ⟨false, true, true, false⟩

theorem open_registration_is_discreet :
    replies openMessages .unary oneAccount (twoProbes "13800000000" "usercenter" 61) =
      replies openMessages .unary emptyStore (twoProbes "13800000000" "usercenter" 61) := by
  obtain ⟨u, hu⟩ := oneAccount_apart
  have hx : normalizeAccount .unary "13800000000" = .ok "13800000000" := rfl
  refine (codes_reveal_nothing_iff hx hu fun _ => True).mpr ?_ _
    (twoProbes_ask _ hx trivial _ _) (twoProbes_ask _ hx trivial _ _)
  intro _ scene _ _
  exact Or.inr (Or.inl ⟨rfl, rfl⟩)

end PapeSdk
