import PapeSdk.Requests

/-!
Concurrent requests for a code. `issueSMSForScene` counts the codes of the last
minute for the address and then for the IP, hands the code to the mail or message
provider, and stores it and its event afterwards, in separate steps; the provider
takes any time, and any operation of the store may run in between. A request that
nothing interrupts does what `issueSMSForScene` does.
-/

namespace PapeSdk

open Identifiers EventRuns

/-- The seconds that `CheckSMSRate` looks back. -/
def rateWindow : ℕ := 60

inductive SendPhase
  | asked
  /-- A code may be issued; the address is to be counted. -/
  | counting (phone : String)
  /-- `CheckSMSRate` has counted the address at `checkedAt`. -/
  | counted (phone : String) (checkedAt : ℕ)
  /-- The provider is about to get the code. -/
  | sending (phone : String)
  | storing (phone code : String)
  | recording (phone code : String)
  | answered (reply : Except String (Option String))
  deriving DecidableEq

structure SendRequest where
  phone : String
  scene : String
  clientIP : String
  authenticated : Bool
  digits : String
  deriving DecidableEq

/-- A request and where it stands. -/
structure PendingSend where
  request : SendRequest
  phase : SendPhase
  deriving DecidableEq

def SendRequest.ip (r : SendRequest) : String := orDefault r.clientIP "unknown"

inductive SendEffect
  | silent
  /-- The provider has accepted a code for this address, asked for by this IP. -/
  | delivered (phone ip : String)
  deriving DecidableEq

/-- The events for an address or IP that `CheckSMSRate` counts at the time `now`. -/
def recentEvents (db : Db) (now : ℕ) (p : SmsEvent → Bool) : ℕ :=
  (db.smsEvents.filter fun e => now ≤ e.createdAt + rateWindow).countP p

/-- Real messages and all mails are limited. -/
def isLimited (cfg : AuthConfig) (phone : String) : Bool := cfg.realSMS || hasAt phone

/-- The next step of a request, the provider apart. -/
def SendRequest.handle (cfg : AuthConfig) (env : Externals) (w : World) (r : SendRequest) :
    SendPhase → Option (World × SendPhase)
  | .asked =>
    match normalizeAccount env r.phone with
    | .error e => some (w, .answered (.error e))
    | .ok phone =>
      if r.scene = "" then some (w, .answered (.error "缺少验证码用途"))
      else
        match smsIssuanceAllowed cfg env w phone r.scene r.authenticated with
        | .error e => some (w, .answered (.error e))
        | .ok false => some (w, .answered (.ok none))
        | .ok true =>
          some (w, if isLimited cfg phone then .counting phone else .storing phone (lastSix phone))
  | .counting phone =>
    if 1 ≤ recentEvents w.db w.now (fun e => e.phone == phone) then
      some (w, .answered (.error "验证码发送过于频繁，请稍后再试"))
    else some (w, .counted phone w.now)
  | .counted phone checkedAt =>
    if 10 ≤ recentEvents w.db checkedAt (fun e => e.ip == r.ip) then
      some (w, .answered (.error "验证码发送次数过多，请稍后再试"))
    else some (w, .sending phone)
  | .sending _ => none
  | .storing phone code =>
    match insertSMS env w phone r.scene code r.ip with
    | (w, .error e) => some (w, .answered (.error e))
    | (w, .ok ()) => some (w, .recording phone code)
  | .recording phone code =>
    some ({ w with db := { w.db with smsEvents := w.db.smsEvents ++ [⟨phone, r.ip, w.now⟩] } },
      .answered (.ok (some code)))
  | .answered _ => none

/-- The code that the provider gets; one without digits falls back on the address. -/
def SendRequest.code (r : SendRequest) (phone : String) : String :=
  if r.digits = "" then lastSix phone else r.digits

/-- The provider answers. -/
def SendRequest.deliver (r : SendRequest) (result : Except String Unit) :
    SendPhase → Option (SendPhase × SendEffect)
  | .sending phone =>
    match result with
    | .error e => some (.answered (.error e), .silent)
    | .ok () => some (.storing phone (r.code phone), .delivered phone r.ip)
  | _ => none

structure SendState where
  world : World
  requests : List PendingSend

inductive SendLabel
  | ask (phone scene clientIP : String) (authenticated : Bool) (digits : String)
  | handle (i : ℕ)
  | deliver (i : ℕ) (result : Except String Unit)
  | store (op : Op)
  deriving DecidableEq

namespace SendState

def start (w : World) : SendState := ⟨w, []⟩

def step (cfg : AuthConfig) (env : Externals) (s : SendState) :
    SendLabel → Option (SendState × SendEffect)
  | .ask phone scene clientIP authenticated digits =>
    let r : SendRequest := ⟨phone, scene, clientIP, authenticated, digits⟩
    some ({ s with requests := s.requests ++ [⟨r, .asked⟩] }, .silent)
  | .handle i =>
    match s.requests[i]? with
    | none => none
    | some ⟨r, phase⟩ =>
      match r.handle cfg env s.world phase with
      | none => none
      | some (w, phase') => some (⟨w, s.requests.set i ⟨r, phase'⟩⟩, .silent)
  | .deliver i result =>
    match s.requests[i]? with
    | none => none
    | some ⟨r, phase⟩ =>
      match r.deliver result phase with
      | none => none
      | some (phase', effect) =>
        some ({ s with requests := s.requests.set i ⟨r, phase'⟩ }, effect)
  | .store op => some ({ s with world := (exec env s.world op).1 }, .silent)

end SendState

structure SendEvent where
  time : ℕ
  label : SendLabel
  effect : SendEffect
  deriving DecidableEq

def SendStep (cfg : AuthConfig) (env : Externals) (s : SendState) (e : SendEvent)
    (s' : SendState) : Prop :=
  e.time = s.world.now ∧ s.step cfg env e.label = some (s', e.effect)

abbrev SendRun (cfg : AuthConfig) (env : Externals) :
    SendState → List SendEvent → SendState → Prop :=
  Run (SendStep cfg env)

/-- The history and the final state of a list of steps, as far as they can be taken. -/
def SendState.runAll (cfg : AuthConfig) (env : Externals) (s : SendState) :
    List SendLabel → List SendEvent × SendState
  | [] => ([], s)
  | l :: rest =>
    match s.step cfg env l with
    | none => ([], s)
    | some (s', effect) =>
      let (log, s'') := s'.runAll cfg env rest
      (⟨s.world.now, l, effect⟩ :: log, s'')

theorem SendState.runAll_run (cfg : AuthConfig) (env : Externals) (s : SendState)
    (labels : List SendLabel) :
    SendRun cfg env s (s.runAll cfg env labels).1 (s.runAll cfg env labels).2 := by
  induction labels generalizing s with
  | nil => exact Run.refl s
  | cons l rest ih =>
    rw [runAll]
    split
    · exact Run.refl s
    · next s' effect hstep => exact Run.append (Run.single ⟨rfl, hstep⟩) (ih s')

section
variable {cfg : AuthConfig} {env : Externals} {w w' : World}

theorem checkSMSRate_of_counts {phone ip x : String} (hx : normalizeAccount env phone = .ok x) :
    checkSMSRate env w phone ip =
      if 1 ≤ recentEvents w.db w.now (fun e => e.phone == x) then
        .error "验证码发送过于频繁，请稍后再试"
      else if 10 ≤ recentEvents w.db w.now (fun e => e.ip == ip) then
        .error "验证码发送次数过多，请稍后再试"
      else .ok () := by
  unfold checkSMSRate
  rw [hx]
  rfl

/-- Left alone at this phase, the request comes to this world and this answer. -/
def SendRequest.Ends (cfg : AuthConfig) (env : Externals) (r : SendRequest) (w : World)
    (phase : SendPhase) (out : World × Except String (Option String)) : Prop :=
  ∃ log, SendRun cfg env ⟨w, [⟨r, phase⟩]⟩ log ⟨out.1, [⟨r, .answered out.2⟩]⟩

namespace SendRequest

variable {r : SendRequest} {phase phase' : SendPhase} {out : World × Except String (Option String)}
  {result : Except String Unit}

theorem step_alone (h : r.handle cfg env w phase = some (w', phase')) :
    ∃ log, SendRun cfg env ⟨w, [⟨r, phase⟩]⟩ log ⟨w', [⟨r, phase'⟩]⟩ := by
  refine ⟨[⟨w.now, .handle 0, .silent⟩], Run.single ⟨rfl, ?_⟩⟩
  simp [SendState.step, h]

theorem deliver_alone {effect : SendEffect}
    (h : r.deliver result phase = some (phase', effect)) :
    ∃ log, SendRun cfg env ⟨w, [⟨r, phase⟩]⟩ log ⟨w, [⟨r, phase'⟩]⟩ := by
  refine ⟨[⟨w.now, .deliver 0 result, effect⟩], Run.single ⟨rfl, ?_⟩⟩
  simp [SendState.step, h]

theorem Ends.of_handle (hstep : r.handle cfg env w phase = some (w', phase'))
    (h : r.Ends cfg env w' phase' out) : r.Ends cfg env w phase out := by
  obtain ⟨log, hfirst⟩ := step_alone hstep
  obtain ⟨log', hrest⟩ := h
  exact ⟨log ++ log', Run.append hfirst hrest⟩

theorem Ends.of_answer {reply : Except String (Option String)}
    (hstep : r.handle cfg env w phase = some (w', .answered reply)) :
    r.Ends cfg env w phase (w', reply) := step_alone hstep

theorem ends_storing {phone code : String}
    (h : issueSMS env w phone r.scene code r.ip = (w', result)) :
    r.Ends cfg env w (.storing phone code) (w', result.map fun _ => some code) := by
  unfold issueSMS at h
  rcases hinsert : insertSMS env w phone r.scene code r.ip with ⟨v, e | ⟨⟩⟩
  · rw [hinsert] at h
    cases h
    exact Ends.of_answer (by simp only [handle, hinsert, Except.map])
  · rw [hinsert] at h
    cases h
    have hfirst : r.handle cfg env w (.storing phone code) = some (v, .recording phone code) := by
      simp only [handle, hinsert]
    exact Ends.of_handle hfirst (Ends.of_answer rfl)

theorem ends_sending {phone : String}
    (h : issueSMS env w phone r.scene (r.code phone) r.ip = (w', result)) :
    r.Ends cfg env w (.sending phone) (w', result.map fun _ => some (r.code phone)) := by
  have hdeliver : r.deliver (.ok ()) (.sending phone) =
      some (.storing phone (r.code phone), .delivered phone r.ip) := rfl
  have hfirst : ∃ log, SendRun cfg env ⟨w, [⟨r, .sending phone⟩]⟩ log
      ⟨w, [⟨r, .storing phone (r.code phone)⟩]⟩ := deliver_alone hdeliver
  have hrest : r.Ends cfg env w (.storing phone (r.code phone)) _ := ends_storing h
  obtain ⟨log, hfirst⟩ := hfirst
  obtain ⟨log', hrest⟩ := hrest
  exact ⟨log ++ log', Run.append hfirst hrest⟩

theorem ends_counting {phone e : String} (hx : normalizeAccount env phone = .ok phone)
    (h : checkSMSRate env w phone r.ip = .error e) :
    r.Ends cfg env w (.counting phone) (w, .error e) := by
  rw [checkSMSRate_of_counts hx] at h
  split at h
  · next hphone =>
    cases h
    exact Ends.of_answer (by simp only [handle, if_pos hphone])
  next hphone =>
  have hcounted : r.handle cfg env w (.counting phone) = some (w, .counted phone w.now) := by
    simp only [handle, if_neg hphone]
  split at h
  · next hip =>
    cases h
    exact Ends.of_handle hcounted (Ends.of_answer (by simp only [handle, if_pos hip]))
  · cases h

theorem ends_counted {phone : String} (hx : normalizeAccount env phone = .ok phone)
    (h : checkSMSRate env w phone r.ip = .ok ()) (hrest : r.Ends cfg env w (.sending phone) out) :
    r.Ends cfg env w (.counting phone) out := by
  rw [checkSMSRate_of_counts hx] at h
  split at h
  · cases h
  next hphone =>
  split at h
  · cases h
  next hip =>
  have hcounted : r.handle cfg env w (.counting phone) = some (w, .counted phone w.now) := by
    simp only [handle, if_neg hphone]
  have hsending : r.handle cfg env w (.counted phone w.now) = some (w, .sending phone) := by
    simp only [handle, if_neg hip]
  exact Ends.of_handle hcounted (Ends.of_handle hsending hrest)

/-- A request that no other step interrupts does what `issueSMSForScene` does. -/
theorem ends_as_issueSMSForScene (request : Request) (w : World) (phone scene : String)
    (authenticated : Bool) :
    Ends cfg env ⟨phone, scene, request.clientIP, authenticated, request.digits⟩ w .asked
      (issueSMSForScene cfg env request w phone scene authenticated) := by
  generalize hr : SendRequest.mk phone scene request.clientIP authenticated request.digits = r
  have hphone : phone = r.phone := by rw [← hr]
  have hscene : scene = r.scene := by rw [← hr]
  have hauth : authenticated = r.authenticated := by rw [← hr]
  have hip : (if request.clientIP = "" then "unknown" else request.clientIP) = r.ip := by
    rw [← hr]
    rfl
  have hcode : ∀ x, (if request.digits = "" then lastSix x else request.digits) = r.code x := by
    intro x
    rw [← hr]
    rfl
  unfold issueSMSForScene
  rw [hphone, hscene, hauth]
  dsimp only
  rw [hip]
  cases hx : normalizeAccount env r.phone with
  | error e => exact Ends.of_answer (by simp only [handle, hx])
  | ok x =>
    dsimp only
    by_cases hempty : r.scene = ""
    · rw [if_pos hempty]
      exact Ends.of_answer (by simp only [handle, hx, if_pos hempty])
    rw [if_neg hempty]
    have hidem := normalizeAccount_idem hx
    rcases hallowed : smsIssuanceAllowed cfg env w x r.scene r.authenticated with e | allowed
    · exact Ends.of_answer (by simp only [handle, hx, if_neg hempty, hallowed])
    cases allowed with
    | false => exact Ends.of_answer (by simp only [handle, hx, if_neg hempty, hallowed])
    | true =>
      have hfirst : r.handle cfg env w .asked =
          some (w, if isLimited cfg x then .counting x else .storing x (lastSix x)) := by
        simp only [handle, hx, if_neg hempty, hallowed]
      apply Ends.of_handle hfirst
      dsimp only
      by_cases hlimited : (cfg.realSMS || hasAt x) = true
      · rw [isLimited, if_pos hlimited, if_pos hlimited, if_pos hlimited, if_pos hlimited, hcode]
        rcases hrate : checkSMSRate env w x r.ip with e | ⟨⟩
        · exact ends_counting hidem hrate
        apply ends_counted hidem hrate
        rcases hsent : request.sent with e | ⟨⟩
        · have hrefused : r.deliver (.error e) (.sending x) =
              some (.answered (.error e), .silent) := rfl
          exact deliver_alone hrefused
        dsimp only
        rcases hissue : issueSMS env w x r.scene (r.code x) r.ip with ⟨v, e | ⟨⟩⟩
        · exact ends_sending hissue
        · exact ends_sending hissue
      · rw [isLimited, if_neg hlimited, if_neg hlimited, if_neg hlimited, if_neg hlimited,
          if_pos rfl]
        dsimp only
        rcases hissue : issueSMS env w x r.scene (lastSix x) r.ip with ⟨v, e | ⟨⟩⟩
        · exact ends_storing hissue
        · exact ends_storing hissue

end SendRequest

end

end PapeSdk
