import PapeSdk.StoreInvariant

/-!
The life of a cancellation as a system of concurrent parties. A request of
`cancellationHandle` reads the status of its account, decides on it, writes and
answers in separate steps; a pass of `finalizeDueCancellations` lists the due
accounts once and then calls every game server for one account after another
before it deletes; an administrator restores an account by a select and an
update; any other operation of the store may come in between. Time passes by
the operation `advance`.
-/

namespace PapeSdk

open EventRuns

def cancellationStatusNormal : ℕ := 1
def cancellationStatusCoolingOff : ℕ := 2
def cancellationStatusFailed : ℕ := 4

def cancellationActionAcceptTerms : ℤ := 1
def cancellationActionConfirmRoles : ℤ := 2
def cancellationActionSetReason : ℤ := 3
def cancellationActionVerify : ℤ := 4
def cancellationActionSubmit : ℤ := 5
def cancellationActionWithdraw : ℤ := 6
def cancellationActionFinish : ℤ := 7
def cancellationActionResetFailure : ℤ := 8

/-- Fifteen days. -/
def coolingOff : ℕ := 15 * 24 * 60 * 60

/-- The writes of the handler to the cancellation columns. -/
inductive CancellationWrite
  | submit (cancelAt : ℕ)
  | withdraw
  | reset
  deriving DecidableEq, Repr

def CancellationWrite.status : CancellationWrite → ℕ
  | .submit _ => cancellationStatusCoolingOff
  | .withdraw | .reset => cancellationStatusNormal

def CancellationWrite.cancelAt : CancellationWrite → ℕ
  | .submit cancelAt => cancelAt
  | .withdraw | .reset => 0

/-- The switch of `cancellationHandle`: the write to make, if any, and the status to answer. -/
def cancellationAction (action : ℤ) (status cancelAt now : ℕ) :
    Except String (Option CancellationWrite × ℕ) :=
  if action = cancellationActionAcceptTerms ∨ action = cancellationActionConfirmRoles ∨
      action = cancellationActionSetReason ∨ action = cancellationActionVerify then
    if status ≠ cancellationStatusNormal then .error "当前账号已在注销流程中"
    else .ok (none, cancellationStatusNormal)
  else if action = cancellationActionSubmit then
    if status ≠ cancellationStatusNormal then .error "当前账号已在注销流程中"
    else .ok (some (.submit (now + coolingOff)), cancellationStatusCoolingOff)
  else if action = cancellationActionWithdraw then
    if status ≠ cancellationStatusCoolingOff then .error "当前账号没有可取消的注销申请"
    else if 0 < cancelAt ∧ cancelAt ≤ now then .error "注销冷静期已结束，账号正在完成注销"
    else .ok (some .withdraw, cancellationStatusNormal)
  else if action = cancellationActionFinish then
    if status ≠ cancellationStatusCoolingOff then .error "请先提交账号注销申请"
    else .ok (none, cancellationStatusCoolingOff)
  else if action = cancellationActionResetFailure then
    if status ≠ cancellationStatusFailed then .error "当前账号不处于注销失败状态"
    else .ok (some .reset, cancellationStatusNormal)
  else .error "未知的注销操作"

/-- What others can see of a step. -/
inductive CancellationEffect
  | silent
  /-- A submit request has computed its deadline. -/
  | computed (userID cancelAt : ℕ)
  /-- A write of the handler has changed the row of a live account. -/
  | wrote (userID : ℕ) (write : CancellationWrite)
  | restored (userID : ℕ)
  | answered (userID : ℕ) (action : ℤ) (reply : Except String ℕ)
  /-- A game server has been asked to unbind the roles of an account. -/
  | called (openID : String) (server : UInt32)
  | deleted (userID now : ℕ)
  deriving DecidableEq

/-- A write to the cancellation columns of an account. -/
def CancellationEffect.writesTo (userID : ℕ) : CancellationEffect → Prop
  | .wrote id _ | .restored id => id = userID
  | _ => False

inductive HandlerPhase
  | asked
  | loaded (status cancelAt : ℕ)
  | writing (write : CancellationWrite) (status : ℕ)
  | answering (reply : Except String ℕ)
  | answered
  deriving DecidableEq

structure CancellationRequest where
  userID : ℕ
  action : ℤ
  phase : HandlerPhase
  deriving DecidableEq

/-- The next step of a request of `cancellationHandle`. -/
def CancellationRequest.handle (w : World) (r : CancellationRequest) :
    Option (World × HandlerPhase × CancellationEffect) :=
  match r.phase with
  | .asked =>
    match cancellation w r.userID with
    | .error e => some (w, .answering (.error e), .silent)
    | .ok (status, cancelAt) => some (w, .loaded status cancelAt, .silent)
  | .loaded status cancelAt =>
    match cancellationAction r.action status cancelAt w.now with
    | .error e => some (w, .answering (.error e), .silent)
    | .ok (none, status) => some (w, .answering (.ok status), .silent)
    | .ok (some (.submit cancelAt), status) =>
      some (w, .writing (.submit cancelAt) status, .computed r.userID cancelAt)
    | .ok (some write, status) => some (w, .writing write status, .silent)
  | .writing write status =>
    match setCancellation w r.userID write.status write.cancelAt with
    | (w', .error e) => some (w', .answering (.error e), .silent)
    | (w', .ok ()) =>
      some (w', .answering (.ok status),
        if w.db.users.affected (UserRow.isLive r.userID) = 0 then .silent
        else .wrote r.userID write)
  | .answering reply => some (w, .answered, .answered r.userID r.action reply)
  | .answered => none

inductive PassStage
  | starting
  | idle
  | calling (item : DueCancellation) (waiting : List UInt32) (failed : Bool)
  | unbound (item : DueCancellation)
  deriving DecidableEq

structure FinalizerPass where
  now : ℕ
  todo : List DueCancellation
  stage : PassStage
  deriving DecidableEq

/-- The next step of a pass of `finalizeDueCancellations`, calls to the servers apart.
`UnbindRoles` asks all servers at once and fails when there is none. -/
def FinalizerPass.finalize (servers : List UInt32) (w : World) (p : FinalizerPass) :
    Option (World × FinalizerPass × CancellationEffect) :=
  match p.stage with
  | .starting =>
    some (w, { p with todo := dueCancellations w p.now 100, stage := .idle }, .silent)
  | .idle =>
    match p.todo with
    | [] => none
    | item :: rest =>
      if servers = [] then some (w, { p with todo := rest }, .silent)
      else some (w, { p with todo := rest, stage := .calling item servers false }, .silent)
  | .calling item [] failed =>
    some (w, { p with stage := if failed then .idle else .unbound item }, .silent)
  | .calling _ (_ :: _) _ => none
  | .unbound item =>
    match completeCancellation w item.userID p.now with
    | (w', .ok true) => some (w', { p with stage := .idle }, .deleted item.userID p.now)
    | (w', _) => some (w', { p with stage := .idle }, .silent)

/-- One server handles its call of `UnbindRoles` and answers, or the call fails. -/
def FinalizerPass.call (server : UInt32) (ok : Bool) (p : FinalizerPass) :
    Option (FinalizerPass × CancellationEffect) :=
  match p.stage with
  | .calling item waiting failed =>
    if server ∈ waiting then
      some ({ p with stage := .calling item (waiting.erase server) (failed || !ok) },
        .called item.openID server)
    else none
  | _ => none

/-- A `RestoreUser` call between its select and its update. -/
structure PendingRestore where
  id : ℕ
  phone : String
  deriving DecidableEq

structure CancellationState where
  world : World
  requests : List CancellationRequest
  passes : List FinalizerPass
  restores : List PendingRestore

inductive CancellationLabel
  | ask (userID : ℕ) (action : ℤ)
  | handle (i : ℕ)
  | startPass
  | finalize (k : ℕ)
  | call (k : ℕ) (server : UInt32) (ok : Bool)
  | restoreSelect (id : ℕ) (phone : String)
  | restoreUpdate (j : ℕ)
  | store (op : Op)
  deriving DecidableEq

/-- The operations of the store that are not steps of one of the parties. -/
def Op.isOther : Op → Bool
  | .setCancellation .. | .completeCancellation .. | .restoreUser .. => false
  | _ => true

namespace CancellationState

def fresh (env : Externals) (start : ℕ) : CancellationState :=
  ⟨World.fresh env start, [], [], []⟩

def step (env : Externals) (servers : List UInt32) (s : CancellationState) :
    CancellationLabel → Option (CancellationState × CancellationEffect)
  | .ask userID action =>
    some ({ s with requests := s.requests ++ [⟨userID, action, .asked⟩] }, .silent)
  | .handle i =>
    match s.requests[i]? with
    | none => none
    | some r =>
      match r.handle s.world with
      | none => none
      | some (w, phase, effect) =>
        some ({ s with world := w, requests := s.requests.set i { r with phase := phase } }, effect)
  | .startPass =>
    some ({ s with passes := s.passes ++ [⟨s.world.now, [], .starting⟩] }, .silent)
  | .finalize k =>
    match s.passes[k]? with
    | none => none
    | some p =>
      match p.finalize servers s.world with
      | none => none
      | some (w, p', effect) => some ({ s with world := w, passes := s.passes.set k p' }, effect)
  | .call k server ok =>
    match s.passes[k]? with
    | none => none
    | some p =>
      match p.call server ok with
      | none => none
      | some (p', effect) => some ({ s with passes := s.passes.set k p' }, effect)
  | .restoreSelect id phone =>
    match PapeSdk.restoreSelect env s.world id phone with
    | .error _ => some (s, .silent)
    | .ok phone => some ({ s with restores := s.restores ++ [⟨id, phone⟩] }, .silent)
  | .restoreUpdate j =>
    match s.restores[j]? with
    | none => none
    | some restore =>
      let rest := s.restores.eraseIdx j
      match PapeSdk.restoreUpdate s.world restore.id restore.phone with
      | (w, .error _) => some ({ s with world := w, restores := rest }, .silent)
      | (w, .ok ()) => some ({ s with world := w, restores := rest }, .restored restore.id)
  | .store op =>
    if op.isOther then some ({ s with world := (exec env s.world op).1 }, .silent) else none

end CancellationState

structure CancellationEvent where
  time : ℕ
  label : CancellationLabel
  effect : CancellationEffect
  deriving DecidableEq

def CancellationStep (env : Externals) (servers : List UInt32) (s : CancellationState)
    (e : CancellationEvent) (s' : CancellationState) : Prop :=
  e.time = s.world.now ∧ s.step env servers e.label = some (s', e.effect)

abbrev CancellationRun (env : Externals) (servers : List UInt32) :
    CancellationState → List CancellationEvent → CancellationState → Prop :=
  Run (CancellationStep env servers)

/-- The history and the final state of a list of steps, as far as they can be taken. -/
def CancellationState.runAll (env : Externals) (servers : List UInt32) (s : CancellationState) :
    List CancellationLabel → List CancellationEvent × CancellationState
  | [] => ([], s)
  | l :: rest =>
    match s.step env servers l with
    | none => ([], s)
    | some (s', effect) =>
      let (log, s'') := s'.runAll env servers rest
      (⟨s.world.now, l, effect⟩ :: log, s'')

theorem CancellationState.runAll_run (env : Externals) (servers : List UInt32)
    (s : CancellationState) (labels : List CancellationLabel) :
    CancellationRun env servers s (s.runAll env servers labels).1
      (s.runAll env servers labels).2 := by
  induction labels generalizing s with
  | nil => exact Run.refl s
  | cons l rest ih =>
    rw [runAll]
    split
    · exact Run.refl s
    · next s' effect hstep =>
      exact Run.append (Run.single ⟨rfl, hstep⟩) (ih s')

/-- The steps of the system, one constructor for each kind. -/
inductive CancellationMove (env : Externals) (servers : List UInt32) (s : CancellationState) :
    CancellationLabel → CancellationEffect → CancellationState → Prop
  | ask (userID : ℕ) (action : ℤ) :
      CancellationMove env servers s (.ask userID action) .silent
        { s with requests := s.requests ++ [⟨userID, action, .asked⟩] }
  | handle (i : ℕ) (r : CancellationRequest) (w : World) (phase : HandlerPhase)
      (effect : CancellationEffect) (hr : s.requests[i]? = some r)
      (hhandle : r.handle s.world = some (w, phase, effect)) :
      CancellationMove env servers s (.handle i) effect
        { s with world := w, requests := s.requests.set i { r with phase := phase } }
  | startPass :
      CancellationMove env servers s .startPass .silent
        { s with passes := s.passes ++ [⟨s.world.now, [], .starting⟩] }
  | finalize (k : ℕ) (p p' : FinalizerPass) (w : World) (effect : CancellationEffect)
      (hp : s.passes[k]? = some p) (hfinalize : p.finalize servers s.world = some (w, p', effect)) :
      CancellationMove env servers s (.finalize k) effect
        { s with world := w, passes := s.passes.set k p' }
  | call (k : ℕ) (server : UInt32) (ok : Bool) (p p' : FinalizerPass)
      (effect : CancellationEffect) (hp : s.passes[k]? = some p)
      (hcall : p.call server ok = some (p', effect)) :
      CancellationMove env servers s (.call k server ok) effect
        { s with passes := s.passes.set k p' }
  | restoreRefused (id : ℕ) (phone : String) :
      CancellationMove env servers s (.restoreSelect id phone) .silent s
  | restoreSelected (id : ℕ) (phone x : String)
      (hselect : restoreSelect env s.world id phone = .ok x) :
      CancellationMove env servers s (.restoreSelect id phone) .silent
        { s with restores := s.restores ++ [⟨id, x⟩] }
  | restoreFailed (j : ℕ) (restore : PendingRestore) (w : World) (e : String)
      (hrestore : s.restores[j]? = some restore)
      (hupdate : restoreUpdate s.world restore.id restore.phone = (w, .error e)) :
      CancellationMove env servers s (.restoreUpdate j) .silent
        { s with world := w, restores := s.restores.eraseIdx j }
  | restored (j : ℕ) (restore : PendingRestore) (w : World)
      (hrestore : s.restores[j]? = some restore)
      (hupdate : restoreUpdate s.world restore.id restore.phone = (w, .ok ())) :
      CancellationMove env servers s (.restoreUpdate j) (.restored restore.id)
        { s with world := w, restores := s.restores.eraseIdx j }
  | store (op : Op) (hother : op.isOther = true) :
      CancellationMove env servers s (.store op) .silent
        { s with world := (exec env s.world op).1 }

theorem CancellationMove.of_step {env : Externals} {servers : List UInt32}
    {s s' : CancellationState} {l : CancellationLabel} {effect : CancellationEffect}
    (h : s.step env servers l = some (s', effect)) :
    CancellationMove env servers s l effect s' := by
  cases l with
  | ask userID action =>
    cases h
    exact CancellationMove.ask userID action
  | handle i =>
    simp only [CancellationState.step] at h
    split at h
    · cases h
    next r hr =>
    split at h
    · cases h
    next w phase effect' hhandle =>
    cases h
    exact CancellationMove.handle i r w phase effect hr hhandle
  | startPass =>
    cases h
    exact CancellationMove.startPass
  | finalize k =>
    simp only [CancellationState.step] at h
    split at h
    · cases h
    next p hp =>
    split at h
    · cases h
    next w p' effect' hfinalize =>
    cases h
    exact CancellationMove.finalize k p p' w effect hp hfinalize
  | call k server ok =>
    simp only [CancellationState.step] at h
    split at h
    · cases h
    next p hp =>
    split at h
    · cases h
    next p' effect' hcall =>
    cases h
    exact CancellationMove.call k server ok p p' effect hp hcall
  | restoreSelect id phone =>
    simp only [CancellationState.step] at h
    split at h
    · cases h
      exact CancellationMove.restoreRefused id phone
    · next x hselect =>
      cases h
      exact CancellationMove.restoreSelected id phone x hselect
  | restoreUpdate j =>
    simp only [CancellationState.step] at h
    split at h
    · cases h
    next restore hrestore =>
    split at h
    · next w e hupdate =>
      cases h
      exact CancellationMove.restoreFailed j restore w e hrestore hupdate
    · next w hupdate =>
      cases h
      exact CancellationMove.restored j restore w hrestore hupdate
  | store op =>
    simp only [CancellationState.step] at h
    split at h
    · next hother =>
      cases h
      exact CancellationMove.store op hother
    · cases h

theorem CancellationStep.move {env : Externals} {servers : List UInt32} {s s' : CancellationState}
    {e : CancellationEvent} (h : CancellationStep env servers s e s') :
    CancellationMove env servers s e.label e.effect s' := CancellationMove.of_step h.2

end PapeSdk
