import PapeSdk.HandlerChanges

/-!
Concurrent verifications of codes. `VerifySMS` looks a row up in one statement and
consumes it in another, and `verifySMSForAnyScene` goes on with its next scene when
either of them fails. Any operation of the store and any other verification may run
in between. A verification that nothing interrupts does what `VerifySMS`, or
`verifySMSForAnyScene`, does.
-/

namespace PapeSdk

open KeyedTables Identifiers EventRuns

inductive VerifyRequest
  /-- `store.VerifySMS`. -/
  | direct (phone scene code : String)
  /-- `verifySMSForAnyScene`. -/
  | anyScene (phone code : String) (scenes : List String)
  deriving DecidableEq

namespace VerifyRequest

def phone : VerifyRequest → String
  | direct phone _ _ => phone
  | anyScene phone _ _ => phone

def code : VerifyRequest → String
  | direct _ _ code => code
  | anyScene _ code _ => code

/-- The scenes that are tried, in order. -/
def scenes : VerifyRequest → List String
  | direct _ scene _ => [scene]
  | anyScene _ _ scenes => uniqueScenes scenes

/-- The first half of `VerifySMS`, or of `verifySMSForScene` around it. -/
def lookup (env : Externals) (w : World) (scene : String) : VerifyRequest → Except String ℕ
  | direct phone _ code => findSMS env w phone scene code
  | anyScene phone code _ =>
    match normalizeAccount env phone with
    | .error e => .error e
    | .ok phone =>
      if scene = "" then .error "缺少验证码用途" else findSMS env w phone scene code

end VerifyRequest

inductive VerifyPhase
  /-- The scenes that are left and the last error. -/
  | finding (rest : List String) (last : Option String)
  /-- The row is found, and the conditional update comes next. -/
  | updating (id : ℕ) (rest : List String)
  | finished (result : Except String Unit)
  deriving DecidableEq

/-- The next statement of a verification. -/
def VerifyRequest.proceed (env : Externals) (w : World) (r : VerifyRequest) :
    VerifyPhase → Option (World × VerifyPhase)
  | .finding [] last => some (w, .finished (.error (last.getD "请先获取验证码")))
  | .finding (scene :: rest) _ =>
    match r.lookup env w scene with
    | .error e => some (w, .finding rest (some e))
    | .ok id => some (w, .updating id rest)
  | .updating id rest =>
    match consumeSMS w id with
    | (w, .error e) => some (w, .finding rest (some e))
    | (w, .ok ()) => some (w, .finished (.ok ()))
  | .finished _ => none

/-- A verification and where it stands. -/
structure Verification where
  request : VerifyRequest
  phase : VerifyPhase
  deriving DecidableEq

structure VerifyState where
  world : World
  calls : List Verification

inductive VerifyLabel
  | start (r : VerifyRequest)
  | proceed (i : ℕ)
  | store (op : Op)
  deriving DecidableEq

/-- Verifications are taken in steps of their own. -/
def Op.verifies : Op → Bool
  | .verifySMS .. => true
  | _ => false

namespace VerifyState

def step (env : Externals) (s : VerifyState) : VerifyLabel → Option VerifyState
  | .start r => some { s with calls := s.calls ++ [⟨r, .finding r.scenes none⟩] }
  | .proceed i =>
    match s.calls[i]? with
    | none => none
    | some ⟨r, phase⟩ =>
      match r.proceed env s.world phase with
      | none => none
      | some (w, phase') => some ⟨w, s.calls.set i ⟨r, phase'⟩⟩
  | .store op =>
    if op.verifies then none else some { s with world := (exec env s.world op).1 }

/-- The row that a call has found and is about to consume. -/
def foundBy (s : VerifyState) (i : ℕ) : Option ℕ :=
  match s.calls[i]? with
  | some ⟨_, .updating id _⟩ => some id
  | _ => none

end VerifyState

/-- The codes whose rows are no longer as they were. -/
def changedCodes (w w' : World) : List ℕ :=
  (w.db.smsVerifications.rows.filter fun r => r ∉ w'.db.smsVerifications.rows).map
    SmsVerification.id

/-- A step, with the row that it found and the rows that it changed. -/
structure VerifyEvent where
  time : ℕ
  label : VerifyLabel
  found : Option ℕ
  changed : List ℕ
  deriving DecidableEq

def VerifyLabel.found (s : VerifyState) : VerifyLabel → Option ℕ
  | .proceed i => s.foundBy i
  | _ => none

structure VerifyStep (env : Externals) (s : VerifyState) (e : VerifyEvent) (s' : VerifyState) :
    Prop where
  step : s.step env e.label = some s'
  time : e.time = s.world.now
  found : e.found = e.label.found s'
  changed : e.changed = changedCodes s.world s'.world

abbrev VerifyRun (env : Externals) : VerifyState → List VerifyEvent → VerifyState → Prop :=
  Run (VerifyStep env)

/-- The history and the final state of a list of steps, as far as they can be taken. -/
def VerifyState.runAll (env : Externals) (s : VerifyState) :
    List VerifyLabel → List VerifyEvent × VerifyState
  | [] => ([], s)
  | l :: rest =>
    match s.step env l with
    | none => ([], s)
    | some s' =>
      let (log, s'') := s'.runAll env rest
      (⟨s.world.now, l, l.found s', changedCodes s.world s'.world⟩ :: log, s'')

theorem VerifyState.runAll_run (env : Externals) (s : VerifyState) (labels : List VerifyLabel) :
    VerifyRun env s (s.runAll env labels).1 (s.runAll env labels).2 := by
  induction labels generalizing s with
  | nil => exact Run.refl s
  | cons l rest ih =>
    rw [runAll]
    split
    · exact Run.refl s
    · next s' hstep => exact Run.append (Run.single ⟨hstep, rfl, rfl, rfl⟩) (ih s')

section
variable {env : Externals} {w w' : World} {r : VerifyRequest} {phase phase' : VerifyPhase}
  {out : World × Except String Unit}

/-- Left alone at this phase, the call comes to this world and this result. -/
def VerifyRequest.Ends (env : Externals) (r : VerifyRequest) (w : World) (phase : VerifyPhase)
    (out : World × Except String Unit) : Prop :=
  ∃ log, VerifyRun env ⟨w, [⟨r, phase⟩]⟩ log ⟨out.1, [⟨r, .finished out.2⟩]⟩

namespace VerifyRequest

theorem step_alone (h : r.proceed env w phase = some (w', phase')) :
    ∃ log, VerifyRun env ⟨w, [⟨r, phase⟩]⟩ log ⟨w', [⟨r, phase'⟩]⟩ := by
  refine ⟨[⟨w.now, .proceed 0, VerifyState.foundBy ⟨w', [⟨r, phase'⟩]⟩ 0, changedCodes w w'⟩],
    Run.single ⟨?_, rfl, rfl, rfl⟩⟩
  simp [VerifyState.step, h]

theorem Ends.of_proceed (hstep : r.proceed env w phase = some (w', phase'))
    (h : r.Ends env w' phase' out) : r.Ends env w phase out := by
  obtain ⟨log, hfirst⟩ := step_alone hstep
  obtain ⟨log', hrest⟩ := h
  exact ⟨log ++ log', Run.append hfirst hrest⟩

theorem Ends.of_missing {scene e : String} {rest : List String} {last : Option String}
    (hlookup : r.lookup env w scene = .error e) (h : r.Ends env w (.finding rest (some e)) out) :
    r.Ends env w (.finding (scene :: rest) last) out :=
  Ends.of_proceed (by simp only [proceed, hlookup]) h

theorem Ends.of_found {scene : String} {id : ℕ} {rest : List String} {last : Option String}
    (hlookup : r.lookup env w scene = .ok id) (h : r.Ends env w (.updating id rest) out) :
    r.Ends env w (.finding (scene :: rest) last) out :=
  Ends.of_proceed (by simp only [proceed, hlookup]) h

theorem Ends.of_lost {id : ℕ} {e : String} {rest : List String}
    (hconsume : consumeSMS w id = (w', .error e))
    (h : r.Ends env w' (.finding rest (some e)) out) : r.Ends env w (.updating id rest) out :=
  Ends.of_proceed (by simp only [proceed, hconsume]) h

theorem Ends.of_consumed {id : ℕ} {rest : List String}
    (hconsume : consumeSMS w id = (w', .ok ())) :
    r.Ends env w (.updating id rest) (w', .ok ()) :=
  step_alone (by simp only [proceed, hconsume])

/-- A direct call that no other step interrupts does what `VerifySMS` does. -/
theorem ends_as_verifySMS (w : World) (phone scene code : String) :
    (direct phone scene code).Ends env w (.finding [scene] none)
      (verifySMS env w phone scene code) := by
  have hfailed : ∀ v e, (direct phone scene code).Ends env v (.finding [] (some e))
      (v, .error e) := fun v e => step_alone rfl
  unfold verifySMS
  cases hfind : findSMS env w phone scene code with
  | error e => exact Ends.of_missing hfind (hfailed w e)
  | ok id =>
    have hlookup : (direct phone scene code).lookup env w scene = .ok id := hfind
    apply Ends.of_found hlookup
    dsimp only
    rcases hconsume : consumeSMS w id with ⟨v, e | ⟨⟩⟩
    · exact Ends.of_lost hconsume (hfailed v e)
    · exact Ends.of_consumed hconsume

/-- The loop over the scenes. -/
theorem ends_as_verifyScenes (w : World) (phone code : String) (scenes rest : List String)
    (last : Option String) : (anyScene phone code scenes).Ends env w (.finding rest last)
      (verifyScenes env w phone code last rest) := by
  induction rest generalizing w last with
  | nil => exact step_alone rfl
  | cons scene rest ih =>
    unfold verifyScenes verifySMSForScene
    cases hx : normalizeAccount env phone with
    | error e =>
      have hlookup : (anyScene phone code scenes).lookup env w scene = .error e := by
        simp only [lookup, hx]
      exact Ends.of_missing hlookup (ih w (some e))
    | ok x =>
      dsimp only
      by_cases hscene : scene = ""
      · have hlookup : (anyScene phone code scenes).lookup env w scene =
            .error "缺少验证码用途" := by simp only [lookup, hx, if_pos hscene]
        rw [if_pos hscene]
        exact Ends.of_missing hlookup (ih w _)
      have hlookup : (anyScene phone code scenes).lookup env w scene =
          findSMS env w x scene code := by simp only [lookup, hx, if_neg hscene]
      rw [if_neg hscene, verifySMS]
      cases hfind : findSMS env w x scene code with
      | error e => exact Ends.of_missing (hlookup.trans hfind) (ih w (some e))
      | ok id =>
        apply Ends.of_found (hlookup.trans hfind)
        dsimp only
        rcases hconsume : consumeSMS w id with ⟨v, e | ⟨⟩⟩
        · exact Ends.of_lost hconsume (ih v (some e))
        · exact Ends.of_consumed hconsume

/-- A call over several scenes that no other step interrupts does what
`verifySMSForAnyScene` does. -/
theorem ends_as_verifySMSForAnyScene (w : World) (phone code : String) (scenes : List String) :
    (anyScene phone code scenes).Ends env w (.finding (uniqueScenes scenes) none)
      (verifySMSForAnyScene env w phone code scenes) :=
  ends_as_verifyScenes w phone code scenes (uniqueScenes scenes) none

end VerifyRequest

end

end PapeSdk
