import PapeSdk.AuthSessions

/-!
One-time codes: the statements of `internal/store/store.go` on
`sms_verifications` and `sms_events`. A code is stored once for every scene it
may be used in; it is consumed by the update that follows the lookup of the
newest open row of an address and a scene. Rows are never removed.
-/

namespace PapeSdk

open KeyedTables Identifiers

def smsCodeTTL : ℕ := 10 * 60

/-- `store.insertSMS`, which `MirrorSMS` calls. -/
def insertSMS (env : Externals) (w : World) (phone scene code ip : String) :
    World × Except String Unit :=
  match normalizeAccount env phone with
  | .error e => (w, .error e)
  | .ok phone =>
    if scene = "" then (w, .error "缺少验证码用途")
    else
      match w.db.smsVerifications.insert?
          ⟨w.db.nextSmsID, phone, scene, code, ip, w.now, w.now + smsCodeTTL, none⟩ with
      | none => (w, .error uniqueConstraintFailed)
      | some rows =>
        ({ w with db := { w.db with smsVerifications := rows, smsSequence := w.db.nextSmsID } },
          .ok ())

def mirrorSMS (env : Externals) (w : World) (phone scene code ip : String) :
    World × Except String Unit := insertSMS env w phone scene code ip

def issueSMS (env : Externals) (w : World) (phone scene code ip : String) :
    World × Except String Unit :=
  match insertSMS env w phone scene code ip with
  | (w, .error e) => (w, .error e)
  | (w, .ok ()) =>
    ({ w with db := { w.db with smsEvents := w.db.smsEvents ++ [⟨phone, ip, w.now⟩] } }, .ok ())

/-- The counts are taken over the last sixty seconds. -/
def checkSMSRate (env : Externals) (w : World) (phone ip : String) : Except String Unit :=
  match normalizeAccount env phone with
  | .error e => .error e
  | .ok phone =>
    let recent := w.db.smsEvents.filter fun e => w.now ≤ e.createdAt + 60
    if 1 ≤ recent.countP (fun e => e.phone == phone) then .error "验证码发送过于频繁，请稍后再试"
    else if 10 ≤ recent.countP (fun e => e.ip == ip) then .error "验证码发送次数过多，请稍后再试"
    else .ok ()

/-- Unconsumed rows of one address and scene. -/
def SmsVerification.isOpen (phone scene : String) (r : SmsVerification) : Bool :=
  r.phone == phone && r.scene == scene && r.consumedAt.isNone

/-- `order by created_at desc limit 1`; the index breaks a tie by the larger row id. -/
def newestSMS : List SmsVerification → Option SmsVerification
  | [] => none
  | r :: rest =>
    match newestSMS rest with
    | none => some r
    | some best =>
      if r.createdAt < best.createdAt ∨ r.createdAt = best.createdAt ∧ r.id < best.id then some best
      else some r

def findSMS (env : Externals) (w : World) (phone scene code : String) : Except String ℕ :=
  match normalizeAccount env phone with
  | .error e => .error e
  | .ok phone =>
    if scene = "" then .error "缺少验证码用途"
    else
      match newestSMS (w.db.smsVerifications.rows.filter (SmsVerification.isOpen phone scene)) with
      | none => .error "请先获取验证码"
      | some r =>
        if r.expiresAt < w.now then .error "验证码已过期，请重新获取"
        else if code ≠ r.code then .error "验证码错误"
        else .ok r.id

/-- The conditional update of `VerifySMS`. -/
def consumeSMS (w : World) (id : ℕ) : World × Except String Unit :=
  let target : SmsVerification → Bool := fun r => r.id == id && r.consumedAt.isNone
  if w.db.smsVerifications.affected target ≠ 1 then (w, .error "验证码已使用")
  else
    let rows := w.db.smsVerifications.touch target
      (fun r => { r with consumedAt := some w.now })
    ({ w with db := { w.db with smsVerifications := rows } }, .ok ())

def verifySMS (env : Externals) (w : World) (phone scene code : String) :
    World × Except String Unit :=
  match findSMS env w phone scene code with
  | .error e => (w, .error e)
  | .ok id => consumeSMS w id

def checkSMS (env : Externals) (w : World) (phone scene code : String) : Except String Unit :=
  (findSMS env w phone scene code).map fun _ => ()

theorem mem_of_newestSMS {rows : List SmsVerification} {r : SmsVerification}
    (h : newestSMS rows = some r) : r ∈ rows := by
  induction rows with
  | nil => cases h
  | cons a rest ih =>
    simp only [newestSMS] at h
    split at h
    · cases h
      exact List.mem_cons_self
    · next best hbest =>
      split at h
      · cases h
        exact List.mem_cons_of_mem _ (ih hbest)
      · cases h
        exact List.mem_cons_self

/-- The row a lookup returns: open, unexpired, with the address, scene and code asked for. -/
theorem findSMS_ok {env : Externals} {w : World} {phone scene code : String} {id : ℕ}
    (h : findSMS env w phone scene code = .ok id) :
    ∃ x r, normalizeAccount env phone = .ok x ∧ r ∈ w.db.smsVerifications.rows ∧ r.id = id ∧
      r.phone = x ∧ r.scene = scene ∧ r.code = code ∧ r.consumedAt = none ∧
      w.now ≤ r.expiresAt := by
  unfold findSMS at h
  split at h
  · cases h
  next x hx =>
  split at h
  · cases h
  split at h
  · cases h
  next r hr =>
  split at h
  · cases h
  next hexpired =>
  split at h
  · cases h
  next hcode =>
  have hmem := List.mem_filter.mp (mem_of_newestSMS hr)
  simp only [SmsVerification.isOpen, Bool.and_eq_true, beq_iff_eq,
    Option.isNone_iff_eq_none] at hmem
  obtain ⟨hrow, ⟨hphone, hscene⟩, hopen⟩ := hmem
  have hcode' : r.code = code := by
    by_contra hne
    exact hcode (Ne.symm hne)
  exact ⟨x, r, hx, hrow, Except.ok.inj h, hphone, hscene, hcode', hopen, by omega⟩

/-- The same code, perhaps consumed meanwhile. -/
structure SmsVerification.Kept (r r' : SmsVerification) : Prop where
  same : r' = { r with consumedAt := r'.consumedAt }
  consumed : r.consumedAt ≠ none → r'.consumedAt ≠ none

theorem SmsVerification.Kept.refl (r : SmsVerification) : r.Kept r := ⟨rfl, fun h => h⟩

theorem SmsVerification.Kept.trans {r r' r'' : SmsVerification} (h : r.Kept r')
    (h' : r'.Kept r'') : r.Kept r'' :=
  ⟨by rw [h'.same, h.same], fun hconsumed => h'.consumed (h.consumed hconsumed)⟩

/-- Rows are never removed and keep everything but their consumption. -/
def CodesKept (old new : Table smsKeys) : Prop := ∀ r ∈ old.rows, ∃ r' ∈ new.rows, r.Kept r'

theorem CodesKept.refl (t : Table smsKeys) : CodesKept t t :=
  fun r hr => ⟨r, hr, SmsVerification.Kept.refl r⟩

/-- The database with other codes. -/
def Db.withCodes (db : Db) (rows : Table smsKeys) (events : List SmsEvent) (sequence : ℕ) : Db :=
  { db with smsVerifications := rows, smsEvents := events, smsSequence := sequence }

theorem insertSMS_cases {env : Externals} {w w' : World} {phone scene code ip : String}
    {result : Except String Unit} (h : insertSMS env w phone scene code ip = (w', result)) :
    (∃ e, result = .error e ∧ w' = w) ∨
    ∃ x rows, result = .ok () ∧ normalizeAccount env phone = .ok x ∧
      w.db.smsVerifications.insert?
        ⟨w.db.nextSmsID, x, scene, code, ip, w.now, w.now + smsCodeTTL, none⟩ = some rows ∧
      w' = { w with db := w.db.withCodes rows w.db.smsEvents w.db.nextSmsID } := by
  unfold insertSMS at h
  split at h
  · cases h
    exact Or.inl ⟨_, rfl, rfl⟩
  next x hx =>
  split at h
  · cases h
    exact Or.inl ⟨_, rfl, rfl⟩
  split at h
  · cases h
    exact Or.inl ⟨_, rfl, rfl⟩
  next rows hrows =>
  cases h
  exact Or.inr ⟨x, rows, rfl, hx, hrows, rfl⟩

/-- The rows after the consumption of the code with this id. -/
def Db.consumed (db : Db) (id now : ℕ) : Table smsKeys :=
  db.smsVerifications.touch (fun r => r.id == id && r.consumedAt.isNone)
    (fun r => { r with consumedAt := some now })

theorem consumeSMS_cases {w w' : World} {id : ℕ} {result : Except String Unit}
    (h : consumeSMS w id = (w', result)) :
    (∃ e, result = .error e ∧ w' = w) ∨
    ∃ r ∈ w.db.smsVerifications.rows, result = .ok () ∧ r.id = id ∧ r.consumedAt = none ∧
      w' = { w with
        db := w.db.withCodes (w.db.consumed id w.now) w.db.smsEvents w.db.smsSequence } := by
  unfold consumeSMS at h
  simp only at h
  split at h
  · cases h
    exact Or.inl ⟨_, rfl, rfl⟩
  next hone =>
  cases h
  have hone' : w.db.smsVerifications.affected (fun r => r.id == id && r.consumedAt.isNone) ≠ 0 := by
    rw [not_not.mp hone]
    exact Nat.one_ne_zero
  obtain ⟨r, hr, hopen⟩ := Table.exists_of_affected hone'
  simp only [Bool.and_eq_true, beq_iff_eq, Option.isNone_iff_eq_none] at hopen
  exact Or.inr ⟨r, hr, rfl, hopen.1, hopen.2, rfl⟩

theorem codesKept_consumed (db : Db) (id now : ℕ) :
    CodesKept db.smsVerifications (db.consumed id now) := by
  intro r hr
  refine ⟨_, Table.mem_updated hr, ?_⟩
  split
  · exact ⟨rfl, fun _ => by simp⟩
  · exact SmsVerification.Kept.refl r

/-- Codes are numbered on, so storing one never fails. -/
theorem insertSMS_stores {env : Externals} {phone scene : String} (w : World) (code ip : String)
    (hphone : normalizeAccount env phone = .ok phone) (hscene : scene ≠ "") :
    ∃ rows, insertSMS env w phone scene code ip =
      ({ w with db := w.db.withCodes rows w.db.smsEvents w.db.nextSmsID }, .ok ()) := by
  unfold insertSMS
  rw [hphone]
  dsimp only
  rw [if_neg hscene]
  have hapart : ∀ r ∈ w.db.smsVerifications.rows, Apart smsKeys r
      ⟨w.db.nextSmsID, phone, scene, code, ip, w.now, w.now + smsCodeTTL, none⟩ := by
    intro r hr k hk hnew
    rw [List.mem_singleton.mp hk] at hnew
    have hlt : r.id < w.db.nextSmsID := lt_nextID (List.mem_map_of_mem hr)
    exact absurd (List.mem_singleton.mp hnew) (Nat.ne_of_lt hlt)
  obtain ⟨rows, hrows⟩ := Table.insert?_some hapart
  rw [hrows]
  exact ⟨rows, rfl⟩

/-- A step that concerns the codes and nothing else. -/
def CodesStep (w w' : World) : Prop :=
  ∃ rows events sequence, CodesKept w.db.smsVerifications rows ∧
    w' = { w with db := w.db.withCodes rows events sequence }

theorem CodesStep.refl (w : World) : CodesStep w w :=
  ⟨_, _, _, CodesKept.refl _, rfl⟩

theorem CodesKept.trans {t t' t'' : Table smsKeys} (h : CodesKept t t') (h' : CodesKept t' t'') :
    CodesKept t t'' := by
  intro r hr
  obtain ⟨r', hr', hkept⟩ := h r hr
  obtain ⟨r'', hr'', hkept'⟩ := h' r' hr'
  exact ⟨r'', hr'', hkept.trans hkept'⟩

theorem CodesStep.trans {w w' w'' : World} (h : CodesStep w w') (h' : CodesStep w' w'') :
    CodesStep w w'' := by
  obtain ⟨rows, events, sequence, hkept, rfl⟩ := h
  obtain ⟨rows', events', sequence', hkept', rfl⟩ := h'
  exact ⟨rows', events', sequence', hkept.trans hkept', rfl⟩

theorem insertSMS_step (env : Externals) (w : World) (phone scene code ip : String) :
    CodesStep w (insertSMS env w phone scene code ip).1 := by
  rcases h : insertSMS env w phone scene code ip with ⟨w', result⟩
  rcases insertSMS_cases h with ⟨_, -, rfl⟩ | ⟨x, rows, -, -, hrows, rfl⟩
  · exact CodesStep.refl w'
  · refine ⟨rows, _, _, ?_, rfl⟩
    intro r hr
    exact ⟨r, (Table.mem_insert? hrows).mpr (Or.inl hr), SmsVerification.Kept.refl r⟩

theorem issueSMS_step (env : Externals) (w : World) (phone scene code ip : String) :
    CodesStep w (issueSMS env w phone scene code ip).1 := by
  have hinsert : CodesStep w (insertSMS env w phone scene code ip).1 :=
    insertSMS_step env w phone scene code ip
  unfold issueSMS
  split
  · next heq =>
    rw [heq] at hinsert
    exact hinsert
  · next w' heq =>
    rw [heq] at hinsert
    obtain ⟨rows, events, sequence, hkept, rfl⟩ := hinsert
    exact ⟨rows, _, sequence, hkept, rfl⟩

theorem consumeSMS_step (w : World) (id : ℕ) : CodesStep w (consumeSMS w id).1 := by
  rcases h : consumeSMS w id with ⟨w', result⟩
  rcases consumeSMS_cases h with ⟨_, -, rfl⟩ | ⟨r, -, -, -, -, rfl⟩
  · exact CodesStep.refl w'
  · exact ⟨_, _, _, codesKept_consumed w.db id w.now, rfl⟩

theorem verifySMS_step (env : Externals) (w : World) (phone scene code : String) :
    CodesStep w (verifySMS env w phone scene code).1 := by
  unfold verifySMS
  split
  · exact CodesStep.refl w
  · exact consumeSMS_step w _

end PapeSdk
