import PapeSdk.AccountBindings
import PapeSdk.Handlers

/-!
Concurrent requests of `accountUnbind`. Each reads its account, decodes the
bindings, looks up a code for the binding to be retained, consumes it and then
calls `UnbindVerified`, in separate steps between which any operation of the
store may run. The comparison inside the last call decides: what it finds in
the row is then an identifier, so it is the very one the code was sent to.
-/

namespace PapeSdk

open KeyedTables Identifiers LetterCase EventRuns

inductive UnbindPhase
  | asked
  | loaded (u : User)
  | verifying (u : User) (retained : String)
  | consuming (u : User) (retained : String) (id : ℕ)
  | unbinding (u : User) (retained : String)
  | answered (reply : Except String Unit)
  deriving DecidableEq

structure UnbindRequest where
  form : Form
  phase : UnbindPhase
  deriving DecidableEq

inductive UnbindEffect
  | silent
  | consumed (code : SmsVerification)
  /-- `UnbindVerified` has succeeded. -/
  | unbound (userID : ℕ)
  deriving DecidableEq

/-- The next step of a request of `accountUnbind`. -/
def UnbindRequest.handle (env : Externals) (w : World) (r : UnbindRequest) :
    Option (World × UnbindPhase × UnbindEffect) :=
  match r.phase with
  | .asked =>
    match userFromFields w r.form with
    | .error e => some (w, .answered (.error e), .silent)
    | .ok u => some (w, .loaded u, .silent)
  | .loaded u =>
    match retainedBinding (r.form.get "kind") (accountBindings w u) with
    | .error e => some (w, .answered (.error e), .silent)
    | .ok retained => some (w, .verifying u retained, .silent)
  | .verifying u retained =>
    match findSMS env w retained "unbind" (r.form.get "code") with
    | .error e => some (w, .answered (.error e), .silent)
    | .ok id => some (w, .consuming u retained id, .silent)
  | .consuming u retained id =>
    match consumeSMS w id with
    | (w', .error e) => some (w', .answered (.error e), .silent)
    | (w', .ok ()) =>
      some (w', .unbinding u retained,
        match w.db.smsVerifications.first? fun code => code.id == id with
        | some code => .consumed code
        | none => .silent)
  | .unbinding u retained =>
    match unbindVerified env w u.id (r.form.get "kind") retained with
    | (w', .error e) => some (w', .answered (.error e), .silent)
    | (w', .ok ()) => some (w', .answered (.ok ()), .unbound u.id)
  | .answered _ => none

structure UnbindState where
  world : World
  requests : List UnbindRequest

inductive UnbindLabel
  | ask (form : Form)
  | handle (i : ℕ)
  | store (op : Op)
  deriving DecidableEq

namespace UnbindState

def fresh (env : Externals) (start : ℕ) : UnbindState := ⟨World.fresh env start, []⟩

def step (env : Externals) (s : UnbindState) : UnbindLabel → Option (UnbindState × UnbindEffect)
  | .ask form => some ({ s with requests := s.requests ++ [⟨form, .asked⟩] }, .silent)
  | .handle i =>
    match s.requests[i]? with
    | none => none
    | some r =>
      match r.handle env s.world with
      | none => none
      | some (w, phase, effect) =>
        some (⟨w, s.requests.set i { r with phase := phase }⟩, effect)
  | .store op => some ({ s with world := (exec env s.world op).1 }, .silent)

end UnbindState

structure UnbindEvent where
  label : UnbindLabel
  effect : UnbindEffect
  deriving DecidableEq

def UnbindStep (env : Externals) (s : UnbindState) (e : UnbindEvent) (s' : UnbindState) : Prop :=
  s.step env e.label = some (s', e.effect)

abbrev UnbindRun (env : Externals) : UnbindState → List UnbindEvent → UnbindState → Prop :=
  Run (UnbindStep env)

/-- The history and the final state of a list of steps, as far as they can be taken. -/
def UnbindState.runAll (env : Externals) (s : UnbindState) :
    List UnbindLabel → List UnbindEvent × UnbindState
  | [] => ([], s)
  | l :: rest =>
    match s.step env l with
    | none => ([], s)
    | some (s', effect) =>
      let (log, s'') := s'.runAll env rest
      (⟨l, effect⟩ :: log, s'')

theorem UnbindState.runAll_run (env : Externals) (s : UnbindState) (labels : List UnbindLabel) :
    UnbindRun env s (s.runAll env labels).1 (s.runAll env labels).2 := by
  induction labels generalizing s with
  | nil => exact Run.refl s
  | cons l rest ih =>
    rw [runAll]
    split
    · exact Run.refl s
    · next s' effect hstep => exact Run.append (Run.single hstep) (ih s')

/-- The account has this identifier and no other one. -/
def UserRow.BoundTo (r : UserRow) (x : String) : Prop :=
  currentBindings r = if hasAt x then ("", x) else (x, "")

section
variable {env : Externals} {w w' : World}

/-- What a bound row decodes to as its email is an email, if it is anything. -/
theorem UserRow.Bound.email_of_current {r : UserRow} (h : r.Bound env)
    (hne : (currentBindings r).2 ≠ "") : IsEmail env (currentBindings r).2 := by
  unfold currentBindings at hne ⊢
  rcases h with ⟨hphone, hemails⟩ | ⟨hemail, -⟩
  · simp only [hasAt_of_phone hphone, Bool.false_eq_true, if_false] at hne ⊢
    cases he : r.email with
    | none => simp [he] at hne
    | some e => exact hemails e he
  · simpa [hemail.1] using hemail

theorem UserRow.Bound.phone_of_current {r : UserRow} (h : r.Bound env)
    (hne : (currentBindings r).1 ≠ "") : IsPhone (currentBindings r).1 := by
  unfold currentBindings at hne ⊢
  rcases h with ⟨hphone, -⟩ | ⟨hemail, -⟩
  · simpa [hasAt_of_phone hphone] using hphone
  · simp [hemail.1] at hne

/-- What a successful update of bindings compared, validated and wrote. -/
theorem updateBindingsTx_ok (hinv : BindingInv env w) {u : ℕ} {phone email : Option String}
    {kind retained : String}
    (h : updateBindingsTx env w u phone email kind retained = (w', .ok ())) :
    ∃ row p e, row.Bound env ∧ (kind = "phone" → (currentBindings row).2 = retained) ∧
      (kind = "email" → (currentBindings row).1 = retained) ∧
      validateBindings env (phone.getD (currentBindings row).1)
        (email.getD (currentBindings row).2) = .ok (p, e) ∧
      row.rebound p e w.now ∈ w'.db.users.rows ∧ (row.rebound p e w.now).isLive u = true := by
  rcases updateBindingsTx_cases h with ⟨_, he, -⟩ | ⟨row, p, e, users, hrow, hsame, hvalid,
    husers, -, rfl⟩
  · cases he
  have hlive : row.isLive u = true := Table.first?_holds hrow
  have hmem := Table.mem_of_first? hrow
  refine ⟨row, p, e, hinv.bound row hmem (UserRow.isLive_iff.mp hlive).2, ?_, ?_, hvalid, ?_, hlive⟩
  · intro hkind
    by_contra hother
    exact hsame (Or.inl ⟨hkind, hother⟩)
  · intro hkind
    by_contra hother
    exact hsame (Or.inr ⟨hkind, hother⟩)
  · refine (Table.mem_update? husers).mpr ⟨row, hmem, ?_⟩
    simp [(UserRow.isLive_iff.mp hlive).1]

theorem unbindPhone_ok (hinv : BindingInv env w) {u : ℕ} {retained : String}
    (hne : retained ≠ "")
    (h : updateBindingsTx env w u (some "") none "phone" retained = (w', .ok ())) :
    normalizeAccount env retained = .ok retained ∧
      ∃ row ∈ w'.db.users.rows, row.isLive u = true ∧ row.BoundTo retained := by
  obtain ⟨row, p, e, hbound, hcurrent, -, hvalid, hmem, hlive⟩ := updateBindingsTx_ok hinv h
  have hsame := hcurrent rfl
  have hemail : IsEmail env retained := by
    rw [← hsame] at hne ⊢
    exact hbound.email_of_current hne
  simp only [Option.getD_some, Option.getD_none, hsame, validateBindings_email hemail,
    Except.ok.injEq, Prod.mk.injEq] at hvalid
  obtain ⟨rfl, rfl⟩ := hvalid
  refine ⟨hemail.2, _, hmem, hlive, ?_⟩
  simp [UserRow.BoundTo, currentBindings, UserRow.rebound, primaryOf, hemail.1]

theorem unbindEmail_ok (hinv : BindingInv env w) {u : ℕ} {retained : String}
    (hne : retained ≠ "")
    (h : updateBindingsTx env w u none (some "") "email" retained = (w', .ok ())) :
    normalizeAccount env retained = .ok retained ∧
      ∃ row ∈ w'.db.users.rows, row.isLive u = true ∧ row.BoundTo retained := by
  obtain ⟨row, p, e, hbound, -, hcurrent, hvalid, hmem, hlive⟩ := updateBindingsTx_ok hinv h
  have hsame := hcurrent rfl
  have hphone : IsPhone retained := by
    rw [← hsame] at hne ⊢
    exact hbound.phone_of_current hne
  simp only [Option.getD_some, Option.getD_none, hsame, validateBindings_phone hphone,
    Except.ok.injEq, Prod.mk.injEq] at hvalid
  obtain ⟨rfl, rfl⟩ := hvalid
  refine ⟨normalizeAccount_phone hphone, _, hmem, hlive, ?_⟩
  simp [UserRow.BoundTo, currentBindings, UserRow.rebound, primaryOf, emailValue,
    ne_empty_of_phone hphone, hasAt_of_phone hphone]

/-- A verified unbinding leaves exactly the retained identifier. -/
theorem unbindVerified_ok (hinv : BindingInv env w) {u : ℕ} {kind retained x : String}
    (hretained : normalizeAccount env retained = .ok x)
    (h : unbindVerified env w u kind retained = (w', .ok ())) :
    x = retained ∧ ∃ row ∈ w'.db.users.rows, row.isLive u = true ∧ row.BoundTo x := by
  have hne : retained ≠ "" := by
    rintro rfl
    exact normalizeAccount_empty hretained
  have hrow : normalizeAccount env retained = .ok retained ∧
      ∃ row ∈ w'.db.users.rows, row.isLive u = true ∧ row.BoundTo retained := by
    unfold unbindVerified at h
    split at h
    · next hkind =>
      rw [hkind] at h
      exact unbindPhone_ok hinv hne h
    split at h
    · next hkind =>
      rw [hkind] at h
      exact unbindEmail_ok hinv hne h
    · cases h
  have hsame : x = retained := by
    rw [hrow.1] at hretained
    exact (Except.ok.inj hretained).symm
  rw [hsame]
  exact ⟨rfl, hrow.2⟩

variable {s s' : UnbindState} {log : List UnbindEvent} {e : UnbindEvent}

/-- A code for unbinding that was sent to the address that `retained` stands for. -/
def CodeFor (env : Externals) (r : UnbindRequest) (retained : String) (code : SmsVerification) :
    Prop :=
  normalizeAccount env retained = .ok code.phone ∧ code.scene = "unbind" ∧
    code.code = r.form.get "code"

/-- A code about to be consumed is one for the request, and so is one that was consumed. -/
structure UnbindInv (env : Externals) (log : List UnbindEvent) (s : UnbindState) : Prop where
  store : StoreInv env s.world
  found : ∀ (i : ℕ) (r : UnbindRequest) u retained id, s.requests[i]? = some r →
    r.phase = .consuming u retained id →
    ∃ code ∈ s.world.db.smsVerifications.rows, code.id = id ∧ CodeFor env r retained code
  consumed : ∀ (i : ℕ) (r : UnbindRequest) u retained, s.requests[i]? = some r →
    r.phase = .unbinding u retained →
    ∃ e ∈ log, e.label = .handle i ∧ ∃ code, e.effect = .consumed code ∧ CodeFor env r retained code

theorem CodeFor.kept {r : UnbindRequest} {retained : String} {code code' : SmsVerification}
    (h : CodeFor env r retained code) (hkept : code.Kept code') : CodeFor env r retained code' := by
  unfold CodeFor at h ⊢
  rw [hkept.same]
  exact h

/-- The kinds of step a request takes: a read, the consumption of a code, the last call. -/
theorem UnbindRequest.handle_cases {r : UnbindRequest} {phase : UnbindPhase}
    {effect : UnbindEffect} (h : r.handle env w = some (w', phase, effect)) :
    (w' = w ∧ effect = .silent ∧ (∀ u retained, phase ≠ .unbinding u retained) ∧
      ∀ u retained id, phase = .consuming u retained id →
        findSMS env w retained "unbind" (r.form.get "code") = .ok id) ∨
    (∃ u retained id, r.phase = .consuming u retained id ∧ (consumeSMS w id).1 = w' ∧
      (phase = .unbinding u retained ∧
          effect = (match w.db.smsVerifications.first? fun code => code.id == id with
            | some code => .consumed code
            | none => .silent) ∨
        ∃ e, phase = .answered (.error e) ∧ effect = .silent)) ∨
    ∃ u retained, r.phase = .unbinding u retained ∧
      (unbindVerified env w u.id (r.form.get "kind") retained).1 = w' ∧
      (∃ reply, phase = .answered reply) ∧ (effect = .silent ∨ effect = .unbound u.id ∧
        unbindVerified env w u.id (r.form.get "kind") retained = (w', .ok ())) := by
  unfold handle at h
  split at h
  · split at h <;> cases h <;> simp
  · split at h <;> cases h <;> simp
  · next u retained hphase =>
    split at h
    · cases h
      simp
    · next id hid =>
      cases h
      refine Or.inl ⟨rfl, rfl, by simp, ?_⟩
      intro u' retained' id' heq
      cases heq
      exact hid
  · next u retained id hphase =>
    split at h
    · next w'' e hconsume =>
      cases h
      exact Or.inr (Or.inl ⟨u, retained, id, hphase, by rw [hconsume], Or.inr ⟨e, rfl, rfl⟩⟩)
    · next w'' hconsume =>
      cases h
      exact Or.inr (Or.inl ⟨u, retained, id, hphase, by rw [hconsume], Or.inl ⟨rfl, rfl⟩⟩)
  · next u retained hphase =>
    split at h
    · next w'' e hunbind =>
      cases h
      exact Or.inr (Or.inr ⟨u, retained, hphase, by rw [hunbind], ⟨_, rfl⟩, Or.inl rfl⟩)
    · next w'' hunbind =>
      cases h
      exact Or.inr (Or.inr ⟨u, retained, hphase, by rw [hunbind], ⟨_, rfl⟩, Or.inr ⟨rfl, hunbind⟩⟩)
  · cases h

/-- A step is a new request, a step of a request or an operation of the store. -/
theorem UnbindStep.cases (h : UnbindStep env s e s') :
    (∃ form, e.effect = .silent ∧
      s' = { s with requests := s.requests ++ [⟨form, .asked⟩] }) ∨
    (∃ i r w phase, e.label = .handle i ∧ s.requests[i]? = some r ∧
      r.handle env s.world = some (w, phase, e.effect) ∧
      s' = ⟨w, s.requests.set i { r with phase := phase }⟩) ∨
    ∃ op, e.effect = .silent ∧ s' = { s with world := (exec env s.world op).1 } := by
  obtain ⟨l, effect⟩ := e
  unfold UnbindStep at h
  cases l with
  | ask form =>
    cases h
    exact Or.inl ⟨form, rfl, rfl⟩
  | handle i =>
    simp only [UnbindState.step] at h
    split at h
    · cases h
    next r hr =>
    split at h
    · cases h
    next w phase effect' hhandle =>
    cases h
    exact Or.inr (Or.inl ⟨i, r, w, phase, rfl, hr, hhandle, rfl⟩)
  | store op =>
    cases h
    exact Or.inr (Or.inr ⟨op, rfl, rfl⟩)

theorem unbind_world_step (hinv : StoreInv env s.world) (h : UnbindStep env s e s') :
    StoreInv env s'.world ∧
      CodesKept s.world.db.smsVerifications s'.world.db.smsVerifications := by
  have hrefl := CodesKept.refl s.world.db.smsVerifications
  rcases h.cases with ⟨form, -, rfl⟩ | ⟨i, r, w, phase, -, -, hhandle, rfl⟩ | ⟨op, -, rfl⟩
  · exact ⟨hinv, hrefl⟩
  · rcases UnbindRequest.handle_cases hhandle with ⟨rfl, -⟩ | ⟨u, retained, id, -, rfl, -⟩ |
      ⟨u, retained, -, rfl, -⟩
    · exact ⟨hinv, hrefl⟩
    · have hstep := consumeSMS_step s.world id
      refine ⟨hinv.codes hstep, ?_⟩
      obtain ⟨rows, events, sequence, hkept, hworld⟩ := hstep
      rw [hworld]
      exact hkept
    · have hchanges : Changes env s.world
          (unbindVerified env s.world u.id (r.form.get "kind") retained).1 :=
        unbindVerified_changes s.world u.id _ retained
      refine ⟨hinv.changes hchanges, ?_⟩
      rw [hchanges.sameCodes.rows]
      exact hrefl
  · exact ⟨hinv.exec op, exec_codesKept hinv op⟩

/-- A request after a step is an old one, a new one or the one that took the step. -/
theorem UnbindStep.request (hstep : UnbindStep env s e s') {i : ℕ} {r' : UnbindRequest}
    (hr' : s'.requests[i]? = some r') :
    s.requests[i]? = some r' ∨ r'.phase = .asked ∨
      e.label = .handle i ∧ ∃ r, s.requests[i]? = some r ∧ r'.form = r.form ∧
        r.handle env s.world = some (s'.world, r'.phase, e.effect) := by
  rcases hstep.cases with ⟨form, -, rfl⟩ | ⟨j, r, w, phase, hlabel, hr, hhandle, rfl⟩ |
    ⟨op, -, rfl⟩
  · rw [List.getElem?_append] at hr'
    split at hr'
    · exact Or.inl hr'
    · have hnew := List.mem_of_getElem? hr'
      rw [List.mem_singleton] at hnew
      exact Or.inr (Or.inl (by rw [hnew]))
  · rw [List.getElem?_set] at hr'
    split at hr'
    · next hij =>
      subst hij
      split at hr'
      · cases hr'
        exact Or.inr (Or.inr ⟨hlabel, r, hr, rfl, hhandle⟩)
      · cases hr'
    · exact Or.inl hr'
  · exact Or.inl hr'

theorem UnbindInv.step (h : UnbindInv env log s) (hstep : UnbindStep env s e s') :
    UnbindInv env (log ++ [e]) s' := by
  obtain ⟨hstore, hkept⟩ := unbind_world_step h.store hstep
  refine ⟨hstore, ?_, ?_⟩
  · intro i r' u retained id hr' hphase
    rcases hstep.request hr' with hold | hasked | ⟨-, r, hr, hform, hhandle⟩
    · obtain ⟨code, hcode, hid, hfor⟩ := h.found i r' u retained id hold hphase
      obtain ⟨code', hcode', hkept'⟩ := hkept code hcode
      exact ⟨code', hcode', by rw [hkept'.same]; exact hid, hfor.kept hkept'⟩
    · rw [hasked] at hphase
      cases hphase
    · rw [hphase] at hhandle
      rcases UnbindRequest.handle_cases hhandle with ⟨hworld, -, -, hfind⟩ |
        ⟨_, _, _, -, -, ⟨hnext, -⟩ | ⟨_, hnext, -⟩⟩ | ⟨_, _, -, -, ⟨_, hnext⟩, -⟩
      · obtain ⟨x, code, hx, hcode, hid, hphone, hscene, htext, -⟩ :=
          findSMS_ok (hfind u retained id rfl)
        rw [hworld]
        refine ⟨code, hcode, hid, ?_, hscene, ?_⟩
        · rw [hphone]
          exact hx
        · rw [hform]
          exact htext
      · cases hnext
      · cases hnext
      · cases hnext
  · intro i r' u retained hr' hphase
    rcases hstep.request hr' with hold | hasked | ⟨hlabel, r, hr, hform, hhandle⟩
    · obtain ⟨e', he', hrest⟩ := h.consumed i r' u retained hold hphase
      exact ⟨e', List.mem_append_left _ he', hrest⟩
    · rw [hasked] at hphase
      cases hphase
    · rw [hphase] at hhandle
      rcases UnbindRequest.handle_cases hhandle with ⟨-, -, hnot, -⟩ |
        ⟨_, _, id, hconsuming, -, ⟨hnext, heffect⟩ | ⟨_, hnext, -⟩⟩ | ⟨_, _, -, -, ⟨_, hnext⟩, -⟩
      · exact absurd rfl (hnot u retained)
      · cases hnext
        obtain ⟨code, hcode, hid, hfor⟩ := h.found i r u retained id hr hconsuming
        have hfirst : (s.world.db.smsVerifications.first? fun code => code.id == id) =
            some code := by
          refine Table.first?_eq_of_unique hcode (by simpa using hid) ?_
          intro a ha hmatch
          have hsame : a.id = id := by simpa using hmatch
          exact s.world.db.sms_eq_of_id ha hcode (hsame.trans hid.symm)
        rw [hfirst] at heffect
        refine ⟨e, by simp, hlabel, code, heffect, ?_⟩
        unfold CodeFor at hfor ⊢
        rw [hform]
        exact hfor
      · cases hnext
      · cases hnext

theorem UnbindInv.run {start : ℕ} (hrun : UnbindRun env (UnbindState.fresh env start) log s) :
    UnbindInv env log s := by
  refine hrun.history (P := UnbindInv env) (fun _ hinv hstep => hinv.step hstep)
    ⟨StoreInv.fresh start, ?_, ?_⟩
  all_goals
    intro i r
    simp [UnbindState.fresh]

/-- A successful unbinding leaves its account with the one identifier whose code the request has
consumed, and no account that is live is ever without an identifier. -/
theorem unbinding_is_verified {start : ℕ}
    (hrun : UnbindRun env (UnbindState.fresh env start) log s) :
    (∀ before e u, log = before ++ [e] → e.effect = .unbound u →
      ∃ c ∈ before, ∃ code, c.label = e.label ∧ c.effect = .consumed code ∧
        code.scene = "unbind" ∧
        ∃ row ∈ s.world.db.users.rows, row.isLive u = true ∧ row.BoundTo code.phone) ∧
    ∀ row ∈ s.world.db.users.rows, row.deletedAt = none →
      (currentBindings row).1 ≠ "" ∨ (currentBindings row).2 ≠ "" := by
  constructor
  · rintro before e u rfl heffect
    obtain ⟨t, hbefore, hstep⟩ := Run.of_concat hrun
    have hinv := UnbindInv.run hbefore
    rcases hstep.cases with ⟨_, hsilent, -⟩ | ⟨i, r, w, phase, hlabel, hr, hhandle, rfl⟩ |
      ⟨_, hsilent, -⟩
    · rw [heffect] at hsilent
      cases hsilent
    · rw [heffect] at hhandle
      rcases UnbindRequest.handle_cases hhandle with ⟨-, hsilent, -⟩ |
        ⟨_, _, id, -, -, ⟨-, hother⟩ | ⟨_, -, hsilent⟩⟩ |
        ⟨v, retained, hphase, -, -, hsilent | ⟨hsame, hunbind⟩⟩
      · cases hsilent
      · split at hother <;> cases hother
      · cases hsilent
      · cases hsilent
      · cases hsame
        obtain ⟨c, hc, hclabel, code, hconsumed, hphone, hscene, -⟩ :=
          hinv.consumed i r v retained hr hphase
        obtain ⟨-, hrow⟩ := unbindVerified_ok hinv.store.bindings hphone hunbind
        exact ⟨c, hc, code, hclabel.trans hlabel.symm, hconsumed, hscene, hrow⟩
    · rw [heffect] at hsilent
      cases hsilent
  · intro row hrow hlive
    exact ((UnbindInv.run hrun).store.bindings.bound row hrow hlive).currentBindings_ne

end

/-- An account with a phone number and an email gives up the email. -/
def emailUnbound : List UnbindLabel :=
  [.store (.createAccount "13800000000" "a@b.c" ""), .store (.createLoginSession firstUserID),
    .store (.issueSMS "13800000000" "unbind" "123456" "ip"),
    .ask [("token", "pt_"), ("kind", "email"), ("code", "123456")],
    .handle 0, .handle 0, .handle 0, .handle 0, .handle 0]

theorem email_unbound_is_verified :
    ∃ c ∈ ((UnbindState.fresh .unary 0).runAll .unary emailUnbound).1.take 8, ∃ code,
      c.label = .handle 0 ∧ c.effect = .consumed code ∧ code.scene = "unbind" ∧
      ∃ row ∈ ((UnbindState.fresh .unary 0).runAll .unary emailUnbound).2.world.db.users.rows,
        row.isLive firstUserID = true ∧ row.BoundTo code.phone :=
  (unbinding_is_verified (UnbindState.runAll_run .unary (.fresh .unary 0) emailUnbound)).1 _
    ⟨.handle 0, .unbound firstUserID⟩ firstUserID (by decide +kernel) rfl

end PapeSdk
