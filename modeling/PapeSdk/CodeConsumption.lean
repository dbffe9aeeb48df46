import PapeSdk.SupersededCodes
import PapeSdk.VerificationSystem

/-!
What concurrent verifications do to the codes. Two calls may find the same row,
but the conditional update lets only one of them have it, and the other goes on
with its next scene. A call leaves the rows alone until the update that ends it
with success, so a row is changed by one call at most and a call that fails
changes none.
-/

namespace PapeSdk

open KeyedTables Identifiers EventRuns

/-- The codes that the steps of a call have changed. -/
def changedBy (i : ℕ) (log : List VerifyEvent) : List ℕ :=
  (log.filter fun e => e.label = .proceed i).flatMap VerifyEvent.changed

/-- The row has the address of the call, one of its scenes and its code. -/
structure VerifyRequest.Names (env : Externals) (q : VerifyRequest) (r : SmsVerification) :
    Prop where
  address : normalizeAccount env q.phone = .ok r.phone
  scene : r.scene ∈ q.scenes
  code : r.code = q.code

/-- The call has found the row before it expired. -/
def FoundInTime (log : List VerifyEvent) (i : ℕ) (r : SmsVerification) : Prop :=
  ∃ e ∈ log, e.label = .proceed i ∧ e.found = some r.id ∧ e.time ≤ r.expiresAt

/-- What holds of a call at its phase. -/
def VerifyPhase.Sound (env : Externals) (q : VerifyRequest) (log : List VerifyEvent) (db : Db)
    (i : ℕ) : VerifyPhase → Prop
  | .finding rest _ => changedBy i log = [] ∧ ∀ scene ∈ rest, scene ∈ q.scenes
  | .updating id rest =>
    changedBy i log = [] ∧ (∀ scene ∈ rest, scene ∈ q.scenes) ∧
      ∃ r ∈ db.smsVerifications.rows, r.id = id ∧ q.Names env r ∧ FoundInTime log i r
  | .finished (.error _) => changedBy i log = []
  | .finished (.ok ()) =>
    ∃ r ∈ db.smsVerifications.rows, changedBy i log = [r.id] ∧ r.consumedAt ≠ none ∧
      q.Names env r ∧ FoundInTime log i r

structure VerifyInv (env : Externals) (log : List VerifyEvent) (s : VerifyState) : Prop where
  store : StoreInv env s.world
  calls : ∀ (i : ℕ) (q : VerifyRequest) (phase : VerifyPhase),
    s.calls[i]? = some ⟨q, phase⟩ → phase.Sound env q log s.world.db i
  later : ∀ i, s.calls.length ≤ i → changedBy i log = []
  used : ∀ i, ∀ id ∈ changedBy i log,
    ∃ r ∈ s.world.db.smsVerifications.rows, r.id = id ∧ r.consumedAt ≠ none
  apart : ∀ i j id, id ∈ changedBy i log → id ∈ changedBy j log → i = j

section
variable {env : Externals} {w w' : World} {s s' : VerifyState} {log : List VerifyEvent}
  {e : VerifyEvent} {i : ℕ} {q : VerifyRequest} {phase phase' : VerifyPhase}

theorem changedBy_own (h : e.label = .proceed i) :
    changedBy i (log ++ [e]) = changedBy i log ++ e.changed := by
  simp [changedBy, h]

theorem changedBy_other (h : e.label ≠ .proceed i) :
    changedBy i (log ++ [e]) = changedBy i log := by
  simp [changedBy, h]

theorem changedBy_quiet (h : e.changed = []) (i : ℕ) :
    changedBy i (log ++ [e]) = changedBy i log := by
  by_cases hlabel : e.label = .proceed i
  · rw [changedBy_own hlabel, h, List.append_nil]
  · exact changedBy_other hlabel

theorem changedCodes_of_stay
    (h : ∀ r ∈ w.db.smsVerifications.rows, r ∈ w'.db.smsVerifications.rows) :
    changedCodes w w' = [] := by
  unfold changedCodes
  rw [List.map_eq_nil_iff, List.filter_eq_nil_iff]
  intro r hr
  simpa using h r hr

theorem Db.sms_nodup (db : Db) : db.smsVerifications.rows.Nodup := by
  apply db.smsVerifications.apart.imp
  intro a b hapart hab
  subst hab
  exact hapart a.id (List.mem_singleton_self _) (List.mem_singleton_self _)

theorem changedCodes_consume {r : SmsVerification} (hr : r ∈ w.db.smsVerifications.rows)
    (hopen : r.consumedAt = none) : changedCodes w (w.consume r.id) = [r.id] := by
  have hgone : ∀ a ∈ w.db.smsVerifications.rows,
      decide (a ∉ (w.consume r.id).db.smsVerifications.rows) = (a == r) := by
    intro a ha
    rw [Bool.eq_iff_iff, decide_eq_true_iff, beq_iff_eq]
    constructor
    · intro hnot
      by_contra hne
      apply hnot
      have hid : a.id ≠ r.id := fun hid => hne (w.db.sms_eq_of_id ha hr hid)
      have hsame := Table.mem_updated (p := fun b => b.id == r.id && b.consumedAt.isNone)
        (f := fun b => { b with consumedAt := some w.now }) ha
      rw [if_neg (by simp [hid])] at hsame
      exact hsame
    · intro har hmem
      subst har
      rcases consumed_row hmem with ⟨-, hnot⟩ | ⟨b, -, -, -, hb⟩
      · exact hnot ⟨rfl, hopen⟩
      · rw [hb] at hopen
        cases hopen
  unfold changedCodes
  rw [List.filter_congr hgone, List.filter_beq, List.count_eq_one_of_mem w.db.sms_nodup hr]
  rfl

/-- Operations other than verifications leave every row as it is. -/
theorem exec_rows_stay (hinv : StoreInv env w) {op : Op} (hop : op.verifies = false) :
    ∀ r ∈ w.db.smsVerifications.rows, r ∈ (exec env w op).1.db.smsVerifications.rows := by
  intro r hr
  cases exec_move hinv op with
  | kept hrows hnow => rwa [hrows]
  | inserted a hcreated hexpires hopen hrows hnow => exact (hrows r).mpr (Or.inl hr)
  | consumed phone scene code id hverify hfind hworld =>
    subst hverify
    cases hop

theorem VerifyRequest.lookup_names {scene : String} {id : ℕ} (hscene : scene ∈ q.scenes)
    (h : q.lookup env w scene = .ok id) :
    ∃ r ∈ w.db.smsVerifications.rows, r.id = id ∧ q.Names env r ∧ w.now ≤ r.expiresAt := by
  have hfind : findSMS env w q.phone scene q.code = .ok id := by
    cases q with
    | direct phone scene' code => exact h
    | anyScene phone code scenes =>
      unfold lookup at h
      dsimp only at h
      split at h
      · cases h
      next x hx =>
      split at h
      · cases h
      · rw [findSMS_normalized hx] at h
        exact h
  obtain ⟨x, r, hx, hr, hid, hphone, hrscene, hcode, -, hvalid⟩ := findSMS_ok hfind
  exact ⟨r, hr, hid, ⟨hphone ▸ hx, hrscene ▸ hscene, hcode⟩, hvalid⟩

theorem VerifyRequest.Names.kept {r r' : SmsVerification} (h : q.Names env r)
    (hkept : r.Kept r') : q.Names env r' := by
  rw [hkept.same]
  exact ⟨h.address, h.scene, h.code⟩

theorem FoundInTime.kept {r r' : SmsVerification} (h : FoundInTime log i r)
    (hkept : r.Kept r') : FoundInTime (log ++ [e]) i r' := by
  obtain ⟨found, hmem, hfound⟩ := h
  rw [hkept.same]
  exact ⟨found, List.mem_append_left _ hmem, hfound⟩

/-- A step of another call, or one that changes no row, keeps what holds of a call. -/
theorem VerifyPhase.Sound.kept {db db' : Db} (h : phase.Sound env q log db i)
    (hchanged : changedBy i (log ++ [e]) = changedBy i log)
    (hkept : CodesKept db.smsVerifications db'.smsVerifications) :
    phase.Sound env q (log ++ [e]) db' i := by
  cases phase with
  | finding rest last => exact ⟨hchanged.trans h.1, h.2⟩
  | updating id rest =>
    obtain ⟨hnone, hscenes, r, hr, hid, hnames, hfound⟩ := h
    obtain ⟨r', hr', hrow⟩ := hkept r hr
    refine ⟨hchanged.trans hnone, hscenes, r', hr', ?_, hnames.kept hrow, hfound.kept hrow⟩
    rw [hrow.same]
    exact hid
  | finished result =>
    cases result with
    | error message => exact hchanged.trans h
    | ok u =>
      obtain ⟨r, hr, hone, hused, hnames, hfound⟩ := h
      obtain ⟨r', hr', hrow⟩ := hkept r hr
      refine ⟨r', hr', ?_, hrow.consumed hused, hnames.kept hrow, hfound.kept hrow⟩
      rw [hchanged, hone, hrow.same]

/-- The calls after a step of one of them. -/
theorem VerifyInv.moved (hinv : VerifyInv env log s) (hi : s.calls[i]? = some ⟨q, phase⟩)
    (hlabel : e.label = .proceed i)
    (hkept : CodesKept s.world.db.smsVerifications w.db.smsVerifications)
    (hphase : phase'.Sound env q (log ++ [e]) w.db i) :
    ∀ (j : ℕ) (p : VerifyRequest) (ph : VerifyPhase),
      (s.calls.set i ⟨q, phase'⟩)[j]? = some ⟨p, ph⟩ →
      ph.Sound env p (log ++ [e]) w.db j := by
  intro j p ph hj
  by_cases hij : i = j
  · subst hij
    have hlt : i < s.calls.length := (List.getElem?_eq_some_iff.mp hi).1
    rw [List.getElem?_set_self hlt] at hj
    cases hj
    exact hphase
  · rw [List.getElem?_set_ne hij] at hj
    have hother : e.label ≠ .proceed j := by
      rw [hlabel]
      intro h
      exact hij (VerifyLabel.proceed.inj h)
    exact (hinv.calls j p ph hj).kept (changedBy_other hother) hkept

/-- What a call has changed is still there and consumed. -/
theorem VerifyInv.used_kept (hinv : VerifyInv env log s)
    (hkept : CodesKept s.world.db.smsVerifications w.db.smsVerifications) {id : ℕ}
    (hid : id ∈ changedBy i log) :
    ∃ r ∈ w.db.smsVerifications.rows, r.id = id ∧ r.consumedAt ≠ none := by
  obtain ⟨r, hr, hrid, hused⟩ := hinv.used i id hid
  obtain ⟨r', hr', hrow⟩ := hkept r hr
  refine ⟨r', hr', ?_, hrow.consumed hused⟩
  rw [hrow.same]
  exact hrid

/-- An open row is none of those that a call has changed. -/
theorem VerifyInv.not_changed (hinv : VerifyInv env log s) {a : SmsVerification}
    (ha : a ∈ s.world.db.smsVerifications.rows) (hopen : a.consumedAt = none) (j : ℕ) :
    a.id ∉ changedBy j log := by
  intro hj
  obtain ⟨b, hb, hbid, hused⟩ := hinv.used j a.id hj
  rw [s.world.db.sms_eq_of_id hb ha hbid] at hused
  exact hused hopen

theorem VerifyInv.quiet (hinv : VerifyInv env log s) (hchanged : e.changed = [])
    (hstore : StoreInv env s'.world)
    (hkept : CodesKept s.world.db.smsVerifications s'.world.db.smsVerifications)
    (hlength : s.calls.length ≤ s'.calls.length)
    (hcalls : ∀ (i : ℕ) (q : VerifyRequest) (phase : VerifyPhase), s'.calls[i]? = some ⟨q, phase⟩ →
      phase.Sound env q (log ++ [e]) s'.world.db i) : VerifyInv env (log ++ [e]) s' := by
  refine ⟨hstore, hcalls, ?_, ?_, ?_⟩
  · intro i hi
    rw [changedBy_quiet hchanged]
    exact hinv.later i (le_trans hlength hi)
  · intro i id hid
    rw [changedBy_quiet hchanged] at hid
    exact hinv.used_kept hkept hid
  · intro i j id hi hj
    rw [changedBy_quiet hchanged] at hi hj
    exact hinv.apart i j id hi hj

/-- A step of a call that leaves the store as it is. -/
theorem VerifyInv.waited (hinv : VerifyInv env log s) (hi : s.calls[i]? = some ⟨q, phase⟩)
    (hlabel : e.label = .proceed i) (hchanged : e.changed = [])
    (hphase : phase'.Sound env q (log ++ [e]) s.world.db i) :
    VerifyInv env (log ++ [e]) ⟨s.world, s.calls.set i ⟨q, phase'⟩⟩ := by
  refine hinv.quiet hchanged hinv.store (CodesKept.refl _) ?_
    (hinv.moved hi hlabel (CodesKept.refl _) hphase)
  rw [List.length_set]

/-- The update that ends a call with success. -/
theorem VerifyInv.consumed (hinv : VerifyInv env log s) {id : ℕ} {rest : List String}
    (hi : s.calls[i]? = some ⟨q, .updating id rest⟩) (hlabel : e.label = .proceed i)
    (hconsume : consumeSMS s.world id = (w, .ok ()))
    (hchanged : e.changed = changedCodes s.world w) :
    VerifyInv env (log ++ [e]) ⟨w, s.calls.set i ⟨q, .finished (.ok ())⟩⟩ := by
  obtain ⟨hnone, -, r, hr, hrid, hnames, hfound⟩ := hinv.calls i q _ hi
  have hstep : CodesStep s.world w := by
    have hstep := consumeSMS_step s.world id
    rw [hconsume] at hstep
    exact hstep
  rcases consumeSMS_cases hconsume with ⟨_, hfail, -⟩ | ⟨a, ha, -, haid, hopen, hworld⟩
  · cases hfail
  have har : a = r := s.world.db.sms_eq_of_id ha hr (haid.trans hrid.symm)
  subst har
  have hw : w = s.world.consume a.id := by
    rw [hworld, haid]
    rfl
  have hone : e.changed = [a.id] := by
    rw [hchanged, hw]
    exact changedCodes_consume ha hopen
  have hkept : CodesKept s.world.db.smsVerifications w.db.smsVerifications := by
    rw [hw]
    exact codesKept_consumed s.world.db a.id s.world.now
  have hown : changedBy i (log ++ [e]) = [a.id] := by
    rw [changedBy_own hlabel, hnone, hone]
    rfl
  have hother : ∀ j, j ≠ i → changedBy j (log ++ [e]) = changedBy j log := by
    intro j hji
    apply changedBy_other
    rw [hlabel]
    intro h
    exact hji (VerifyLabel.proceed.inj h).symm
  obtain ⟨b, hb, hrow⟩ := hkept a ha
  have hbid : b.id = a.id := by rw [hrow.same]
  have hbused : b.consumedAt ≠ none := by
    rw [hw] at hb
    rcases consumed_row hb with ⟨hmem, hnot⟩ | ⟨c, -, -, -, hc⟩
    · exact fun hbopen => hnot ⟨hbid, hbopen⟩
    · rw [hc]
      exact Option.some_ne_none _
  refine ⟨hinv.store.codes hstep, ?_, ?_, ?_, ?_⟩
  · refine hinv.moved hi hlabel hkept ⟨b, hb, ?_, hbused, hnames.kept hrow, hfound.kept hrow⟩
    rw [hown, hbid]
  · intro j hj
    rw [List.length_set] at hj
    have hlt : i < s.calls.length := (List.getElem?_eq_some_iff.mp hi).1
    rw [hother j (Nat.ne_of_gt (lt_of_lt_of_le hlt hj))]
    exact hinv.later j hj
  · intro j id' hid'
    by_cases hji : j = i
    · subst hji
      rw [hown, List.mem_singleton] at hid'
      exact ⟨b, hb, hbid.trans hid'.symm, hbused⟩
    · rw [hother j hji] at hid'
      exact hinv.used_kept hkept hid'
  · intro j k id' hj hk
    by_cases hji : j = i
    · subst hji
      by_cases hkj : k = j
      · exact hkj.symm
      · rw [hown, List.mem_singleton] at hj
        rw [hother k hkj, hj] at hk
        exact absurd hk (hinv.not_changed ha hopen k)
    · by_cases hki : k = i
      · subst hki
        rw [hown, List.mem_singleton] at hk
        rw [hother j hji, hk] at hj
        exact absurd hj (hinv.not_changed ha hopen j)
      · rw [hother j hji] at hj
        rw [hother k hki] at hk
        exact hinv.apart j k id' hj hk

/-- A step of a call, one constructor for each case. -/
inductive CallMove (env : Externals) (w : World) (q : VerifyRequest) :
    VerifyPhase → World → VerifyPhase → Prop
  | failed (last : Option String) (message : String) :
      CallMove env w q (.finding [] last) w (.finished (.error message))
  | missing (scene : String) (rest : List String) (last : Option String) (message : String) :
      CallMove env w q (.finding (scene :: rest) last) w (.finding rest (some message))
  | found (scene : String) (rest : List String) (last : Option String) (id : ℕ)
      (hlookup : q.lookup env w scene = .ok id) :
      CallMove env w q (.finding (scene :: rest) last) w (.updating id rest)
  | lost (id : ℕ) (rest : List String) (message : String) :
      CallMove env w q (.updating id rest) w (.finding rest (some message))
  | consumed (id : ℕ) (rest : List String) (w' : World)
      (hconsume : consumeSMS w id = (w', .ok ())) :
      CallMove env w q (.updating id rest) w' (.finished (.ok ()))

theorem VerifyRequest.proceed_move (h : q.proceed env w phase = some (w', phase')) :
    CallMove env w q phase w' phase' := by
  unfold proceed at h
  split at h
  · cases h
    exact .failed _ _
  · next scene rest last =>
    split at h
    · cases h
      exact .missing _ _ _ _
    · next id hlookup =>
      cases h
      exact .found _ _ _ _ hlookup
  · next id rest =>
    split at h
    · next v message hconsume =>
      cases h
      rcases consumeSMS_cases hconsume with ⟨_, -, hsame⟩ | ⟨_, -, hok, -⟩
      · subst hsame
        exact .lost _ _ _
      · cases hok
    · next v hconsume =>
      cases h
      exact .consumed _ _ _ hconsume
  · cases h

theorem VerifyInv.proceed (hinv : VerifyInv env log s) (hi : s.calls[i]? = some ⟨q, phase⟩)
    (hmove : CallMove env s.world q phase w phase') (hlabel : e.label = .proceed i)
    (htime : e.time = s.world.now)
    (hfound : e.found = VerifyState.foundBy ⟨w, s.calls.set i ⟨q, phase'⟩⟩ i)
    (hchanged : e.changed = changedCodes s.world w) :
    VerifyInv env (log ++ [e]) ⟨w, s.calls.set i ⟨q, phase'⟩⟩ := by
  have hsound := hinv.calls i q phase hi
  have hquiet : w = s.world →
      e.changed = [] ∧ changedBy i (log ++ [e]) = changedBy i log := by
    intro hw
    have hnone : e.changed = [] := by
      rw [hchanged, hw]
      exact changedCodes_of_stay fun r hr => hr
    exact ⟨hnone, changedBy_quiet hnone i⟩
  cases hmove with
  | failed last message =>
    obtain ⟨hnone, hsame⟩ := hquiet rfl
    exact hinv.waited hi hlabel hnone (hsame.trans hsound.1)
  | missing scene rest last message =>
    obtain ⟨hnone, hsame⟩ := hquiet rfl
    refine hinv.waited hi hlabel hnone ⟨hsame.trans hsound.1, ?_⟩
    exact fun a ha => hsound.2 a (List.mem_cons_of_mem _ ha)
  | found scene rest last id hlookup =>
    obtain ⟨hnone, hsame⟩ := hquiet rfl
    obtain ⟨r, hr, hid, hnames, hvalid⟩ :=
      VerifyRequest.lookup_names (hsound.2 scene List.mem_cons_self) hlookup
    have hlt : i < s.calls.length := (List.getElem?_eq_some_iff.mp hi).1
    have hfoundIn : FoundInTime (log ++ [e]) i r := by
      refine ⟨e, List.mem_append_right _ (List.mem_singleton_self e), hlabel, ?_, ?_⟩
      · rw [hfound, hid]
        simp [VerifyState.foundBy, hlt]
      · rw [htime]
        exact hvalid
    refine hinv.waited hi hlabel hnone ⟨hsame.trans hsound.1, ?_, r, hr, hid, hnames, hfoundIn⟩
    exact fun a ha => hsound.2 a (List.mem_cons_of_mem _ ha)
  | lost id rest message =>
    obtain ⟨hnone, hsame⟩ := hquiet rfl
    exact hinv.waited hi hlabel hnone ⟨hsame.trans hsound.1, hsound.2.1⟩
  | consumed id rest _ hconsume => exact hinv.consumed hi hlabel hconsume hchanged

theorem VerifyInv.step (hinv : VerifyInv env log s) (hstep : VerifyStep env s e s') :
    VerifyInv env (log ++ [e]) s' := by
  obtain ⟨hnext, htime, hfound, hchanged⟩ := hstep
  cases hlabel : e.label with
  | start q =>
    rw [hlabel] at hnext
    simp only [VerifyState.step, Option.some.injEq] at hnext
    subst hnext
    have hnone : e.changed = [] := by
      rw [hchanged]
      exact changedCodes_of_stay fun r hr => hr
    have hkept := CodesKept.refl s.world.db.smsVerifications
    refine hinv.quiet hnone hinv.store hkept (by simp) ?_
    intro i p phase hi
    rcases Nat.lt_trichotomy i s.calls.length with hlt | heq | hgt
    · rw [List.getElem?_append_left hlt] at hi
      exact (hinv.calls i p phase hi).kept (changedBy_quiet hnone i) hkept
    · subst heq
      rw [List.getElem?_append_right (le_refl _), Nat.sub_self] at hi
      cases hi
      exact ⟨(changedBy_quiet hnone _).trans (hinv.later _ (le_refl _)), fun scene h => h⟩
    · rw [List.getElem?_eq_none (by simp; omega)] at hi
      cases hi
  | proceed i =>
    rw [hlabel] at hnext
    simp only [VerifyState.step] at hnext
    split at hnext
    · cases hnext
    next q phase hi =>
    split at hnext
    · cases hnext
    next w phase' hproceed =>
    cases hnext
    rw [hlabel] at hfound
    exact hinv.proceed hi (VerifyRequest.proceed_move hproceed) hlabel htime hfound hchanged
  | store op =>
    rw [hlabel] at hnext
    simp only [VerifyState.step] at hnext
    split at hnext
    · cases hnext
    next hop =>
    cases hnext
    have hnone : e.changed = [] := by
      rw [hchanged]
      exact changedCodes_of_stay (exec_rows_stay hinv.store (Bool.eq_false_iff.mpr hop))
    have hkept := exec_codesKept hinv.store op
    refine hinv.quiet hnone (hinv.store.exec op) hkept (le_refl _) ?_
    exact fun i q phase hi => (hinv.calls i q phase hi).kept (changedBy_quiet hnone i) hkept

theorem VerifyInv.run {start : ℕ} (hrun : VerifyRun env ⟨World.fresh env start, []⟩ log s) :
    VerifyInv env log s := by
  refine hrun.history (P := VerifyInv env) (fun _ hinv hstep => hinv.step hstep) ?_
  refine ⟨StoreInv.fresh start, ?_, fun i _ => rfl, ?_, ?_⟩
  · intro i q phase hi
    cases hi
  · intro i id hid
    cases hid
  · intro i j id hi
    cases hi

/-- However the statements of the calls follow on each other and on other operations, a row is
changed by one call at most; a call that succeeds has changed one row, which it found unexpired
and which has its address, one of its scenes and its code; and a call that fails has changed
none. -/
theorem verifications_consume_atomically {start : ℕ}
    (hrun : VerifyRun env ⟨World.fresh env start, []⟩ log s) :
    (∀ i j id, id ∈ changedBy i log → id ∈ changedBy j log → i = j) ∧
    (∀ i q, s.calls[i]? = some ⟨q, .finished (.ok ())⟩ →
      ∃ r ∈ s.world.db.smsVerifications.rows, changedBy i log = [r.id] ∧ r.consumedAt ≠ none ∧
        normalizeAccount env q.phone = .ok r.phone ∧ r.scene ∈ q.scenes ∧ r.code = q.code ∧
        ∃ e ∈ log, e.label = .proceed i ∧ e.found = some r.id ∧ e.time ≤ r.expiresAt) ∧
    ∀ i q message, s.calls[i]? = some ⟨q, .finished (.error message)⟩ →
      changedBy i log = [] := by
  have hinv := VerifyInv.run hrun
  refine ⟨hinv.apart, ?_, ?_⟩
  · intro i q hi
    obtain ⟨r, hr, hone, hused, hnames, hfound⟩ := hinv.calls i q _ hi
    exact ⟨r, hr, hone, hused, hnames.address, hnames.scene, hnames.code, hfound⟩
  · intro i q message hi
    exact hinv.calls i q _ hi

end

/-- Two calls find the same row before either of them consumes it. -/
def racingVerifications : List VerifyLabel :=
  [.store (.mirrorSMS "13800000000" "login" "123456" "10.0.0.1"),
    .start (.direct "13800000000" "login" "123456"),
    .start (.anyScene "13800000000" "123456" ["login", "account"]),
    .proceed 0, .proceed 1, .proceed 1, .proceed 0, .proceed 0, .proceed 0]

theorem racing_verifications_consume_once :
    ∃ log s, VerifyRun .unary ⟨World.fresh .unary 0, []⟩ log s ∧
      s.calls[0]? = some ⟨.direct "13800000000" "login" "123456",
        .finished (.error "验证码已使用")⟩ ∧
      s.calls[1]? = some ⟨.anyScene "13800000000" "123456" ["login", "account"],
        .finished (.ok ())⟩ ∧
      changedBy 0 log = [] ∧ ∃ id, changedBy 1 log = [id] := by
  have hrun := VerifyState.runAll_run .unary ⟨World.fresh .unary 0, []⟩ racingVerifications
  obtain ⟨-, hok, hfailed⟩ := verifications_consume_atomically hrun
  have hfirst : (VerifyState.runAll .unary ⟨World.fresh .unary 0, []⟩
      racingVerifications).2.calls[0]? = some ⟨.direct "13800000000" "login" "123456",
        .finished (.error "验证码已使用")⟩ := by decide +kernel
  have hsecond : (VerifyState.runAll .unary ⟨World.fresh .unary 0, []⟩
      racingVerifications).2.calls[1]? =
        some ⟨.anyScene "13800000000" "123456" ["login", "account"], .finished (.ok ())⟩ := by
    decide +kernel
  obtain ⟨r, -, hone, -⟩ := hok 1 _ hsecond
  exact ⟨_, _, hrun, hfirst, hsecond, hfailed 0 _ _ hfirst, r.id, hone⟩

end PapeSdk
