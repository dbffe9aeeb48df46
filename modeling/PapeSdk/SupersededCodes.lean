import PapeSdk.StoreInvariant

/-!
When an older code comes back. A lookup compares the newest open row of an
address and a scene, so a newer code hides the older ones for as long as its
row is open. The verification that consumes this row opens the view on the row
behind it. As long as no verification consumes a row in front of an older code
that is open and unexpired, no code is accepted again once another one was
stored after it.
-/

namespace PapeSdk

open KeyedTables Identifiers EventRuns

/-- A row of this address and scene. -/
def SmsVerification.isFor (x scene : String) (r : SmsVerification) : Prop :=
  r.phone = x ∧ r.scene = scene

/-- One step of the store, as the table of codes sees it. -/
inductive CodesMove (env : Externals) (w : World) (op : Op) (w' : World) : Prop where
  | kept (hrows : w'.db.smsVerifications = w.db.smsVerifications) (hnow : w.now ≤ w'.now)
  | inserted (r : SmsVerification) (hcreated : r.createdAt = w.now)
      (hexpires : r.expiresAt = w.now + smsCodeTTL) (hopen : r.consumedAt = none)
      (hrows : ∀ a, a ∈ w'.db.smsVerifications.rows ↔ a ∈ w.db.smsVerifications.rows ∨ a = r)
      (hnow : w'.now = w.now)
  | consumed (phone scene code : String) (id : ℕ) (hop : op = .verifySMS phone scene code)
      (hfind : findSMS env w phone scene code = .ok id) (hworld : w' = { w with
        db := w.db.withCodes (w.db.consumed id w.now) w.db.smsEvents w.db.smsSequence })

section
variable {env : Externals} {w w' : World} {op : Op}

theorem insertSMS_move (w : World) (phone scene code ip : String) :
    CodesMove env w op (insertSMS env w phone scene code ip).1 := by
  rcases h : insertSMS env w phone scene code ip with ⟨w', result⟩
  rcases insertSMS_cases h with ⟨_, -, rfl⟩ | ⟨x, rows, -, -, hrows, rfl⟩
  · exact .kept rfl (le_refl _)
  · exact .inserted _ rfl rfl rfl (fun a => Table.mem_insert? hrows) rfl

theorem issueSMS_move (w : World) (phone scene code ip : String) :
    CodesMove env w op (issueSMS env w phone scene code ip).1 := by
  have hinsert : CodesMove env w op (insertSMS env w phone scene code ip).1 :=
    insertSMS_move w phone scene code ip
  unfold issueSMS
  split
  · next heq =>
    rw [heq] at hinsert
    exact hinsert
  · next w' heq =>
    rw [heq] at hinsert
    cases hinsert with
    | kept hrows hnow => exact .kept hrows hnow
    | inserted r hcreated hexpires hopen hrows hnow =>
      exact .inserted r hcreated hexpires hopen hrows hnow
    | consumed phone scene code id hop hfind hworld =>
      -- an insertion succeeds by storing a row, and a consumption stores none
      rcases insertSMS_cases heq with ⟨_, hfail, -⟩ | ⟨x, rows, -, -, hrows, hstored⟩
      · cases hfail
      · rw [hstored]
        exact .inserted _ rfl rfl rfl (fun a => Table.mem_insert? hrows) rfl

theorem verifySMS_move (w : World) (phone scene code : String) :
    CodesMove env w (.verifySMS phone scene code) (verifySMS env w phone scene code).1 := by
  unfold verifySMS
  split
  · exact .kept rfl (le_refl _)
  · next id hfind =>
    rcases h : consumeSMS w id with ⟨w', result⟩
    rcases consumeSMS_cases h with ⟨_, -, rfl⟩ | ⟨r, -, -, -, -, rfl⟩
    · exact .kept rfl (le_refl _)
    · exact .consumed phone scene code id rfl hfind rfl

theorem exec_move (hinv : StoreInv env w) (op : Op) : CodesMove env w op (exec env w op).1 := by
  cases hcall : op.isCall with
  | true =>
    have hchanges : Changes env w (exec env w op).1 := exec_changes w hcall
    exact .kept hchanges.sameCodes.rows hchanges.now.ge
  | false =>
    cases op with
    | setCancellation userID status cancelAt => exact .kept rfl (le_refl _)
    | reopen =>
      simp only [exec, report_fst, openStore_of_inv hinv]
      exact .kept rfl (le_refl _)
    | advance n => exact .kept rfl (Nat.le_add_right _ _)
    | issueSMS phone scene code ip =>
      simp only [exec, report_fst]
      exact issueSMS_move w phone scene code ip
    | mirrorSMS phone scene code ip =>
      simp only [exec, report_fst]
      exact insertSMS_move w phone scene code ip
    | verifySMS phone scene code =>
      simp only [exec, report_fst]
      exact verifySMS_move w phone scene code
    | _ => cases hcall

/-- A row after a consumption: as it was, or the one that is consumed. -/
theorem consumed_row {db : Db} {id now : ℕ} {r : SmsVerification}
    (h : r ∈ (db.consumed id now).rows) :
    r ∈ db.smsVerifications.rows ∧ ¬(r.id = id ∧ r.consumedAt = none) ∨
      ∃ a ∈ db.smsVerifications.rows, a.id = id ∧ a.consumedAt = none ∧
        r = { a with consumedAt := some now } := by
  obtain ⟨a, ha, hresult⟩ := Table.mem_touch.mp h
  split at hresult
  · next hopen =>
    simp only [Bool.and_eq_true, beq_iff_eq, Option.isNone_iff_eq_none] at hopen
    exact Or.inr ⟨a, ha, hopen.1, hopen.2, hresult.symm⟩
  · next hnot =>
    subst hresult
    refine Or.inl ⟨ha, fun hopen => hnot ?_⟩
    simp [hopen.1, hopen.2]

/-- Another code was stored for the address and the scene after every row of this one. -/
def Superseded (db : Db) (x scene code : String) : Prop :=
  ∃ b ∈ db.smsVerifications.rows, b.isFor x scene ∧ b.code ≠ code ∧
    ∀ a ∈ db.smsVerifications.rows, a.isFor x scene → a.code = code → a.createdAt < b.createdAt

/-- No other open code that is still valid stands behind the row. -/
def NothingBehind (w : World) (b : SmsVerification) : Prop :=
  ∀ o ∈ w.db.smsVerifications.rows, o.isFor b.phone b.scene → o.consumedAt = none →
    w.now ≤ o.expiresAt → o.code ≠ b.code → b.createdAt ≤ o.createdAt

/-- The newest open row of the address and the scene. -/
def FrontRow (db : Db) (x scene : String) (b : SmsVerification) : Prop :=
  newestSMS (db.smsVerifications.rows.filter (SmsVerification.isOpen x scene)) = some b

/-- No verification names the code of a row that an older code is waiting behind. -/
def UncoversNothing (env : Externals) (w : World) : Op → Prop
  | .verifySMS phone scene code => ∀ x b, normalizeAccount env phone = .ok x →
      FrontRow w.db x scene b → b.code = code → NothingBehind w b
  | _ => True

def CoveredStep (env : Externals) (w : World) (e : Event) (w' : World) : Prop :=
  StoreStep env w e w' ∧ UncoversNothing env w e.op

/-- Codes are stored in the past, and nothing waits behind a consumed row. -/
structure CodesCovered (w : World) : Prop where
  past : ∀ r ∈ w.db.smsVerifications.rows, r.createdAt ≤ w.now
  behind : ∀ b ∈ w.db.smsVerifications.rows, b.consumedAt ≠ none → NothingBehind w b

theorem CodesCovered.fresh (start : ℕ) : CodesCovered (World.fresh env start) := by
  rw [fresh_eq]
  refine ⟨?_, ?_⟩
  · intro r hr
    cases hr
  · intro b hb
    cases hb

theorem newestSMS_last {rows : List SmsVerification} {r a : SmsVerification}
    (h : newestSMS rows = some r) (ha : a ∈ rows) : a.createdAt ≤ r.createdAt := by
  induction rows generalizing r a with
  | nil => cases ha
  | cons b rest ih =>
    simp only [newestSMS] at h
    split at h
    · next hnone =>
      cases h
      rcases List.mem_cons.mp ha with rfl | ha
      · exact le_refl _
      · cases rest with
        | nil => cases ha
        | cons c tail =>
          simp only [newestSMS] at hnone
          split at hnone
          · cases hnone
          · split at hnone
            · cases hnone
            · cases hnone
    · next best hbest =>
      have hrest : ∀ a ∈ rest, a.createdAt ≤ best.createdAt := fun a ha => ih hbest ha
      split at h
      · next hlater =>
        cases h
        rcases List.mem_cons.mp ha with rfl | ha
        · omega
        · exact hrest a ha
      · next hearlier =>
        cases h
        rcases List.mem_cons.mp ha with rfl | ha
        · exact le_refl _
        · have := hrest a ha
          omega

theorem findSMS_front {phone scene code : String} {id : ℕ}
    (h : findSMS env w phone scene code = .ok id) :
    ∃ x r, normalizeAccount env phone = .ok x ∧ FrontRow w.db x scene r ∧ r.id = id ∧
      r.code = code ∧ w.now ≤ r.expiresAt := by
  unfold findSMS at h
  split at h
  · cases h
  next x hx =>
  split at h
  · cases h
  split at h
  · cases h
  next r hr =>
  split at h
  · cases h
  next hexpired =>
  split at h
  · cases h
  next hcode =>
  refine ⟨x, r, hx, hr, Except.ok.inj h, ?_, Nat.le_of_not_lt hexpired⟩
  by_contra hne
  exact hcode (Ne.symm hne)

theorem FrontRow.mem {x scene : String} {b : SmsVerification} (h : FrontRow w.db x scene b) :
    b ∈ w.db.smsVerifications.rows ∧ b.isFor x scene ∧ b.consumedAt = none := by
  obtain ⟨hmem, hopen⟩ := List.mem_filter.mp (mem_of_newestSMS h)
  simp only [SmsVerification.isOpen, Bool.and_eq_true, beq_iff_eq,
    Option.isNone_iff_eq_none] at hopen
  exact ⟨hmem, ⟨hopen.1.1, hopen.1.2⟩, hopen.2⟩

theorem FrontRow.last {x scene : String} {b a : SmsVerification} (h : FrontRow w.db x scene b)
    (ha : a ∈ w.db.smsVerifications.rows) (hfor : a.isFor x scene) (hopen : a.consumedAt = none) :
    a.createdAt ≤ b.createdAt := by
  apply newestSMS_last h
  apply List.mem_filter.mpr
  exact ⟨ha, by simp [SmsVerification.isOpen, hfor.1, hfor.2, hopen]⟩

theorem CodesCovered.move (h : CodesCovered w) (hmove : CodesMove env w op w')
    (hcovers : UncoversNothing env w op) : CodesCovered w' := by
  cases hmove with
  | kept hrows hnow =>
    refine ⟨?_, ?_⟩
    · intro r hr
      rw [hrows] at hr
      exact le_trans (h.past r hr) hnow
    · intro b hb hconsumed o ho hfor hopen hvalid hcode
      rw [hrows] at hb ho
      exact h.behind b hb hconsumed o ho hfor hopen (le_trans hnow hvalid) hcode
  | inserted r hcreated hexpires hopen hrows hnow =>
    refine ⟨?_, ?_⟩
    · intro a ha
      rw [hnow]
      rcases (hrows a).mp ha with ha | rfl
      · exact h.past a ha
      · exact hcreated.le
    · intro b hb hconsumed o ho hfor hunused hvalid hcode
      rw [hnow] at hvalid
      rcases (hrows b).mp hb with hb | rfl
      · rcases (hrows o).mp ho with ho | rfl
        · exact h.behind b hb hconsumed o ho hfor hunused hvalid hcode
        · rw [hcreated]
          exact h.past b hb
      · exact absurd hopen hconsumed
  | consumed phone scene code id hop hfind hworld =>
    subst hop hworld
    refine ⟨?_, ?_⟩
    · intro r hr
      rcases consumed_row hr with ⟨hr, -⟩ | ⟨a, ha, -, -, rfl⟩
      · exact h.past r hr
      · exact h.past a ha
    · intro b hb hconsumed o ho hfor hunused hvalid hcode
      have ho' : o ∈ w.db.smsVerifications.rows := by
        rcases consumed_row ho with ⟨ho, -⟩ | ⟨a, -, -, -, rfl⟩
        · exact ho
        · cases hunused
      rcases consumed_row hb with ⟨hb, -⟩ | ⟨a, ha, hid, -, rfl⟩
      · exact h.behind b hb hconsumed o ho' hfor hunused hvalid hcode
      · obtain ⟨x, r, hx, hfront, hrid, hrcode, -⟩ := findSMS_front hfind
        have hsame : a = r := w.db.sms_eq_of_id ha hfront.mem.1 (hid.trans hrid.symm)
        subst hsame
        exact hcovers x a hx hfront hrcode o ho' hfor hunused hvalid hcode

theorem CodesCovered.findSMS {phone x scene code : String} (h : CodesCovered w)
    (hx : normalizeAccount env phone = .ok x) (hsuperseded : Superseded w.db x scene code)
    (id : ℕ) : findSMS env w phone scene code ≠ .ok id := by
  intro hfind
  obtain ⟨y, r, hy, hfront, -, hcode, hvalid⟩ := findSMS_front hfind
  have hxy : x = y := Except.ok.inj (hx.symm.trans hy)
  subst hxy
  obtain ⟨hr, hfor, hopen⟩ := hfront.mem
  obtain ⟨b, hb, hbfor, hother, hlater⟩ := hsuperseded
  have hlt : r.createdAt < b.createdAt := hlater r hr hfor hcode
  cases hconsumed : b.consumedAt with
  | none => exact absurd (hfront.last hb hbfor hconsumed) (Nat.not_le_of_lt hlt)
  | some t =>
    have hbused : b.consumedAt ≠ none := by
      rw [hconsumed]
      exact Option.some_ne_none t
    have hsame : r.isFor b.phone b.scene := by
      rw [hbfor.1, hbfor.2]
      exact hfor
    have hcodes : r.code ≠ b.code := by
      rw [hcode]
      exact Ne.symm hother
    have hle := h.behind b hb hbused r hr hsame hopen hvalid hcodes
    exact absurd hle (Nat.not_le_of_lt hlt)

/-- In a run in which no verification uncovers an older code, a code that was
followed by another one is accepted no more. -/
theorem superseded_code_refused {start : ℕ} {log : List Event}
    (hrun : Run (CoveredStep env) (World.fresh env start) log w) {phone x scene code : String}
    (hx : normalizeAccount env phone = .ok x) (hsuperseded : Superseded w.db x scene code) :
    checkSMS env w phone scene code ≠ .ok () ∧
      (verifySMS env w phone scene code).2 ≠ .ok () := by
  have hinv : StoreInv env w ∧ CodesCovered w := by
    refine hrun.invariant (P := fun v => StoreInv env v ∧ CodesCovered v) ?_
      ⟨StoreInv.fresh start, CodesCovered.fresh start⟩
    intro v e v' hv hstep
    obtain ⟨⟨-, hexec⟩, hcovers⟩ := hstep
    have hmove := exec_move hv.1 e.op
    have hstore := hv.1.exec e.op
    rw [hexec] at hmove hstore
    exact ⟨hstore, hv.2.move hmove hcovers⟩
  have hfind := hinv.2.findSMS hx hsuperseded
  unfold checkSMS verifySMS
  cases hresult : PapeSdk.findSMS env w phone scene code with
  | error e =>
    refine ⟨?_, ?_⟩
    · intro h
      cases h
    · intro h
      cases h
  | ok id => exact absurd hresult (hfind id)

end

/-- Two codes for one address, the second a second later. -/
def twoCodes : List Op :=
  [.mirrorSMS "13800000000" "account" "111111" "10.0.0.1", .advance 1,
    .mirrorSMS "13800000000" "account" "222222" "10.0.0.1"]

/-- A code of another scene is used, and the first code is tried. -/
def usesBetween : List Op :=
  twoCodes ++ [.mirrorSMS "13800000000" "login" "333333" "10.0.0.1",
    .verifySMS "13800000000" "login" "333333", .verifySMS "13800000000" "account" "111111"]

instance (db : Db) (x scene code : String) : Decidable (Superseded db x scene code) :=
  inferInstanceAs (Decidable (∃ b ∈ db.smsVerifications.rows,
    (b.phone = x ∧ b.scene = scene) ∧ b.code ≠ code ∧ ∀ a ∈ db.smsVerifications.rows,
      (a.phone = x ∧ a.scene = scene) → a.code = code → a.createdAt < b.createdAt))

instance (w : World) (b : SmsVerification) : Decidable (NothingBehind w b) :=
  inferInstanceAs (Decidable (∀ o ∈ w.db.smsVerifications.rows,
    (o.phone = b.phone ∧ o.scene = b.scene) → o.consumedAt = none → w.now ≤ o.expiresAt →
      o.code ≠ b.code → b.createdAt ≤ o.createdAt))

/-- The rows that a verification could uncover, looked up. -/
def uncovers (env : Externals) (w : World) : Op → Bool
  | .verifySMS phone scene code =>
    match normalizeAccount env phone with
    | .error _ => false
    | .ok x =>
      (newestSMS (w.db.smsVerifications.rows.filter (SmsVerification.isOpen x scene))).any fun b =>
        b.code == code && !decide (NothingBehind w b)
  | _ => false

theorem uncoversNothing_of_false {env : Externals} {w : World} {op : Op}
    (h : uncovers env w op = false) : UncoversNothing env w op := by
  cases op with
  | verifySMS phone scene code =>
    intro x b hx hfront hcode
    rw [uncovers, hx] at h
    dsimp only at h
    rw [show newestSMS _ = some b from hfront] at h
    simpa [hcode] using h
  | _ => exact True.intro

/-- No step of the list uncovers an older code. -/
def coversAll (env : Externals) (w : World) : List Op → Bool
  | [] => true
  | op :: rest => !uncovers env w op && coversAll env (exec env w op).1 rest

theorem execAll_covered {env : Externals} (w : World) {ops : List Op}
    (h : coversAll env w ops = true) :
    Run (CoveredStep env) w (execAll env w ops).1 (execAll env w ops).2 := by
  induction ops generalizing w with
  | nil => exact Run.refl w
  | cons op rest ih =>
    simp only [coversAll, Bool.and_eq_true, Bool.not_eq_true'] at h
    have hfirst : CoveredStep env w ⟨w.now, op, (exec env w op).2⟩ (exec env w op).1 :=
      ⟨⟨rfl, rfl⟩, uncoversNothing_of_false h.1⟩
    exact Run.append (Run.single hfirst) (ih (exec env w op).1 h.2)

theorem first_of_two_codes_refused :
    checkSMS .unary (execAll .unary (World.fresh .unary 0) usesBetween).2 "13800000000" "account"
        "111111" ≠ .ok () ∧
      (verifySMS .unary (execAll .unary (World.fresh .unary 0) usesBetween).2 "13800000000"
        "account" "111111").2 ≠ .ok () :=
  superseded_code_refused (x := "13800000000") (execAll_covered _ (by decide +kernel)) rfl
    (by decide +kernel)

/-- The newer code is used, and the older one counts again. -/
theorem used_code_revives_older :
    ∃ log w, StoreRun .unary (World.fresh .unary 0) log w ∧
      normalizeAccount .unary "13800000000" = .ok "13800000000" ∧
      Superseded w.db "13800000000" "account" "111111" ∧
      checkSMS .unary w "13800000000" "account" "111111" = .ok () ∧
      (verifySMS .unary w "13800000000" "account" "111111").2 = .ok () := by
  refine ⟨_, _, execAll_run .unary (World.fresh .unary 0)
    (twoCodes ++ [.verifySMS "13800000000" "account" "222222"]), rfl, ?_, ?_, ?_⟩
  · decide +kernel
  · decide +kernel
  · decide +kernel

end PapeSdk
