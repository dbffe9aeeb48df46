import PapeSdk.CancellationSystem

/-!
Nobody is deleted before the cooling-off period has passed. Each step either
keeps the cancellation of a row, or returns it to the normal status, or is the
write of a submit; so a row that stands at cooling-off still carries the
deadline of the last write to it, however stale the list of a finalizer is.
-/

namespace PapeSdk

open KeyedTables EventRuns Identifiers

def UserRow.Normal (r : UserRow) : Prop :=
  r.cancellationStatus = cancellationStatusNormal ∧ r.cancellationAt = none

def UserRow.CoolingOff (r : UserRow) (cancelAt : ℕ) : Prop :=
  r.cancellationStatus = cancellationStatusCoolingOff ∧ r.cancellationAt = some cancelAt

/-- The same account with the same cancellation, perhaps deleted meanwhile. -/
structure UserRow.KeepsCancellation (r r' : UserRow) : Prop where
  id : r'.id = r.id
  status : r'.cancellationStatus = r.cancellationStatus
  cancelAt : r'.cancellationAt = r.cancellationAt
  live : r'.deletedAt = none → r.deletedAt = none

theorem UserRow.KeepsCancellation.refl (r : UserRow) : r.KeepsCancellation r :=
  ⟨rfl, rfl, rfl, fun h => h⟩

theorem UserRow.KeepsCancellation.normal {r r' : UserRow} (h : r.KeepsCancellation r')
    (hnormal : r.Normal) : r'.Normal :=
  ⟨h.status.trans hnormal.1, h.cancelAt.trans hnormal.2⟩

theorem UserRow.KeepsCancellation.coolingOff {r r' : UserRow} (h : r.KeepsCancellation r')
    {cancelAt : ℕ} (hcooling : r.CoolingOff cancelAt) : r'.CoolingOff cancelAt :=
  ⟨h.status.trans hcooling.1, h.cancelAt.trans hcooling.2⟩

theorem UserRow.KeepsCancellation.trans {r r' r'' : UserRow} (h : r.KeepsCancellation r')
    (h' : r'.KeepsCancellation r'') : r.KeepsCancellation r'' :=
  ⟨h'.id.trans h.id, h'.status.trans h.status, h'.cancelAt.trans h.cancelAt,
    fun hlive => h.live (h'.live hlive)⟩

/-- Every row stands at the normal status or comes from a row with its cancellation. -/
def CancellationKept (w w' : World) : Prop :=
  ∀ r' ∈ w'.db.users.rows, r'.Normal ∨ ∃ r ∈ w.db.users.rows, r.KeepsCancellation r'

section
variable {env : Externals} {servers : List UInt32} {w w' w'' : World}

theorem CancellationKept.of_sub (hrows : ∀ r ∈ w'.db.users.rows, r ∈ w.db.users.rows) :
    CancellationKept w w' :=
  fun r hr => Or.inr ⟨r, hrows r hr, UserRow.KeepsCancellation.refl r⟩

theorem CancellationKept.trans (h : CancellationKept w w') (h' : CancellationKept w' w'') :
    CancellationKept w w'' := by
  intro r'' hr''
  rcases h' r'' hr'' with hnormal | ⟨r', hr', hkept'⟩
  · exact Or.inl hnormal
  · rcases h r' hr' with hnormal | ⟨r, hr, hkept⟩
    · exact Or.inl (hkept'.normal hnormal)
    · exact Or.inr ⟨r, hr, hkept.trans hkept'⟩

theorem CancellationKept.of_updated {p : UserRow → Bool} {f : UserRow → UserRow}
    (hrows : w'.db.users.rows = w.db.users.rows.map fun r => if p r then f r else r)
    (hf : ∀ r : UserRow, (f r).Normal ∨ r.KeepsCancellation (f r)) : CancellationKept w w' := by
  intro r' hr'
  rw [hrows] at hr'
  rcases Table.of_mem_updated hr' with ⟨r, hr, -, rfl⟩ | ⟨hr, -⟩
  · rcases hf r with hnormal | hkept
    · exact Or.inl hnormal
    · exact Or.inr ⟨r, hr, hkept⟩
  · exact Or.inr ⟨r', hr, UserRow.KeepsCancellation.refl r'⟩

theorem Change.cancellationKept {k : Effect} (h : Change env w k w') : CancellationKept w w' := by
  have hsame : ∀ {f : UserRow → UserRow}, (∀ r : UserRow, r.KeepsCancellation (f r)) →
      ∀ r : UserRow, (f r).Normal ∨ r.KeepsCancellation (f r) := fun hf r => Or.inr (hf r)
  cases h with
  | draw | comet | revokeSession => exact CancellationKept.of_sub fun _ hr => hr
  | touch t =>
    have hquiet := t.quiet w.now
    refine CancellationKept.of_updated rfl (hsame fun r => ?_)
    exact ⟨(hquiet r).id, (hquiet r).cancellationStatus, (hquiet r).cancellationAt, fun hlive => by
      rw [← (hquiet r).deletedAt, hlive]⟩
  | login | refresh | revokeTokens =>
    exact CancellationKept.of_updated rfl (hsame fun _ => ⟨rfl, rfl, rfl, fun hlive => hlive⟩)
  | rebind row phone email users hrow hlive hbound husers =>
    exact CancellationKept.of_updated (Table.update?_rows husers)
      (hsame fun _ => ⟨rfl, rfl, rfl, fun hlive => hlive⟩)
  | delete p userID now users hp husers =>
    refine CancellationKept.of_updated (Table.update?_rows husers) (hsame fun r => ?_)
    refine ⟨rfl, rfl, rfl, ?_⟩
    intro hlive
    cases hlive
  | restore id phone users hphone husers =>
    exact CancellationKept.of_updated (Table.update?_rows husers) fun r => Or.inl ⟨rfl, rfl⟩
  | hardDelete id => exact CancellationKept.of_sub fun r hr => (Table.mem_delete.mp hr).1
  | create row users husers hblank =>
    intro r hr
    rcases (Table.mem_insert? husers).mp hr with hold | rfl
    · exact Or.inr ⟨r, hold, UserRow.KeepsCancellation.refl r⟩
    · exact Or.inl ⟨hblank.cancellationStatus, hblank.cancellationAt⟩

theorem Changes.cancellationKept (h : Changes env w w') : CancellationKept w w' := by
  induction h with
  | refl => exact CancellationKept.of_sub fun _ hr => hr
  | tail _ hchange ih =>
    obtain ⟨k, hchange⟩ := hchange
    exact ih.trans hchange.cancellationKept

theorem exec_cancellationKept (hinv : StoreInv env w) {op : Op} (hother : op.isOther = true) :
    CancellationKept w (exec env w op).1 := by
  refine exec_cases (fun _ hchanges => hchanges.cancellationKept)
    (fun userID status cancelAt hop => ?_) (fun rows events sequence _ => ?_) (fun _ => ?_)
    (fun seconds _ => ?_)
  · rw [hop] at hother
    cases hother
  · exact CancellationKept.of_sub fun _ hr => hr
  · rw [openStore_of_inv hinv]
    exact CancellationKept.of_sub fun _ hr => hr
  · exact CancellationKept.of_sub fun _ hr => hr

/-- What a step does to the cancellation of the rows, in view of its effect. -/
def RowsFollow (w w' : World) (effect : CancellationEffect) : Prop :=
  ∀ r' ∈ w'.db.users.rows, r'.Normal ∨
    (∃ cancelAt, effect = .wrote r'.id (.submit cancelAt) ∧ r'.CoolingOff cancelAt) ∨
    ∃ r ∈ w.db.users.rows, r.KeepsCancellation r' ∧ ¬ effect.writesTo r.id

theorem RowsFollow.of_kept {effect : CancellationEffect} (h : CancellationKept w w')
    (heffect : ∀ u, ¬ effect.writesTo u) : RowsFollow w w' effect := by
  intro r' hr'
  rcases h r' hr' with hnormal | ⟨r, hr, hkept⟩
  · exact Or.inl hnormal
  · exact Or.inr (Or.inr ⟨r, hr, hkept, heffect r.id⟩)

theorem RowsFollow.refl {effect : CancellationEffect} (heffect : ∀ u, ¬ effect.writesTo u) :
    RowsFollow w w effect :=
  RowsFollow.of_kept (CancellationKept.of_sub fun _ hr => hr) heffect

/-- A withdrawal that is not refused leads to the write of a withdrawal. -/
theorem cancellationAction_withdraw {status cancelAt now answer : ℕ}
    {write : Option CancellationWrite}
    (h : cancellationAction cancellationActionWithdraw status cancelAt now = .ok (write, answer)) :
    write = some .withdraw := by
  have hswitch : cancellationAction cancellationActionWithdraw status cancelAt now =
      if status ≠ cancellationStatusCoolingOff then .error "当前账号没有可取消的注销申请"
      else if 0 < cancelAt ∧ cancelAt ≤ now then .error "注销冷静期已结束，账号正在完成注销"
      else .ok (some .withdraw, cancellationStatusNormal) := rfl
  rw [hswitch] at h
  split at h
  · cases h
  split at h
  · cases h
  · cases h
    rfl

/-- Only a submit writes a deadline, and it is fifteen days ahead. -/
theorem cancellationAction_submit {action : ℤ} {status cancelAt now answer deadline : ℕ}
    (h : cancellationAction action status cancelAt now = .ok (some (.submit deadline), answer)) :
    action = cancellationActionSubmit ∧ deadline = now + coolingOff := by
  unfold cancellationAction at h
  split at h
  · split at h <;> cases h
  split at h
  · next hsubmit =>
    split at h
    · cases h
    · cases h
      exact ⟨hsubmit, rfl⟩
  split at h
  · split at h
    · cases h
    · split at h <;> cases h
  split at h
  · split at h <;> cases h
  split at h
  · split at h <;> cases h
  · cases h

/-- The four kinds of step a request takes: it reads or decides without a trace, computes a
deadline, writes, or answers. -/
theorem CancellationRequest.handle_cases {r : CancellationRequest} {phase : HandlerPhase}
    {effect : CancellationEffect} (h : r.handle w = some (w', phase, effect)) :
    (w' = w ∧ effect = .silent ∧
      (∀ cancelAt status, phase ≠ .writing (.submit cancelAt) status) ∧
      (r.action = cancellationActionWithdraw → (∀ status, phase ≠ .answering (.ok status)) ∧
        ∀ write status, phase = .writing write status → write = .withdraw)) ∨
    (∃ status, w' = w ∧ r.action = cancellationActionSubmit ∧
      effect = .computed r.userID (w.now + coolingOff) ∧
      phase = .writing (.submit (w.now + coolingOff)) status) ∨
    (∃ write status, r.phase = .writing write status ∧ phase = .answering (.ok status) ∧
      w' = (setCancellation w r.userID write.status write.cancelAt).1 ∧
      effect = if w.db.users.affected (UserRow.isLive r.userID) = 0 then .silent
        else .wrote r.userID write) ∨
    ∃ reply, r.phase = .answering reply ∧ phase = .answered ∧ w' = w ∧
      effect = .answered r.userID r.action reply := by
  unfold handle at h
  split at h
  · split at h <;> cases h <;> simp
  · split at h
    · cases h
      simp
    · next status' hdecide =>
      cases h
      refine Or.inl ⟨rfl, rfl, by simp, fun hwithdraw => ?_⟩
      rw [hwithdraw] at hdecide
      cases cancellationAction_withdraw hdecide
    · next cancelAt' status' hdecide =>
      cases h
      obtain ⟨haction, rfl⟩ := cancellationAction_submit hdecide
      exact Or.inr (Or.inl ⟨status', rfl, haction, rfl, rfl⟩)
    · next write status' hdecide hother =>
      cases h
      refine Or.inl ⟨rfl, rfl, ?_, fun hwithdraw => ⟨by simp, ?_⟩⟩
      · rintro cancelAt answer hphase
        cases hphase
        exact hdecide cancelAt rfl
      · intro write' answer hphase
        cases hphase
        rw [hwithdraw] at hother
        exact Option.some.inj (cancellationAction_withdraw hother)
  · next write status hphase =>
    cases h
    exact Or.inr (Or.inr (Or.inl ⟨write, status, hphase, rfl, rfl, rfl⟩))
  · next reply hphase =>
    cases h
    exact Or.inr (Or.inr (Or.inr ⟨reply, hphase, rfl, rfl, rfl⟩))
  · cases h

theorem setCancellation_follows {u : ℕ} {write : CancellationWrite}
    (hdeadline : ∀ cancelAt, write = .submit cancelAt → 0 < cancelAt) :
    RowsFollow w (setCancellation w u write.status write.cancelAt).1
      (if w.db.users.affected (UserRow.isLive u) = 0 then .silent else .wrote u write) := by
  intro r' hr'
  rcases Table.of_mem_updated hr' with ⟨r, hr, hlive, rfl⟩ | ⟨hr, hother⟩
  · have haffected : w.db.users.affected (UserRow.isLive u) ≠ 0 :=
      fun hzero => Table.affected_eq_zero.mp hzero r hr hlive
    rw [if_neg haffected]
    cases write with
    | withdraw | reset => exact Or.inl ⟨rfl, rfl⟩
    | submit cancelAt =>
      have hpositive := hdeadline cancelAt rfl
      refine Or.inr (Or.inl ⟨cancelAt, ?_, rfl, ?_⟩)
      · rw [(UserRow.isLive_iff.mp hlive).1]
      · simp [CancellationWrite.cancelAt, hpositive]
  · refine Or.inr (Or.inr ⟨r', hr, UserRow.KeepsCancellation.refl r', ?_⟩)
    split
    · exact fun hwrites => hwrites
    · next haffected =>
      obtain ⟨a, ha, halive⟩ := Table.exists_of_affected haffected
      intro hwrites
      have hid : u = r'.id := hwrites
      rw [w.db.user_eq_of_id hr ha (hid.symm.trans (UserRow.isLive_iff.mp halive).1.symm),
        halive] at hother
      cases hother

theorem restoreUpdate_follows {id : ℕ} {phone : String}
    (h : restoreUpdate w id phone = (w', .ok ())) : RowsFollow w w' (.restored id) := by
  unfold restoreUpdate at h
  split at h
  · cases h
  next users husers =>
  split at h
  · cases h
  cases h
  intro r' hr'
  rcases Table.of_mem_update? husers hr' with ⟨r, -, -, rfl⟩ | ⟨hr, hother⟩
  · exact Or.inl ⟨rfl, rfl⟩
  · refine Or.inr (Or.inr ⟨r', hr, UserRow.KeepsCancellation.refl r', ?_⟩)
    intro hwrites
    have hid : id = r'.id := hwrites
    simp [hid] at hother

/-- A deletion of the finalizer finds its row due. -/
theorem completeCancellation_due {u now : ℕ}
    (h : completeCancellation w u now = (w', .ok true)) :
    ∃ r ∈ w.db.users.rows, r.id = u ∧ r.isDue now = true := by
  unfold completeCancellation at h
  simp only at h
  split at h
  · cases h
  split at h
  · cases h
  next haffected =>
  obtain ⟨r, hr, hdue⟩ := Table.exists_of_affected haffected
  simp only [Bool.and_eq_true, beq_iff_eq] at hdue
  exact ⟨r, hr, hdue⟩

/-- A step of a pass deletes an account that is due, or is no write at all. -/
theorem FinalizerPass.finalize_cases {p p' : FinalizerPass} {effect : CancellationEffect}
    (h : p.finalize servers w = some (w', p', effect)) :
    (w' = w ∧ effect = .silent) ∨
    ∃ item, p.stage = .unbound item ∧ p' = { p with stage := .idle } ∧
      w' = (completeCancellation w item.userID p.now).1 ∧
      (effect = .silent ∨ effect = .deleted item.userID p.now ∧
        completeCancellation w item.userID p.now = (w', .ok true)) := by
  unfold finalize at h
  split at h
  · cases h
    exact Or.inl ⟨rfl, rfl⟩
  · split at h
    · cases h
    split at h <;> cases h <;> exact Or.inl ⟨rfl, rfl⟩
  · cases h
    exact Or.inl ⟨rfl, rfl⟩
  · cases h
  · next item hstage =>
    split at h
    · next w'' hcomplete =>
      cases h
      exact Or.inr ⟨item, hstage, rfl, by rw [hcomplete], Or.inr ⟨rfl, hcomplete⟩⟩
    · next w'' result _ hcomplete =>
      cases h
      exact Or.inr ⟨item, hstage, rfl, by rw [hcomplete], Or.inl rfl⟩

/-- A request calls no server and deletes no account. -/
theorem CancellationRequest.handle_effect {r : CancellationRequest} {phase : HandlerPhase}
    {effect : CancellationEffect} (h : r.handle w = some (w', phase, effect)) :
    (∀ openID server, effect ≠ .called openID server) ∧ ∀ u now, effect ≠ .deleted u now := by
  rcases CancellationRequest.handle_cases h with ⟨-, rfl, -⟩ | ⟨_, -, -, rfl, -⟩ |
    ⟨_, _, -, -, -, rfl⟩ | ⟨_, -, -, -, rfl⟩
  · simp
  · simp
  · split
    · simp
    · simp
  · simp

/-- A pass writes for no request and answers none, and its calls are steps of their own. -/
theorem FinalizerPass.finalize_effect {p p' : FinalizerPass} {effect : CancellationEffect}
    (h : p.finalize servers w = some (w', p', effect)) :
    (∀ u write, effect ≠ .wrote u write) ∧ (∀ openID server, effect ≠ .called openID server) ∧
      ∀ u action reply, effect ≠ .answered u action reply := by
  rcases FinalizerPass.finalize_cases h with ⟨-, rfl⟩ | ⟨_, -, -, -, rfl | ⟨rfl, -⟩⟩
  · simp
  · simp
  · simp

theorem FinalizerPass.call_effect {p p' : FinalizerPass} {server : UInt32} {ok : Bool}
    {effect : CancellationEffect} (h : p.call server ok = some (p', effect)) :
    ∃ item waiting failed, p.stage = .calling item waiting failed ∧ server ∈ waiting ∧
      p' = { p with stage := .calling item (waiting.erase server) (failed || !ok) } ∧
      effect = .called item.openID server := by
  unfold call at h
  split at h
  · next item waiting failed hstage =>
    split at h
    · next hmem =>
      cases h
      exact ⟨item, waiting, failed, hstage, hmem, rfl, rfl⟩
    · cases h
  · cases h

variable {s s' : CancellationState} {l : CancellationLabel} {effect : CancellationEffect}

/-- Requests keep their place; only a step of its own changes a request. -/
theorem CancellationMove.request (h : CancellationMove env servers s l effect s') {i : ℕ}
    {r' : CancellationRequest} (hr' : s'.requests[i]? = some r') :
    s.requests[i]? = some r' ∨ r'.phase = .asked ∨ l = .handle i ∧ ∃ r, s.requests[i]? = some r ∧
      r'.userID = r.userID ∧ r'.action = r.action ∧
      r.handle s.world = some (s'.world, r'.phase, effect) := by
  cases h with
  | ask userID action =>
    rw [List.getElem?_append] at hr'
    split at hr'
    · exact Or.inl hr'
    · have hnew := List.mem_of_getElem? hr'
      rw [List.mem_singleton] at hnew
      exact Or.inr (Or.inl (by rw [hnew]))
  | handle j r w phase effect hr hhandle =>
    rw [List.getElem?_set] at hr'
    split at hr'
    · next hij =>
      subst hij
      split at hr'
      · cases hr'
        exact Or.inr (Or.inr ⟨rfl, r, hr, rfl, rfl, hhandle⟩)
      · cases hr'
    · exact Or.inl hr'
  | _ => exact Or.inl hr'

theorem CancellationMove.wrote {u : ℕ} {write : CancellationWrite}
    (h : CancellationMove env servers s l (.wrote u write) s') :
    ∃ i r status, l = .handle i ∧ s.requests[i]? = some r ∧ r.userID = u ∧
      r.phase = .writing write status := by
  cases h with
  | handle i r w phase effect hr hhandle =>
    rcases CancellationRequest.handle_cases hhandle with ⟨-, heffect, -⟩ | ⟨_, -, -, heffect, -⟩ |
      ⟨write', status, hphase, -, -, heffect⟩ | ⟨_, -, -, -, heffect⟩
    · cases heffect
    · cases heffect
    · split at heffect
      · cases heffect
      · cases heffect
        exact ⟨i, r, status, rfl, hr, rfl, hphase⟩
    · cases heffect
  | finalize k p p' w effect hp hfinalize =>
    exact absurd rfl ((FinalizerPass.finalize_effect hfinalize).1 u write)
  | call k server ok p p' effect hp hcall =>
    obtain ⟨_, _, _, -, -, -, heffect⟩ := FinalizerPass.call_effect hcall
    cases heffect

theorem CancellationMove.deleted {u now : ℕ}
    (h : CancellationMove env servers s l (.deleted u now) s') :
    ∃ r ∈ s.world.db.users.rows, r.id = u ∧ r.isDue now = true := by
  cases h with
  | handle i r w phase effect hr hhandle =>
    exact absurd rfl ((CancellationRequest.handle_effect hhandle).2 u now)
  | finalize k p p' w effect hp hfinalize =>
    rcases FinalizerPass.finalize_cases hfinalize with ⟨-, heffect⟩ |
      ⟨item, -, -, -, heffect | ⟨heffect, hcomplete⟩⟩
    · cases heffect
    · cases heffect
    · cases heffect
      exact completeCancellation_due hcomplete
  | call k server ok p p' effect hp hcall =>
    obtain ⟨_, _, _, -, -, -, heffect⟩ := FinalizerPass.call_effect hcall
    cases heffect

/-- A submit request has computed this deadline, fifteen days ahead of the time it did so. -/
def Computed (i u cancelAt : ℕ) (e : CancellationEvent) : Prop :=
  e.label = .handle i ∧ e.effect = .computed u cancelAt ∧ cancelAt = e.time + coolingOff

/-- The last write to the cancellation of `u` is that of a submit with this deadline. -/
def LastSubmit (log : List CancellationEvent) (u cancelAt : ℕ) : Prop :=
  ∃ before submit after i, log = before ++ submit :: after ∧ submit.label = .handle i ∧
    submit.effect = .wrote u (.submit cancelAt) ∧ (∃ c ∈ before, Computed i u cancelAt c) ∧
    ∀ e ∈ after, ¬ e.effect.writesTo u

theorem LastSubmit.snoc {log : List CancellationEvent} {u cancelAt : ℕ}
    (h : LastSubmit log u cancelAt) {e : CancellationEvent} (he : ¬ e.effect.writesTo u) :
    LastSubmit (log ++ [e]) u cancelAt := by
  obtain ⟨before, submit, after, i, rfl, hlabel, heffect, hcomputed, hafter⟩ := h
  refine ⟨before, submit, after ++ [e], i, by simp, hlabel, heffect, hcomputed, ?_⟩
  intro e' he'
  rcases List.mem_append.mp he' with hold | hnew
  · exact hafter e' hold
  · rw [List.mem_singleton.mp hnew]
    exact he

/-- The identifiers of restores under way are well formed, deadlines to be written have been
computed, and a row at cooling-off has the deadline of the last write to it. -/
structure CancellationInv (env : Externals) (log : List CancellationEvent)
    (s : CancellationState) : Prop where
  store : StoreInv env s.world
  restores : ∀ p ∈ s.restores, IsIdentifier env p.phone
  deadlines : ∀ i r cancelAt status, s.requests[i]? = some r →
    r.phase = .writing (.submit cancelAt) status → ∃ e ∈ log, Computed i r.userID cancelAt e
  rows : ∀ r ∈ s.world.db.users.rows, r.Normal ∨
    ∃ cancelAt, r.CoolingOff cancelAt ∧ LastSubmit log r.id cancelAt

theorem CancellationInv.fresh (start : ℕ) :
    CancellationInv env [] (CancellationState.fresh env start) := by
  refine ⟨StoreInv.fresh start, ?_, ?_, ?_⟩
  · intro p hp
    cases hp
  · intro i r cancelAt status hr
    simp [CancellationState.fresh] at hr
  · intro r hr
    cases hr

theorem CancellationMove.storeInv (h : CancellationMove env servers s l effect s')
    (hinv : StoreInv env s.world) (hrestores : ∀ p ∈ s.restores, IsIdentifier env p.phone) :
    StoreInv env s'.world := by
  cases h with
  | ask | startPass | call | restoreRefused | restoreSelected => exact hinv
  | store op hother => exact hinv.exec op
  | handle i r w phase effect hr hhandle =>
    rcases CancellationRequest.handle_cases hhandle with ⟨rfl, -⟩ | ⟨_, rfl, -⟩ |
      ⟨write, _, -, -, rfl, -⟩ | ⟨_, -, -, rfl, -⟩
    · exact hinv
    · exact hinv
    · exact hinv.setCancellation r.userID write.status write.cancelAt
    · exact hinv
  | finalize k p p' w effect hp hfinalize =>
    rcases FinalizerPass.finalize_cases hfinalize with ⟨rfl, -⟩ | ⟨item, -, -, rfl, -⟩
    · exact hinv
    · exact hinv.changes (completeCancellation_changes s.world item.userID p.now)
  | restoreFailed j restore w e hrestore hupdate =>
    have hchanges := restoreUpdate_changes s.world restore.id
      (hrestores restore (List.mem_of_getElem? hrestore))
    rw [hupdate] at hchanges
    exact hinv.changes hchanges
  | restored j restore w hrestore hupdate =>
    have hchanges := restoreUpdate_changes s.world restore.id
      (hrestores restore (List.mem_of_getElem? hrestore))
    rw [hupdate] at hchanges
    exact hinv.changes hchanges

theorem CancellationMove.restores (h : CancellationMove env servers s l effect s')
    (hrestores : ∀ p ∈ s.restores, IsIdentifier env p.phone) :
    ∀ p ∈ s'.restores, IsIdentifier env p.phone := by
  cases h with
  | restoreSelected id phone x hselect =>
    intro p hp
    rcases List.mem_append.mp hp with hold | hnew
    · exact hrestores p hold
    · rw [List.mem_singleton.mp hnew]
      exact restoreSelect_ok hselect
  | restoreFailed | restored =>
    intro p hp
    exact hrestores p (List.mem_of_mem_eraseIdx hp)
  | _ => exact hrestores

/-- Each step does to the rows what its effect says. -/
theorem CancellationMove.rowsFollow (h : CancellationMove env servers s l effect s')
    {log : List CancellationEvent} (hinv : CancellationInv env log s) :
    RowsFollow s.world s'.world effect := by
  have hno : ∀ u, ¬ CancellationEffect.silent.writesTo u := fun u hwrites => hwrites
  cases h with
  | ask | startPass | restoreRefused | restoreSelected => exact RowsFollow.refl hno
  | call k server ok p p' effect hp hcall =>
    obtain ⟨item, _, _, -, -, -, rfl⟩ := FinalizerPass.call_effect hcall
    exact RowsFollow.refl fun u hwrites => hwrites
  | store op hother => exact RowsFollow.of_kept (exec_cancellationKept hinv.store hother) hno
  | handle i r w phase effect hr hhandle =>
    rcases CancellationRequest.handle_cases hhandle with ⟨rfl, rfl, -⟩ | ⟨_, rfl, -, rfl, -⟩ |
      ⟨write, status, hphase, -, rfl, rfl⟩ | ⟨_, -, -, rfl, rfl⟩
    · exact RowsFollow.refl hno
    · exact RowsFollow.refl fun u hwrites => hwrites
    · apply setCancellation_follows
      rintro cancelAt rfl
      obtain ⟨e, -, -, -, hdeadline⟩ := hinv.deadlines i r cancelAt status hr hphase
      simp only [hdeadline, coolingOff]
      omega
    · exact RowsFollow.refl fun u hwrites => hwrites
  | finalize k p p' w effect hp hfinalize =>
    rcases FinalizerPass.finalize_cases hfinalize with ⟨rfl, rfl⟩ | ⟨item, -, -, rfl, heffect⟩
    · exact RowsFollow.refl hno
    · have hchanges : Changes env s.world (completeCancellation s.world item.userID p.now).1 :=
        completeCancellation_changes s.world item.userID p.now
      apply RowsFollow.of_kept hchanges.cancellationKept
      rcases heffect with rfl | ⟨rfl, -⟩ <;> exact fun u hwrites => hwrites
  | restoreFailed j restore w e hrestore hupdate =>
    have hchanges := restoreUpdate_changes s.world restore.id
      (hinv.restores restore (List.mem_of_getElem? hrestore))
    rw [hupdate] at hchanges
    exact RowsFollow.of_kept hchanges.cancellationKept hno
  | restored j restore w hrestore hupdate => exact restoreUpdate_follows hupdate

theorem CancellationInv.step {log : List CancellationEvent} {e : CancellationEvent}
    (h : CancellationInv env log s) (hstep : CancellationStep env servers s e s') :
    CancellationInv env (log ++ [e]) s' := by
  have hmove := hstep.move
  refine ⟨hmove.storeInv h.store h.restores, hmove.restores h.restores, ?_, ?_⟩
  · intro i r' cancelAt status hr' hphase
    rcases hmove.request hr' with hold | hasked | ⟨hlabel, r, hr, hid, -, hhandle⟩
    · obtain ⟨c, hc, hcomputed⟩ := h.deadlines i r' cancelAt status hold hphase
      exact ⟨c, List.mem_append_left _ hc, hcomputed⟩
    · rw [hasked] at hphase
      cases hphase
    · refine ⟨e, by simp, hlabel, ?_⟩
      rw [hphase] at hhandle
      rcases CancellationRequest.handle_cases hhandle with ⟨-, -, hnot, -⟩ |
        ⟨_, -, -, heffect, hwriting⟩ | ⟨_, _, -, hanswering, -⟩ | ⟨_, -, hanswered, -⟩
      · exact absurd rfl (hnot cancelAt status)
      · cases hwriting
        exact ⟨by rw [heffect, hid], by rw [hstep.1]⟩
      · cases hanswering
      · cases hanswered
  · intro r' hr'
    rcases hmove.rowsFollow h r' hr' with hnormal | ⟨cancelAt, heffect, hcooling⟩ |
      ⟨r, hr, hkept, hsilent⟩
    · exact Or.inl hnormal
    · rw [heffect] at hmove
      obtain ⟨i, request, status, hlabel, hrequest, hid, hphase⟩ := hmove.wrote
      have hcomputed := h.deadlines i request cancelAt status hrequest hphase
      rw [hid] at hcomputed
      refine Or.inr ⟨cancelAt, hcooling, log, e, [], i, rfl, hlabel, heffect, hcomputed, ?_⟩
      intro e' he'
      cases he'
    · rcases h.rows r hr with hnormal | ⟨cancelAt, hcooling, hlast⟩
      · exact Or.inl (hkept.normal hnormal)
      · refine Or.inr ⟨cancelAt, hkept.coolingOff hcooling, ?_⟩
        rw [hkept.id]
        exact hlast.snoc hsilent

theorem CancellationInv.run {start : ℕ} {log : List CancellationEvent}
    (hrun : CancellationRun env servers (CancellationState.fresh env start) log s) :
    CancellationInv env log s :=
  hrun.history (P := CancellationInv env) (fun _ hinv hstep => hinv.step hstep)
    (CancellationInv.fresh start)

/-- The finalizer deletes an account only when the last write to its cancellation was a submit
whose deadline has passed, and no account stands between the two statuses. -/
theorem deletion_follows_cooling_off {start : ℕ} {log : List CancellationEvent}
    (hrun : CancellationRun env servers (CancellationState.fresh env start) log s) :
    (∀ before e after u now, log = before ++ e :: after → e.effect = .deleted u now →
      ∃ cancelAt, LastSubmit before u cancelAt ∧ cancelAt ≤ now) ∧
    ∀ r ∈ s.world.db.users.rows, r.Normal ∨ ∃ cancelAt, r.CoolingOff cancelAt := by
  constructor
  · rintro before e after u now rfl hdeleted
    obtain ⟨t, hbefore, hrest⟩ := Run.of_append hrun
    obtain ⟨t', hstep, -⟩ := Run.of_cons hrest
    have hmove := hstep.move
    rw [hdeleted] at hmove
    obtain ⟨r, hr, rfl, hdue⟩ := hmove.deleted
    obtain ⟨hstatus, ⟨cancelAt, hcancelAt, hle⟩, -⟩ := UserRow.isDue_iff.mp hdue
    rcases (CancellationInv.run hbefore).rows r hr with hnormal | ⟨deadline, hcooling, hlast⟩
    · rw [hnormal.2] at hcancelAt
      cases hcancelAt
    · rw [hcooling.2] at hcancelAt
      cases hcancelAt
      exact ⟨cancelAt, hlast, hle⟩
  · intro r hr
    rcases (CancellationInv.run hrun).rows r hr with hnormal | ⟨cancelAt, hcooling, -⟩
    · exact Or.inl hnormal
    · exact Or.inr ⟨cancelAt, hcooling⟩

end

/-- A submit at time zero, and a finalizer that deletes the account when the time has come. -/
def cooledOff : List CancellationLabel :=
  [.store (.createAccount "13800000000" "" ""), .ask firstUserID cancellationActionSubmit,
    .handle 0, .handle 0, .handle 0, .handle 0, .store (.advance coolingOff), .startPass,
    .finalize 0, .finalize 0, .call 0 1 true, .finalize 0, .finalize 0]

theorem account_deleted_after_cooling_off :
    ∃ cancelAt, LastSubmit (((CancellationState.fresh .unary 0).runAll .unary [1]
      cooledOff).1.take 12) firstUserID cancelAt ∧ cancelAt ≤ coolingOff :=
  (deletion_follows_cooling_off
    (CancellationState.runAll_run .unary [1] (.fresh .unary 0) cooledOff)).1 _
    ⟨coolingOff, .finalize 0, .deleted firstUserID coolingOff⟩ [] firstUserID coolingOff
    (by decide) rfl

end PapeSdk
