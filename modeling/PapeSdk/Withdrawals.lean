import PapeSdk.CancellationSafety

/-!
Withdrawals that are acknowledged. After the write of a withdrawal its account
is not due any more, so no later list contains it and no deletion touches it.
Two orders of steps break the promise: the write may come after the deletion,
which the handler does not notice, and a list made before the write may still
be worked off, roles and all, after the answer. Without these two the promise
holds in every run.
-/

namespace PapeSdk

open KeyedTables EventRuns

/-- The account is live and its cancellation is under way. -/
def CancellationState.CoolsOff (s : CancellationState) (u : ℕ) : Prop :=
  ∃ r ∈ s.world.db.users.rows, r.isLive u = true ∧
    r.cancellationStatus = cancellationStatusCoolingOff

instance (s : CancellationState) (u : ℕ) : Decidable (s.CoolsOff u) :=
  inferInstanceAs (Decidable (∃ r ∈ s.world.db.users.rows, r.isLive u = true ∧
    r.cancellationStatus = cancellationStatusCoolingOff))

def PassStage.Calls (openID : String) : PassStage → Prop
  | .calling item waiting _ => waiting ≠ [] ∧ item.openID = openID
  | _ => False

instance (openID : String) : DecidablePred (PassStage.Calls openID)
  | .calling item waiting _ => inferInstanceAs (Decidable (waiting ≠ [] ∧ item.openID = openID))
  | .starting | .idle | .unbound _ => inferInstanceAs (Decidable False)

/-- The pass has yet to call a server for this account. -/
def FinalizerPass.MayCall (servers : List UInt32) (openID : String) (p : FinalizerPass) : Prop :=
  (servers ≠ [] ∧ ∃ item ∈ p.todo, item.openID = openID) ∨ p.stage.Calls openID

instance (servers : List UInt32) (openID : String) :
    DecidablePred (FinalizerPass.MayCall servers openID) :=
  fun p => inferInstanceAs (Decidable ((servers ≠ [] ∧ ∃ item ∈ p.todo, item.openID = openID) ∨
    p.stage.Calls openID))

/-- About to write, the request finds its account live; about to answer success, a new submit has
followed or no pass has yet to call a server for the account. -/
def HandlerPhase.InTime (servers : List UInt32) (s : CancellationState) (u : ℕ) :
    HandlerPhase → Prop
  | .writing _ _ => ∃ row ∈ s.world.db.users.rows, row.isLive u = true
  | .answering (.ok _) => s.CoolsOff u ∨ ∀ p ∈ s.passes, ¬ p.MayCall servers (toString u)
  | _ => True

instance (servers : List UInt32) (s : CancellationState) (u : ℕ) :
    DecidablePred (HandlerPhase.InTime servers s u)
  | .writing _ _ => inferInstanceAs (Decidable (∃ row ∈ s.world.db.users.rows, row.isLive u = true))
  | .answering (.ok _) => inferInstanceAs (Decidable
      (s.CoolsOff u ∨ ∀ p ∈ s.passes, ¬ p.MayCall servers (toString u)))
  | .answering (.error _) | .asked | .loaded _ _ | .answered => inferInstanceAs (Decidable True)

/-- A request for a withdrawal takes its next step in time. -/
def WithdrawsInTime (servers : List UInt32) (s : CancellationState) : CancellationLabel → Prop
  | .handle i => ∀ r ∈ s.requests[i]?, r.action = cancellationActionWithdraw →
      r.phase.InTime servers s r.userID
  | _ => True

instance (servers : List UInt32) (s : CancellationState) :
    DecidablePred (WithdrawsInTime servers s)
  | .handle i => inferInstanceAs (Decidable (∀ r ∈ s.requests[i]?,
      r.action = cancellationActionWithdraw → r.phase.InTime servers s r.userID))
  | .ask _ _ | .startPass | .finalize _ | .call _ _ _ | .restoreSelect _ _ | .restoreUpdate _
  | .store _ => inferInstanceAs (Decidable True)

/-- A step that, if it belongs to a withdrawal, is in time. -/
def TimelyStep (env : Externals) (servers : List UInt32) (s : CancellationState)
    (e : CancellationEvent) (s' : CancellationState) : Prop :=
  CancellationStep env servers s e s' ∧ WithdrawsInTime servers s e.label

/-- The write of a submit. -/
def CancellationEffect.Submits (u : ℕ) : CancellationEffect → Prop
  | .wrote id (.submit _) => id = u
  | _ => False

instance (u : ℕ) : DecidablePred (CancellationEffect.Submits u)
  | .wrote id (.submit _) => inferInstanceAs (Decidable (id = u))
  | .wrote _ .withdraw | .wrote _ .reset | .silent | .computed _ _ | .restored _ | .answered _ _ _
  | .called _ _ | .deleted _ _ => inferInstanceAs (Decidable False)

/-- Every withdrawal that answered success has written, and unless a submit was written after
that, the account is not deleted after the write and its roles are not unbound after the answer. -/
def WithdrawalsHonoured (log : List CancellationEvent) : Prop :=
  ∀ upto answer after i u status, log = upto ++ answer :: after → answer.label = .handle i →
    answer.effect = .answered u cancellationActionWithdraw (.ok status) →
    ∃ before write mid, upto = before ++ write :: mid ∧ write.label = .handle i ∧
      write.effect = .wrote u .withdraw ∧
      ((∃ e ∈ mid ++ answer :: after, e.effect.Submits u) ∨
        (∀ e ∈ mid ++ answer :: after, ∀ now, e.effect ≠ .deleted u now) ∧
        ∀ e ∈ after, ∀ server, e.effect ≠ .called (toString u) server)

section
variable {env : Externals} {servers : List UInt32} {s s' t : CancellationState}
  {log : List CancellationEvent} {e : CancellationEvent} {u : ℕ}

theorem due_of_mem_dueCancellations {w : World} {now limit : ℕ} {item : DueCancellation}
    (h : item ∈ dueCancellations w now limit) :
    ∃ r ∈ w.db.users.rows, r.isDue now = true ∧ item.openID = toString r.id := by
  unfold dueCancellations at h
  obtain ⟨r, hr, rfl⟩ := List.mem_map.mp h
  have hsorted := List.mem_of_mem_take hr
  rw [List.mem_insertionSort, List.mem_filter] at hsorted
  exact ⟨r, hsorted.1, hsorted.2, rfl⟩

theorem coolsOff_of_due {r : UserRow} {now : ℕ} (hr : r ∈ s.world.db.users.rows)
    (hdue : r.isDue now = true) : s.CoolsOff r.id := by
  obtain ⟨hstatus, -, hlive⟩ := UserRow.isDue_iff.mp hdue
  exact ⟨r, hr, UserRow.isLive_iff.mpr ⟨rfl, hlive⟩, hstatus⟩

/-- The write of a withdrawal ends the cancellation. -/
theorem not_coolsOff_of_withdraw (hinv : CancellationInv env log s)
    (hstep : CancellationStep env servers s e s') (hwrite : e.effect = .wrote u .withdraw) :
    ¬ s'.CoolsOff u := by
  rintro ⟨r', hr', hlive, hstatus⟩
  obtain ⟨hid, -⟩ := UserRow.isLive_iff.mp hlive
  rcases hstep.move.rowsFollow hinv r' hr' with hnormal | ⟨cancelAt, heffect, -⟩ |
    ⟨r, -, hkept, hsilent⟩
  · rw [hnormal.1] at hstatus
    cases hstatus
  · rw [hwrite] at heffect
    cases heffect
  · apply hsilent
    rw [hwrite]
    exact hid.symm.trans hkept.id

/-- Only a submit starts a cancellation, and only an account with one is deleted. -/
theorem step_quiet (hinv : CancellationInv env log s) (hquiet : ¬ s.CoolsOff u)
    (hstep : CancellationStep env servers s e s') (hsubmit : ¬ e.effect.Submits u) :
    ¬ s'.CoolsOff u ∧ ∀ now, e.effect ≠ .deleted u now := by
  constructor
  · rintro ⟨r', hr', hlive, hstatus⟩
    obtain ⟨hid, hdeleted⟩ := UserRow.isLive_iff.mp hlive
    rcases hstep.move.rowsFollow hinv r' hr' with hnormal | ⟨cancelAt, heffect, -⟩ |
      ⟨r, hr, hkept, -⟩
    · rw [hnormal.1] at hstatus
      cases hstatus
    · rw [hid] at heffect
      rw [heffect] at hsubmit
      exact hsubmit rfl
    · refine hquiet ⟨r, hr, UserRow.isLive_iff.mpr ⟨?_, hkept.live hdeleted⟩, ?_⟩
      · exact hkept.id.symm.trans hid
      · exact hkept.status.symm.trans hstatus
  · intro now heffect
    have hmove := hstep.move
    rw [heffect] at hmove
    obtain ⟨r, hr, rfl, hdue⟩ := hmove.deleted
    exact hquiet (coolsOff_of_due hr hdue)

theorem mayCall_of_finalize {p p' : FinalizerPass} {w : World} {effect : CancellationEffect}
    (h : p.finalize servers s.world = some (w, p', effect)) (hquiet : ¬ s.CoolsOff u)
    (hcall : p'.MayCall servers (toString u)) : p.MayCall servers (toString u) := by
  unfold FinalizerPass.finalize at h
  split at h
  · cases h
    rcases hcall with ⟨-, item, hitem, hopen⟩ | hstage
    · obtain ⟨r, hr, hdue, hrow⟩ := due_of_mem_dueCancellations hitem
      have hid := toString_injective (hrow.symm.trans hopen)
      rw [← hid] at hquiet
      exact absurd (coolsOff_of_due hr hdue) hquiet
    · cases hstage
  · next hidle =>
    split at h
    · cases h
    next item rest htodo =>
    split at h
    · next hnone =>
      cases h
      rcases hcall with ⟨hsome, -⟩ | hstage
      · exact absurd hnone hsome
      · simp only [hidle] at hstage
        cases hstage
    · next hsome =>
      cases h
      rcases hcall with ⟨-, item', hitem, hopen⟩ | ⟨-, hopen⟩
      · exact Or.inl ⟨hsome, item', by rw [htodo]; exact List.mem_cons_of_mem _ hitem, hopen⟩
      · exact Or.inl ⟨hsome, item, by rw [htodo]; exact List.mem_cons_self, hopen⟩
  · cases h
    rcases hcall with htodo | hstage
    · exact Or.inl htodo
    · simp only at hstage
      split at hstage <;> cases hstage
  · cases h
  · split at h
    all_goals
      cases h
      rcases hcall with htodo | hstage
      · exact Or.inl htodo
      · cases hstage

theorem mayCall_of_call {p p' : FinalizerPass} {server : UInt32} {ok : Bool}
    {effect : CancellationEffect} {openID : String} (h : p.call server ok = some (p', effect))
    (hcall : p'.MayCall servers openID ∨ ∃ server', effect = .called openID server') :
    p.MayCall servers openID := by
  obtain ⟨item, waiting, failed, hstage, hmem, rfl, rfl⟩ := FinalizerPass.call_effect h
  have hwaiting : waiting ≠ [] := List.ne_nil_of_mem hmem
  rcases hcall with (htodo | ⟨-, hopen⟩) | ⟨server', heffect⟩
  · exact Or.inl htodo
  · exact Or.inr (by rw [hstage]; exact ⟨hwaiting, hopen⟩)
  · cases heffect
    exact Or.inr (by rw [hstage]; exact ⟨hwaiting, rfl⟩)

/-- Without a cancellation under way no pass takes the account up again. -/
theorem step_uncalled (hquiet : ¬ s.CoolsOff u)
    (hnone : ∀ p ∈ s.passes, ¬ p.MayCall servers (toString u))
    (hstep : CancellationStep env servers s e s') :
    (∀ p ∈ s'.passes, ¬ p.MayCall servers (toString u)) ∧
      ∀ server, e.effect ≠ .called (toString u) server := by
  obtain ⟨time, l, effect⟩ := e
  have hmove := hstep.move
  simp only at hmove ⊢
  cases hmove with
  | ask | store | restoreRefused | restoreSelected | restoreFailed | restored =>
    exact ⟨hnone, fun _ heffect => by cases heffect⟩
  | handle i r w phase effect hr hhandle =>
    refine ⟨hnone, ?_⟩
    intro server heffect
    exact absurd heffect ((CancellationRequest.handle_effect hhandle).1 _ server)
  | startPass =>
    refine ⟨?_, fun _ heffect => by cases heffect⟩
    intro p hp
    rcases List.mem_append.mp hp with hold | hnew
    · exact hnone p hold
    · rw [List.mem_singleton.mp hnew]
      rintro (⟨-, item, hitem, -⟩ | hstage)
      · cases hitem
      · cases hstage
  | finalize k p p' w effect hp hfinalize =>
    have hp := hnone p (List.mem_of_getElem? hp)
    constructor
    · intro q hq
      rcases List.mem_or_eq_of_mem_set hq with hold | rfl
      · exact hnone q hold
      · exact fun hcall => hp (mayCall_of_finalize hfinalize hquiet hcall)
    · intro server heffect
      exact absurd heffect ((FinalizerPass.finalize_effect hfinalize).2.1 _ server)
  | call k server ok p p' effect hp hcall =>
    have hp := hnone p (List.mem_of_getElem? hp)
    constructor
    · intro q hq
      rcases List.mem_or_eq_of_mem_set hq with hold | rfl
      · exact hnone q hold
      · exact fun hmay => hp (mayCall_of_call hcall (Or.inl hmay))
    · intro server' heffect
      exact hp (mayCall_of_call hcall (Or.inr ⟨server', heffect⟩))

theorem quiet_run {seen : List CancellationEvent} (hinv : CancellationInv env seen s)
    (hquiet : ¬ s.CoolsOff u) (hrun : CancellationRun env servers s log t) :
    CancellationInv env (seen ++ log) t ∧ ((∃ e ∈ log, e.effect.Submits u) ∨
      ¬ t.CoolsOff u ∧ ∀ e ∈ log, ∀ now, e.effect ≠ .deleted u now) := by
  refine hrun.history (P := fun log t => CancellationInv env (seen ++ log) t ∧
    ((∃ e ∈ log, e.effect.Submits u) ∨
      ¬ t.CoolsOff u ∧ ∀ e ∈ log, ∀ now, e.effect ≠ .deleted u now))
    ?_ ⟨by simpa using hinv, Or.inr ⟨hquiet, by simp⟩⟩
  intro before a e b _ hlaw hstep
  obtain ⟨ha, hlaw⟩ := hlaw
  refine ⟨by rw [← List.append_assoc]; exact ha.step hstep, ?_⟩
  rcases hlaw with ⟨e', he', hsubmit⟩ | ⟨haquiet, hdeleted⟩
  · exact Or.inl ⟨e', List.mem_append_left _ he', hsubmit⟩
  by_cases hsubmit : e.effect.Submits u
  · exact Or.inl ⟨e, by simp, hsubmit⟩
  · obtain ⟨hbquiet, hlast⟩ := step_quiet ha haquiet hstep hsubmit
    refine Or.inr ⟨hbquiet, ?_⟩
    intro e' he'
    rcases List.mem_append.mp he' with hold | hnew
    · exact hdeleted e' hold
    · rw [List.mem_singleton.mp hnew]
      exact hlast

theorem uncalled_run {seen : List CancellationEvent} (hinv : CancellationInv env seen s)
    (hquiet : ¬ s.CoolsOff u) (hnone : ∀ p ∈ s.passes, ¬ p.MayCall servers (toString u))
    (hrun : CancellationRun env servers s log t) :
    (∃ e ∈ log, e.effect.Submits u) ∨ (∀ p ∈ t.passes, ¬ p.MayCall servers (toString u)) ∧
      ∀ e ∈ log, ∀ server, e.effect ≠ .called (toString u) server := by
  refine hrun.history (P := fun log t => (∃ e ∈ log, e.effect.Submits u) ∨
    (∀ p ∈ t.passes, ¬ p.MayCall servers (toString u)) ∧
      ∀ e ∈ log, ∀ server, e.effect ≠ .called (toString u) server) ?_ (Or.inr ⟨hnone, by simp⟩)
  intro before a e b hbefore hlaw hstep
  rcases hlaw with ⟨e', he', hsubmit⟩ | ⟨hanone, hcalled⟩
  · exact Or.inl ⟨e', List.mem_append_left _ he', hsubmit⟩
  rcases (quiet_run hinv hquiet hbefore).2 with ⟨e', he', hsubmit⟩ | ⟨haquiet, -⟩
  · exact Or.inl ⟨e', List.mem_append_left _ he', hsubmit⟩
  obtain ⟨hbnone, hlast⟩ := step_uncalled haquiet hanone hstep
  refine Or.inr ⟨hbnone, ?_⟩
  intro e' he'
  rcases List.mem_append.mp he' with hold | hnew
  · exact hcalled e' hold
  · rw [List.mem_singleton.mp hnew]
    exact hlast

/-- A request for a withdrawal writes nothing else, and has written before it answers success. -/
structure WithdrawalInv (log : List CancellationEvent) (s : CancellationState) : Prop where
  writes : ∀ (i : ℕ) (r : CancellationRequest) write status, s.requests[i]? = some r →
    r.action = cancellationActionWithdraw → r.phase = .writing write status → write = .withdraw
  written : ∀ (i : ℕ) (r : CancellationRequest) status, s.requests[i]? = some r →
    r.action = cancellationActionWithdraw →
    r.phase = .answering (.ok status) → ∃ before write mid, log = before ++ write :: mid ∧
      write.label = .handle i ∧ write.effect = .wrote r.userID .withdraw

theorem WithdrawalInv.step (h : WithdrawalInv log s) (hstep : TimelyStep env servers s e s') :
    WithdrawalInv (log ++ [e]) s' := by
  have hmove := hstep.1.move
  constructor
  · intro i r' write status hr' haction hphase
    rcases hmove.request hr' with hold | hasked | ⟨-, r, hr, -, hsame, hhandle⟩
    · exact h.writes i r' write status hold haction hphase
    · rw [hasked] at hphase
      cases hphase
    · rw [hphase] at hhandle
      rw [hsame] at haction
      rcases CancellationRequest.handle_cases hhandle with ⟨-, -, -, hwithdraw⟩ |
        ⟨_, -, hsubmit, -⟩ | ⟨_, _, -, hanswering, -⟩ | ⟨_, -, hanswered, -⟩
      · exact (hwithdraw haction).2 write status rfl
      · rw [haction] at hsubmit
        cases hsubmit
      · cases hanswering
      · cases hanswered
  · intro i r' status hr' haction hphase
    rcases hmove.request hr' with hold | hasked | ⟨hlabel, r, hr, hid, hsame, hhandle⟩
    · obtain ⟨before, write, mid, rfl, hwrite⟩ := h.written i r' status hold haction hphase
      exact ⟨before, write, mid ++ [e], by simp, hwrite⟩
    · rw [hasked] at hphase
      cases hphase
    · rw [hphase] at hhandle
      rw [hsame] at haction
      rcases CancellationRequest.handle_cases hhandle with ⟨-, -, -, hwithdraw⟩ |
        ⟨_, -, hsubmit, -⟩ | ⟨write, _, hwriting, -, -, heffect⟩ | ⟨_, -, hanswered, -⟩
      · exact absurd rfl ((hwithdraw haction).1 status)
      · rw [haction] at hsubmit
        cases hsubmit
      · have hwithdraw := h.writes i r write _ hr haction hwriting
        have htimely := hstep.2
        rw [hlabel] at htimely
        have hrow := htimely r hr haction
        rw [hwriting] at hrow
        obtain ⟨row, hrow, hlive⟩ := hrow
        rw [if_neg fun hzero => Table.affected_eq_zero.mp hzero row hrow hlive] at heffect
        exact ⟨log, e, [], rfl, hlabel, by rw [heffect, hwithdraw, hid]⟩
      · cases hanswered

theorem TimelyStep.run {start : ℕ}
    (h : Run (TimelyStep env servers) (CancellationState.fresh env start) log s) :
    CancellationRun env servers (CancellationState.fresh env start) log s :=
  h.mono fun _ _ _ hstep => hstep.1

theorem WithdrawalInv.run {start : ℕ}
    (h : Run (TimelyStep env servers) (CancellationState.fresh env start) log s) :
    WithdrawalInv log s := by
  refine h.history (P := WithdrawalInv) (fun _ hinv hstep => hinv.step hstep) ⟨?_, ?_⟩
  all_goals
    intros
    simp_all [CancellationState.fresh]

theorem CancellationMove.answer {l : CancellationLabel} {action : ℤ} {reply : Except String ℕ}
    (h : CancellationMove env servers s l (.answered u action reply) s') :
    ∃ i r, l = .handle i ∧ s.requests[i]? = some r ∧ r.userID = u ∧ r.action = action ∧
      r.phase = .answering reply := by
  cases h with
  | handle i r w phase effect hr hhandle =>
    rcases CancellationRequest.handle_cases hhandle with ⟨-, heffect, -⟩ | ⟨_, -, -, heffect, -⟩ |
      ⟨_, _, -, -, -, heffect⟩ | ⟨_, hphase, -, -, heffect⟩
    · cases heffect
    · cases heffect
    · split at heffect <;> cases heffect
    · cases heffect
      exact ⟨i, r, rfl, hr, rfl, rfl, hphase⟩
  | finalize k p p' w effect hp hfinalize =>
    exact absurd rfl ((FinalizerPass.finalize_effect hfinalize).2.2 u action reply)
  | call k server ok p p' effect hp hcall =>
    obtain ⟨_, _, _, -, -, -, heffect⟩ := FinalizerPass.call_effect hcall
    cases heffect

/-- In every run whose withdrawals are in time, the acknowledged ones are honoured. -/
theorem timely_withdrawals_honoured {start : ℕ}
    (hrun : Run (TimelyStep env servers) (CancellationState.fresh env start) log s) :
    WithdrawalsHonoured log := by
  rintro upto answer after i u status rfl hlabel hanswer
  obtain ⟨t, hupto, hrest⟩ := Run.of_append hrun
  obtain ⟨t', ⟨hstep, htimely⟩, hafter⟩ := Run.of_cons hrest
  have hmove := hstep.move
  rw [hanswer] at hmove
  obtain ⟨i', r, hlabel', hr, rfl, haction, hphase⟩ := hmove.answer
  cases hlabel.symm.trans hlabel'
  obtain ⟨before, write, mid, rfl, hwlabel, hwrite⟩ :=
    (WithdrawalInv.run hupto).written i r status hr haction hphase
  refine ⟨before, write, mid, rfl, hwlabel, hwrite, ?_⟩
  by_cases hsubmit : ∃ e ∈ mid ++ answer :: after, e.effect.Submits r.userID
  · exact Or.inl hsubmit
  apply Or.inr
  -- no submit follows the write, so the account stays out of danger from there on
  obtain ⟨a, hbefore, hmid⟩ := Run.of_append hupto
  obtain ⟨b, ⟨hwstep, -⟩, hmid⟩ := Run.of_cons hmid
  have ha := CancellationInv.run (TimelyStep.run hbefore)
  have hb := ha.step hwstep
  have hbquiet := not_coolsOff_of_withdraw ha hwstep hwrite
  have hwhole : CancellationRun env servers b (mid ++ answer :: after) s :=
    (Run.append hmid hrest).mono fun _ _ _ h => h.1
  refine ⟨((quiet_run hb hbquiet hwhole).2.resolve_left hsubmit).2, ?_⟩
  have hmid' : CancellationRun env servers b mid t := hmid.mono fun _ _ _ h => h.1
  obtain ⟨ht, hmidquiet⟩ := quiet_run hb hbquiet hmid'
  have htquiet := (hmidquiet.resolve_left fun ⟨e, he, hsub⟩ =>
    hsubmit ⟨e, List.mem_append_left _ he, hsub⟩).1
  rw [hlabel] at htimely
  have htimely := htimely r hr haction
  rw [hphase] at htimely
  have hnone := htimely.resolve_left htquiet
  obtain ⟨ht'none, -⟩ := step_uncalled htquiet hnone hstep
  have ht'quiet := (step_quiet ht htquiet hstep (by rw [hanswer]; exact fun hsub => hsub)).1
  have hafter' : CancellationRun env servers t' after s := hafter.mono fun _ _ _ h => h.1
  refine ((uncalled_run (ht.step hstep) ht'quiet ht'none hafter').resolve_left ?_).2
  rintro ⟨e, he, hsub⟩
  exact hsubmit ⟨e, by simp [he], hsub⟩

end

/-- Every step of the list that is taken is in time. -/
def CancellationState.allInTime (env : Externals) (servers : List UInt32) (s : CancellationState) :
    List CancellationLabel → Bool
  | [] => true
  | l :: rest =>
    match s.step env servers l with
    | none => true
    | some (s', _) => decide (WithdrawsInTime servers s l) && s'.allInTime env servers rest

theorem CancellationState.runAll_timely {env : Externals} {servers : List UInt32}
    {s : CancellationState} (labels : List CancellationLabel)
    (h : s.allInTime env servers labels = true) :
    Run (TimelyStep env servers) s (s.runAll env servers labels).1
      (s.runAll env servers labels).2 := by
  induction labels generalizing s with
  | nil => exact Run.refl s
  | cons l rest ih =>
    rw [runAll]
    rw [allInTime] at h
    split
    · exact Run.refl s
    · next s' effect hstep =>
      simp only [hstep, Bool.and_eq_true, decide_eq_true_eq] at h
      exact Run.append (Run.single ⟨⟨rfl, hstep⟩, h.1⟩) (ih h.2)

/-- A submit at time zero and a withdrawal well before its deadline. -/
def withdrawn : List CancellationLabel :=
  [.store (.createAccount "13800000000" "" ""), .ask firstUserID cancellationActionSubmit,
    .handle 0, .handle 0, .handle 0, .handle 0, .ask firstUserID cancellationActionWithdraw,
    .handle 1, .handle 1, .handle 1, .handle 1, .store (.advance coolingOff), .startPass,
    .finalize 0]

theorem early_withdrawal_honoured :
    WithdrawalsHonoured ((CancellationState.fresh .unary 0).runAll .unary [1] withdrawn).1 :=
  timely_withdrawals_honoured (CancellationState.runAll_timely withdrawn (by decide))

/-- A withdrawal that is decided just before the deadline and written just after a finalizer has
listed the account. -/
def withdrawnLate : List CancellationLabel :=
  [.store (.createAccount "13800000000" "" ""), .ask firstUserID cancellationActionSubmit,
    .handle 0, .handle 0, .handle 0, .handle 0, .store (.advance (coolingOff - 1)),
    .ask firstUserID cancellationActionWithdraw, .handle 1, .handle 1, .store (.advance 1),
    .startPass, .finalize 0, .handle 1, .handle 1, .finalize 0, .call 0 1 true]

/-- The roles of an account are unbound after its withdrawal has answered success. -/
theorem late_withdrawal_not_honoured :
    ¬ ∀ servers log s, CancellationRun .unary servers (.fresh .unary 0) log s →
      WithdrawalsHonoured log := by
  intro h
  have hlog := h [1] _ _ (CancellationState.runAll_run .unary [1] _ withdrawnLate)
  obtain ⟨before, write, mid, hsplit, -, hwrite, hsubmit | ⟨-, hcalled⟩⟩ := hlog
    (((CancellationState.fresh .unary 0).runAll .unary [1] withdrawnLate).1.take 14)
    ⟨coolingOff, .handle 1, .answered firstUserID cancellationActionWithdraw (.ok 1)⟩
    [⟨coolingOff, .finalize 0, .silent⟩, ⟨coolingOff, .call 0 1 true, .called "100000001" 1⟩]
    1 firstUserID 1 (by decide) rfl rfl
  · -- the only submit was written before the withdrawal
    have horder : ((CancellationState.fresh .unary 0).runAll .unary [1] withdrawnLate).1.Pairwise
        fun a b => a.effect = .wrote firstUserID .withdraw → ¬ b.effect.Submits firstUserID := by
      decide
    have hwhole : ((CancellationState.fresh .unary 0).runAll .unary [1] withdrawnLate).1 =
        (((CancellationState.fresh .unary 0).runAll .unary [1] withdrawnLate).1.take 14) ++
          [⟨coolingOff, .handle 1, .answered firstUserID cancellationActionWithdraw (.ok 1)⟩,
            ⟨coolingOff, .finalize 0, .silent⟩,
            ⟨coolingOff, .call 0 1 true, .called "100000001" 1⟩] := by
      decide
    rw [hwhole, hsplit, List.append_assoc, List.pairwise_append, List.cons_append,
      List.pairwise_cons] at horder
    obtain ⟨e, he, hsub⟩ := hsubmit
    exact horder.2.1.1 e he hwrite hsub
  · exact hcalled ⟨coolingOff, .call 0 1 true, .called "100000001" 1⟩ (by simp) 1 rfl

end PapeSdk
