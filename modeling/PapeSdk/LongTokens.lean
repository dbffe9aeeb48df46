import PapeSdk.RowSteps

/-!
Long tokens and the revocation of an account. A long token stands in its users
row without an expiry and is turned away only while the row has the flag of an
account-wide revocation. Nothing but a login takes the flag back, and a login
does not ask whether the row still carries a long token.
-/

namespace PapeSdk

open KeyedTables EventRuns

/-- The long token is accepted for the account. -/
def World.acceptsLong (w : World) (token : String) (id : ℕ) : Bool :=
  match userByLongToken w token with
  | .ok (some user) => user.id == id
  | _ => false

/-- The row is revoked if it carries a long token. -/
def UserRow.LongCut (r : UserRow) : Prop := r.longToken ≠ none → r.tokenRevokedAt ≠ none

/-- No long token of the account is good for anything. -/
def LongTokensCut (w : World) (id : ℕ) : Prop := ∀ r ∈ w.db.users.rows, r.id = id → r.LongCut

/-- A step that neither logs the account in nor gives it another long token. -/
def StepWithoutLogin (env : Externals) (id : ℕ) (w : World) (e : Event) (w' : World) : Prop :=
  StoreStep env w e w' ∧ (∀ token, e.op ≠ .setLongToken id token) ∧ ¬ e.op.LogsIn env w id

section
variable {env : Externals} {w w' : World} {id : ℕ} {token : String}

/-- The live, unrevoked row behind an accepted long token. -/
theorem acceptsLong_row (h : w.acceptsLong token id = true) :
    ∃ r ∈ w.db.users.rows, r.id = id ∧ r.longToken = some token ∧ r.deletedAt = none ∧
      r.tokenRevokedAt = none := by
  unfold World.acceptsLong at h
  split at h
  · next user hlookup =>
    unfold userByLongToken at hlookup
    split at hlookup
    · cases hlookup
    · obtain ⟨r, hfirst, rfl⟩ := Option.map_eq_some_iff.mp (Except.ok.inj hlookup)
      have hholds := Table.first?_holds hfirst
      simp only [Bool.and_eq_true, beq_iff_eq, Option.isNone_iff_eq_none] at hholds
      exact ⟨r, Table.mem_of_first? hfirst, beq_iff_eq.mp h, hholds.1.1, hholds.1.2, hholds.2⟩
  · cases h

theorem LongTokensCut.not_accepted (h : LongTokensCut w id) : w.acceptsLong token id = false := by
  by_contra haccepted
  obtain ⟨r, hr, hid, hlong, -, hflag⟩ := acceptsLong_row (by simpa using haccepted)
  exact h r hr hid (by simp [hlong]) hflag

/-- Revoking the account that a long token was accepted for cuts it off. -/
theorem revokeTokens_cut (h : w.acceptsLong token id = true) :
    LongTokensCut (revokeTokens w id).1 id := by
  obtain ⟨a, ha, haid, -, hlive, -⟩ := acceptsLong_row h
  intro r' hr' hid' _
  rcases Table.of_mem_updated hr' with ⟨r, -, -, rfl⟩ | ⟨hr, hnot⟩
  · intro hflag
    cases hflag
  · have hsame : r' = a := w.db.user_eq_of_id hr ha (hid'.trans haid.symm)
    have hislive : r'.isLive id = true := by
      rw [hsame]
      exact UserRow.isLive_iff.mpr ⟨haid, hlive⟩
    rw [hislive] at hnot
    cases hnot

/-- The flag of a row is taken back by a login alone. -/
theorem RowStep.cut {op : Op} {r r' : UserRow} (h : RowStep env w op r r')
    (hlong : ∀ token, op ≠ .setLongToken r.id token) (hlogin : ¬ op.LogsIn env w r.id)
    (hcut : r.LongCut) : r'.LongCut := by
  cases h with
  | loggedIn pair hlogs => exact absurd hlogs hlogin
  | longToken token hset => exact absurd hset (hlong token)
  | revoked hop =>
    intro _ hflag
    cases hflag
  | deleted time =>
    intro hset
    exact absurd rfl hset
  | same | refreshed | rebound | password | overridden | cancellation | restored | email =>
    exact hcut

theorem LongTokensCut.step (h : LongTokensCut w id) (hids : IdInv w) {e : Event}
    (hstep : StepWithoutLogin env id w e w') : LongTokensCut w' id := by
  obtain ⟨⟨-, hexec⟩, hlong, hlogin⟩ := hstep
  have hrows : RowsStep env w e.op w' := by
    have hall := exec_rows env hids e.op
    rw [hexec] at hall
    exact hall
  intro r' hr' hid'
  rcases hrows r' hr' with ⟨r, hr, hstep⟩ | hnew
  · have hid : r.id = id := hstep.sameID.symm.trans hid'
    exact hstep.cut (hid ▸ hlong) (hid ▸ hlogin) (h r hr hid)
  · intro hset
    exact absurd hnew.longToken hset

theorem LongTokensCut.run (h : LongTokensCut w id) (hids : IdInv w) {log : List Event}
    (hrun : Run (StepWithoutLogin env id) w log w') : LongTokensCut w' id := by
  have hboth : IdInv w' ∧ LongTokensCut w' id := by
    refine Run.invariant (P := fun v => IdInv v ∧ LongTokensCut v id) ?_ hrun ⟨hids, h⟩
    intro v e v' hv hstep
    exact ⟨hv.1.step hstep.1, hv.2.step hv.1 hstep⟩
  exact hboth.2

/-- On any file, a long token that was accepted stays rejected after the
revocation of its account, until the account logs in. -/
theorem long_token_stays_revoked {file w₀ w'' : World} (hfile : file.db.Sequenced)
    (hopen : openStore env file = (w₀, .ok ())) {log later : List Event} {o : Outcome}
    (hrun : StoreRun env w₀ log w) (haccepted : w.acceptsLong token id = true)
    (hrevoked : StoreStep env w ⟨w.now, .revokeTokens id, o⟩ w')
    (hlater : Run (StepWithoutLogin env id) w' later w'') :
    w''.acceptsLong token id = false := by
  have hids : IdInv w := (IdInv.opened hfile hopen).run hrun
  have hcut : LongTokensCut w' id := by
    have hworld := congrArg Prod.fst hrevoked.2
    simp only [exec, report_fst] at hworld
    rw [← hworld]
    exact revokeTokens_cut haccepted
  exact (hcut.run (hids.step hrevoked) hlater).not_accepted

end

def withLongToken : World :=
  (execAll .unary (World.fresh .unary 0)
    [.getOrCreateUser "13800000000", .setLongToken 100000001 "lt"]).2

/-- A restart and a new password leave the token rejected. -/
theorem long_token_rejected_after_restart :
    (execAll .unary withLongToken [.revokeTokens 100000001, .reopen,
      .setPasswordHash 100000001 "hash"]).2.acceptsLong "lt" 100000001 = false := by
  have hrun := execAll_run .unary (World.fresh .unary 0)
    [.getOrCreateUser "13800000000", .setLongToken 100000001 "lt"]
  have hquiet : ∀ (w : World) (op : Op), (∀ token, op ≠ .setLongToken 100000001 token) →
      ¬ op.LogsIn .unary w 100000001 →
      Run (StepWithoutLogin .unary 100000001) w [⟨w.now, op, (exec .unary w op).2⟩]
        (exec .unary w op).1 :=
    fun w op hlong hlogin => Run.single ⟨⟨rfl, rfl⟩, hlong, hlogin⟩
  have hfile : Db.blank.Sequenced := by
    intro r hr
    cases hr
  have hopen : openStore .unary ⟨Db.blank, 0, 0⟩ = (World.fresh .unary 0, .ok ()) := rfl
  refine long_token_stays_revoked (o := .done) hfile hopen hrun
    (by decide +kernel) ⟨rfl, rfl⟩ ((hquiet _ .reopen ?_ ?_).append
      (hquiet _ (.setPasswordHash 100000001 "hash") ?_ ?_))
  · intro token h
    cases h
  · exact id
  · intro token h
    cases h
  · exact id

/-- The account's next login makes the revoked long token good again. -/
theorem long_token_revived :
    ¬ ∀ (env : Externals) (file w₀ w w' w'' : World) (log later : List Event) (id : ℕ)
        (token : String) (o : Outcome), file.db.Sequenced →
      openStore env file = (w₀, .ok ()) → StoreRun env w₀ log w →
      w.acceptsLong token id = true → StoreStep env w ⟨w.now, .revokeTokens id, o⟩ w' →
      StoreRun env w' later w'' → (∀ e ∈ later, ∀ token', e.op ≠ .setLongToken id token') →
      w''.acceptsLong token id = false := by
  intro hclaim
  have hrun := execAll_run .unary (World.fresh .unary 0)
    [.getOrCreateUser "13800000000", .setLongToken 100000001 "lt"]
  have hlater := execAll_run .unary (exec .unary withLongToken (.revokeTokens 100000001)).1
    [.getOrCreateUser "13800000000"]
  have hrejected := hclaim .unary ⟨Db.blank, 0, 0⟩ _ _ _ _ _ _ 100000001 "lt" .done
    (by intro r hr; cases hr) rfl hrun (by decide +kernel) ⟨rfl, rfl⟩ hlater
    (by intro e he token' h; cases List.mem_singleton.mp he; cases h)
  have haccepted : (execAll .unary (exec .unary withLongToken (.revokeTokens 100000001)).1
      [.getOrCreateUser "13800000000"]).2.acceptsLong "lt" 100000001 = true := by
    decide +kernel
  rw [hrejected] at haccepted
  cases haccepted

end PapeSdk
