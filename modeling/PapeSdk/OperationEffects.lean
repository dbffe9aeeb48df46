import PapeSdk.StoreChanges

/-!
What an operation does to the store, said once for every operation. A call fails, or its
outcome says that its change was made; a login by code is a change or two of its own. The
others are the write of the cancellation columns, the statements on codes, a restart and
the passing of time. The results about operations are by cases on this list and on the
changes.
-/

namespace PapeSdk

open KeyedTables Identifiers

/-- The change that a call makes when it does what it is asked. -/
def Op.effect : Op → Option Effect
  | .createAccount .. => some .create
  | .refreshByToken token => some (.refresh token)
  | .revokeSessionByToken token => some (.revokeSession token)
  | .revokeTokens userID => some (.revokeTokens userID)
  | .updateBindings id .. | .updatePhone id _ | .unbindVerified id .. => some (.rebind id)
  | .setPasswordHash userID hash => some (.touch (.password userID hash))
  | .setSecurityOverride id safe => some (.touch (.override id safe))
  | .setLongToken userID token => some (.touch (.longToken userID token))
  | .completeCancellation userID _ | .deleteUser userID => some (.delete userID)
  | .restoreUser id _ => some (.restore id)
  | .hardDeleteUser id => some (.hardDelete id)
  | .createCometSession _ => some .comet
  | _ => none

/-- The outcomes that say that this change was made. -/
def Op.Granted : Op → Outcome → Prop
  | .createAccount .., o => ∃ u, o = .account u
  | .refreshByToken _, o => ∃ u, o = .session u false
  | .completeCancellation .., o => o = .flag true
  | _, o => o = .done

/-- What an effect tells of the operation that has it. -/
def Effect.Of (op : Op) : Effect → Prop
  | .refresh token => op = .refreshByToken token
  | .revokeSession token => op = .revokeSessionByToken token
  | .revokeTokens userID => op = .revokeTokens userID
  | .touch (.longToken userID token) => op = .setLongToken userID token
  | .delete userID => op = .deleteUser userID ∨ ∃ now, op = .completeCancellation userID now
  | .hardDelete id => op = .hardDeleteUser id
  | .draw | .login _ => False
  | _ => True

/-- The operations that issue a login session for an account that is there. -/
def Op.LogsIn (env : Externals) (w : World) (id : ℕ) : Op → Prop
  | .createLoginSession userID => userID = id
  | .getOrCreateUser phone => w.Finds env phone id
  | .createUser phone => ∃ x, normalizeAccount env phone = .ok x ∧ w.Finds env x id
  | _ => False

/-- Whether an operation is a call that changes accounts and sessions only. -/
def Op.isCall : Op → Bool
  | .setCancellation .. | .issueSMS .. | .mirrorSMS .. | .verifySMS .. | .reopen
  | .advance _ => false
  | _ => true

/-- What an operation leaves of the store, with its outcome. -/
inductive Performs (env : Externals) (w : World) (op : Op) : World → Outcome → Prop
  | fails (n : ℕ) (o : Outcome) (hn : w.draws ≤ n)
      (ho : ∀ k, op.effect = some k → ¬ op.Granted o) : Performs env w op { w with draws := n } o
  | succeeds (k : Effect) (w' : World) (o : Outcome) (hk : op.effect = some k)
      (ho : op.Granted o) (hchange : Change env w k w') : Performs env w op w' o
  | logsIn (id : ℕ) (w' : World) (o : Outcome) (hnone : op.effect = none)
      (hop : op.LogsIn env w id) (hlogin : Change env w (.login id) w') : Performs env w op w' o
  | registers (v w' : World) (o : Outcome) (hnone : op.effect = none)
      (hcreate : Change env w .create v)
      (hlogin : (∃ n, v.draws ≤ n ∧ w' = { v with draws := n }) ∨
        Change env v (.login w.db.nextUserID) w') : Performs env w op w' o
  | cancellation (userID status cancelAt : ℕ) (o : Outcome)
      (hop : op = .setCancellation userID status cancelAt) :
      Performs env w op (setCancellation w userID status cancelAt).1 o
  | codes (w' : World) (o : Outcome) (hop : op.isCall = false) (hstep : CodesStep w w') :
      Performs env w op w' o
  | reopens (o : Outcome) (hop : op = .reopen) : Performs env w op (openStore env w).1 o
  | waits (seconds : ℕ) (o : Outcome) (hop : op = .advance seconds) :
      Performs env w op { w with now := w.now + seconds } o

section
variable {env : Externals} {w w' : World} {op : Op} {o : Outcome} {k : Effect}

theorem Op.not_granted_failed (op : Op) (e : String) : ¬ op.Granted (.failed e) := by
  intro h
  cases op with
  | createAccount | refreshByToken =>
    obtain ⟨u, h⟩ := h
    cases h
  | _ => cases h

theorem Op.effect_of (h : op.effect = some k) : k.Of op := by
  cases op with
  | completeCancellation userID now =>
    cases h
    exact Or.inr ⟨now, rfl⟩
  | deleteUser userID =>
    cases h
    exact Or.inl rfl
  | refreshByToken | revokeSessionByToken | revokeTokens | setLongToken | hardDeleteUser =>
    cases h
    rfl
  | createAccount | updateBindings | updatePhone | unbindVerified | setPasswordHash
  | setSecurityOverride | restoreUser | createCometSession =>
    cases h
    trivial
  | _ => cases h

theorem Op.effect_of_not_isCall (h : op.isCall = false) : op.effect = none := by
  cases op with
  | setCancellation | issueSMS | mirrorSMS | verifySMS | reopen | advance => rfl
  | _ => cases h

theorem Performs.of_no_effect (hnone : op.effect = none) (n : ℕ) (o : Outcome)
    (hn : w.draws ≤ n) : Performs env w op { w with draws := n } o := by
  refine Performs.fails n o hn fun k hk => ?_
  rw [hnone] at hk
  cases hk

theorem Makes.performs {α : Type} {r : World × Except String α} (h : Makes env w k r)
    (f : α → Outcome) (hexec : exec env w op = report f r) (hk : op.effect = some k)
    (hf : ∀ a, r.2 = .ok a → op.Granted (f a)) :
    Performs env w op (exec env w op).1 (exec env w op).2 := by
  rw [hexec]
  obtain ⟨v, result⟩ := r
  rcases h with ⟨e, n, hn, hr⟩ | ⟨a, hok, hchange⟩
  · cases hr
    exact Performs.fails n _ hn fun _ _ => op.not_granted_failed e
  · have hgranted := hf a hok
    cases hok
    exact Performs.succeeds k v _ hk hgranted hchange

theorem Enters.performs {x : String} (h : Enters env w x w') (op : Op) (hnone : op.effect = none)
    (hlogs : ∀ id, w.Finds env x id → op.LogsIn env w id) (o : Outcome) :
    Performs env w op w' o := by
  cases h with
  | draws n hn => exact Performs.of_no_effect hnone n o hn
  | finds id w' hfinds hlogin => exact Performs.logsIn id w' o hnone (hlogs id hfinds) hlogin
  | opens v w' hcreate hlogin => exact Performs.registers v w' o hnone hcreate hlogin

theorem exec_performs (env : Externals) (w : World) (op : Op) :
    Performs env w op (exec env w op).1 (exec env w op).2 := by
  cases op with
  | getOrCreateUser phone =>
    simp only [exec, report_fst]
    exact (getOrCreateUser_enters w phone).performs (.getOrCreateUser phone) rfl
      (fun _ hfinds => hfinds) _
  | createUser phone =>
    simp only [exec, report_fst]
    rcases createUser_enters env w phone with hsame | ⟨x, hx, henters⟩
    · rw [hsame]
      exact Performs.of_no_effect rfl w.draws _ (le_refl _)
    · exact henters.performs (.createUser phone) rfl (fun _ hfinds => ⟨x, hx, hfinds⟩) _
  | createLoginSession userID =>
    simp only [exec, report_fst, createLoginSession]
    have hmakes : Makes env w (.login userID) (issueAuthSession env w userID) :=
      issueAuthSession_makes w userID
    rcases hmakes.world with ⟨n, hn, hworld⟩ | hlogin
    · rw [hworld]
      exact Performs.of_no_effect rfl n _ hn
    · exact Performs.logsIn userID _ _ rfl rfl hlogin
  | createAccount phone email hash =>
    exact (createAccount_makes w phone email hash).performs .account rfl rfl fun a _ => ⟨a, rfl⟩
  | refreshByToken token =>
    exact (refreshByToken_makes w token).performs (fun r => .session r.1 false) rfl rfl
      fun a _ => ⟨a.1, rfl⟩
  | revokeSessionByToken token =>
    exact (revokeSessionByToken_makes w token).performs (fun _ => .done) rfl rfl fun _ _ => rfl
  | revokeTokens userID =>
    exact Performs.succeeds _ _ _ rfl rfl (Change.revokeTokens w userID)
  | updateBindings id phone email =>
    exact (updateBindingsTx_makes w id phone email "" "").performs (fun _ => .done) rfl rfl
      fun _ _ => rfl
  | updatePhone userID account =>
    exact (updatePhone_makes w userID account).performs (fun _ => .done) rfl rfl fun _ _ => rfl
  | unbindVerified id kind retained =>
    exact (unbindVerified_makes w id kind retained).performs (fun _ => .done) rfl rfl fun _ _ => rfl
  | setPasswordHash userID hash =>
    exact Performs.succeeds _ _ _ rfl rfl (Change.touch w (.password userID hash))
  | setSecurityOverride id safe =>
    exact (setSecurityOverride_makes w id safe).performs (fun _ => .done) rfl rfl fun _ _ => rfl
  | setLongToken userID token =>
    exact Performs.succeeds _ _ _ rfl rfl (Change.touch w (.longToken userID token))
  | setCancellation userID status cancelAt =>
    simp only [exec, report_fst]
    exact Performs.cancellation userID status cancelAt _ rfl
  | completeCancellation userID now =>
    rcases completeCancellation_makes env w userID now with ⟨hmakes, hdue⟩ | hnone
    · refine hmakes.performs .flag rfl rfl fun a ha => ?_
      cases a with
      | true => rfl
      | false => exact absurd ha hdue
    · simp only [exec, hnone]
      refine Performs.fails w.draws _ (le_refl _) fun _ _ h => ?_
      cases h
  | deleteUser userID =>
    exact (deleteUser_makes w userID).performs (fun _ => .done) rfl rfl fun _ _ => rfl
  | restoreUser id phone =>
    exact (restoreUser_makes w id phone).performs (fun _ => .done) rfl rfl fun _ _ => rfl
  | hardDeleteUser id =>
    exact (hardDeleteUser_makes w id).performs (fun _ => .done) rfl rfl fun _ _ => rfl
  | createCometSession userID =>
    exact (createCometSession_makes w userID).performs (fun _ => .done) rfl rfl fun _ _ => rfl
  | issueSMS phone scene code ip =>
    simp only [exec, report_fst]
    exact Performs.codes _ _ rfl (issueSMS_step env w phone scene code ip)
  | mirrorSMS phone scene code ip =>
    simp only [exec, report_fst]
    exact Performs.codes _ _ rfl (insertSMS_step env w phone scene code ip)
  | verifySMS phone scene code =>
    simp only [exec, report_fst]
    exact Performs.codes _ _ rfl (verifySMS_step env w phone scene code)
  | reopen =>
    simp only [exec, report_fst]
    exact Performs.reopens _ rfl
  | advance seconds => exact Performs.waits seconds _ rfl

theorem StoreStep.performs {e : Event} (h : StoreStep env w e w') :
    Performs env w e.op w' e.outcome := by
  have hperforms := exec_performs env w e.op
  rw [h.2] at hperforms
  exact hperforms

theorem Performs.changes (h : Performs env w op w' o) (hcall : op.isCall = true) :
    Changes env w w' := by
  have hnot : op.isCall ≠ false := by simp [hcall]
  cases h with
  | fails n o hn => exact (Change.draw w n hn).toChanges
  | succeeds k w' o hk ho hchange => exact hchange.toChanges
  | logsIn id w' o hnone hop hlogin => exact hlogin.toChanges
  | registers v w' o hnone hcreate hlogin => exact hcreate.thenLogin hlogin
  | codes w' o hop hstep => exact absurd hop hnot
  | cancellation userID status cancelAt o hop => exact absurd (by rw [hop]; rfl) hnot
  | reopens o hop => exact absurd (by rw [hop]; rfl) hnot
  | waits seconds o hop => exact absurd (by rw [hop]; rfl) hnot

theorem exec_changes (w : World) (hcall : op.isCall = true) :
    Changes env w (exec env w op).1 := (exec_performs env w op).changes hcall

/-- What holds after every sequence of changes, every write of the cancellation columns, every
step on codes, a restart and the passing of time, holds after every operation. -/
theorem exec_cases {P : World → Prop}
    (hchanges : ∀ w', Changes env w w' → P w')
    (hcancellation : ∀ userID status cancelAt, op = .setCancellation userID status cancelAt →
      P (setCancellation w userID status cancelAt).1)
    (hcodes : ∀ rows events sequence, CodesKept w.db.smsVerifications rows →
      P { w with db := w.db.withCodes rows events sequence })
    (hreopen : op = .reopen → P (openStore env w).1)
    (hclock : ∀ seconds, op = .advance seconds → P { w with now := w.now + seconds }) :
    P (exec env w op).1 := by
  have h := exec_performs env w op
  generalize (exec env w op).1 = w', (exec env w op).2 = o at h ⊢
  cases h with
  | fails n o hn => exact hchanges _ (Change.draw w n hn).toChanges
  | succeeds k w' o hk ho hchange => exact hchanges w' hchange.toChanges
  | logsIn id w' o hnone hop hlogin => exact hchanges w' hlogin.toChanges
  | registers v w' o hnone hcreate hlogin => exact hchanges w' (hcreate.thenLogin hlogin)
  | cancellation userID status cancelAt o hop => exact hcancellation userID status cancelAt hop
  | codes w' o hop hstep =>
    obtain ⟨rows, events, sequence, hkept, rfl⟩ := hstep
    exact hcodes rows events sequence hkept
  | reopens o hop => exact hreopen hop
  | waits seconds o hop => exact hclock seconds hop

end

end PapeSdk
