import PapeSdk.SessionRotation

/-!
Account-wide revocation. Sign-out everywhere, both kinds of soft deletion and
the hard deletion leave no open session of the account behind. The rows that
carry a token issued to an account can only be rows of that account, so all
its tokens are spent from then on, whatever happens later.
-/

namespace PapeSdk

open KeyedTables EventRuns TokenLedger

/-- A session row of `u` carries the token. -/
def World.Holds (w : World) (u : ℕ) (token : String) : Prop :=
  ∃ s ∈ w.db.authSessions.rows, s.userID = u ∧ (s.accessToken = token ∨ s.refreshToken = token)

/-- The token was returned in a pair for `u`, or stood in a session row of `u`. -/
def IssuedTo (env : Externals) (start : ℕ) (log : List Event) (u : ℕ) (token : String) : Prop :=
  (∃ e ∈ log, ∃ user c, e.outcome = .session user c ∧ user.id = u ∧
    (user.token = token ∨ user.refreshToken = some token)) ∨
  ∃ before after w, log = before ++ after ∧ StoreRun env (World.fresh env start) before w ∧
    w.Holds u token

/-- The operations that end all sessions of `u`. -/
def Event.Revokes (e : Event) (u : ℕ) : Prop :=
  e.op = .revokeTokens u ∨ e.op = .deleteUser u ∧ e.outcome = .done ∨
    (∃ now, e.op = .completeCancellation u now ∧ e.outcome = .flag true) ∨ e.op = .hardDeleteUser u

/-- The token is out, and only rows of `u` may carry it. -/
structure World.Belongs (env : Externals) (w : World) (token : String) (u : ℕ) : Prop where
  seen : token ∈ (w.ledger env).seen
  rows : ∀ s ∈ w.db.authSessions.rows, s.accessToken = token ∨ s.refreshToken = token → s.userID = u

section
variable {env : Externals} {w w' w'' : World} {u : ℕ} {token : String}

theorem World.Holds.belongs (h : w.Holds u token) (hinv : SessionInv env w) :
    w.Belongs env token u := by
  obtain ⟨s, hs, rfl, htoken⟩ := h
  refine ⟨Or.inr ⟨s, hs, htoken⟩, ?_⟩
  intro a ha htoken'
  have hsame : a = s := by
    obtain ⟨i, -, haccess, hrefresh⟩ := hinv.drawn s hs
    obtain ⟨j, -, haccess', hrefresh'⟩ := hinv.drawn a ha
    rcases htoken with rfl | rfl <;> rcases htoken' with htoken' | htoken'
    · exact w.db.session_eq_of_access ha hs htoken'
    · exact absurd (haccess.symm.trans (htoken'.symm.trans hrefresh'))
        (env.access_ne_refresh i (j + 1))
    · exact absurd (haccess'.symm.trans (htoken'.trans hrefresh)) (env.access_ne_refresh j (i + 1))
    · exact w.db.session_eq_of_refresh ha hs htoken'
  rw [hsame]

theorem SessionStep.belongs (h : SessionStep env w w') (hinv : SessionInv env w)
    (hrand : env.NeverRepeats) (hb : w.Belongs env token u) : w'.Belongs env token u := by
  refine ⟨(h.ledger hinv hrand).seen token hb.seen, ?_⟩
  intro s' hs' htoken
  rcases h.rows s' hs' with ⟨s, hs, hkept⟩ | ⟨n, hn, -, haccess, hrefresh, -⟩
  · rw [hkept.1] at htoken ⊢
    exact hb.rows s hs htoken
  · obtain ⟨pre, i, hi, hdraw⟩ := hinv.drawn_of_seen hb.seen
    rcases htoken with htoken | htoken
    · have := hrand _ _ _ _ (haccess.symm.trans (htoken.trans hdraw))
      omega
    · have := hrand _ _ _ _ (hrefresh.symm.trans (htoken.trans hdraw))
      omega

theorem StoreStep.belongs {e : Event} (hstep : StoreStep env w e w') (hinv : StoreInv env w)
    (hrand : env.NeverRepeats) (hb : w.Belongs env token u) : w'.Belongs env token u := by
  rcases hstep.clock_or_session hinv with ⟨n, rfl⟩ | hsession
  · exact ⟨hb.seen, hb.rows⟩
  · exact hsession.belongs hinv.sessions hrand hb

theorem StoreRun.belongs {log : List Event} (hrun : StoreRun env w log w') (hinv : StoreInv env w)
    (hrand : env.NeverRepeats) (hb : w.Belongs env token u) : w'.Belongs env token u := by
  have hboth : StoreInv env w' ∧ w'.Belongs env token u := by
    refine Run.invariant (P := fun v => StoreInv env v ∧ v.Belongs env token u) ?_ hrun ⟨hinv, hb⟩
    intro v e v' hv hstep
    exact ⟨hv.1.step hstep, hstep.belongs hv.1 hrand hv.2⟩
  exact hboth.2

/-- Whatever was issued to an account still belongs to it. -/
theorem IssuedTo.belongs {start : ℕ} {log : List Event} (h : IssuedTo env start log u token)
    (hrand : env.NeverRepeats) (hrun : StoreRun env (World.fresh env start) log w) :
    w.Belongs env token u := by
  rcases h with ⟨e, he, user, c, houtcome, rfl, htoken⟩ | ⟨before, after, v, rfl, hbefore, hholds⟩
  · obtain ⟨before, after, v, v', rfl, hbefore, hstep, hafter⟩ := Run.exists_step hrun he
    have hinv : StoreInv env v := StoreInv.run hbefore
    have hexec : exec env v e.op = (v', .session user c) := by rw [hstep.2, houtcome]
    obtain ⟨s, hs, haccess, hrefresh, howner, -⟩ := exec_hasSession hinv hexec
    have hholds : v'.Holds user.id token := by
      refine ⟨s, hs, howner, ?_⟩
      rcases htoken with htoken | htoken
      · exact Or.inl (haccess.trans htoken)
      · exact Or.inr (Option.some.inj (hrefresh.symm.trans htoken))
    have hinv' := hinv.step hstep
    exact StoreRun.belongs hafter hinv' hrand (hholds.belongs hinv'.sessions)
  · obtain ⟨v', hbefore', hafter⟩ := Run.of_append hrun
    cases hbefore.unique hbefore' fun _ _ _ _ h h' => h.unique h'
    have hinv : StoreInv env v := StoreInv.run hbefore
    exact StoreRun.belongs hafter hinv hrand (hholds.belongs hinv.sessions)

theorem closed_of_revoked {now : ℕ} : ∀ s ∈ (w.db.revokeSessionsOf u now).rows,
    s.userID = u → s.revokedAt ≠ none := by
  intro s hs howner hopen
  rcases Table.of_mem_updated hs with ⟨a, -, -, rfl⟩ | ⟨-, hkept⟩
  · cases hopen
  · simp [howner, hopen] at hkept

/-- No open session of the account is left. -/
theorem Event.Revokes.closes {e : Event} (h : e.Revokes u) (hinv : SessionInv env w)
    (hstep : StoreStep env w e w') :
    ∀ s ∈ w'.db.authSessions.rows, s.userID = u → s.revokedAt ≠ none := by
  obtain ⟨time, op, outcome⟩ := e
  obtain ⟨-, hexec⟩ := hstep
  rcases h with hop | ⟨hop, hdone⟩ | ⟨now, hop, hflag⟩ | hop
  · have hop : op = .revokeTokens u := hop
    subst hop
    have hw := congrArg Prod.fst hexec
    simp only [exec, report_fst, revokeTokens] at hw
    rw [← hw]
    exact closed_of_revoked
  · have hop : op = .deleteUser u := hop
    have hdone : outcome = .done := hdone
    subst hop hdone
    rcases report_cases hexec with ⟨e, -, ho⟩ | ⟨_, hr, -⟩
    · cases ho
    · unfold deleteUser at hr
      split at hr
      · cases hr
      · cases hr
        exact closed_of_revoked
  · have hop : op = .completeCancellation u now := hop
    have hflag : outcome = .flag true := hflag
    subst hop hflag
    rcases report_cases hexec with ⟨e, -, ho⟩ | ⟨b, hr, ho⟩
    · cases ho
    · cases ho
      unfold completeCancellation at hr
      simp only at hr
      split at hr
      · cases hr
      split at hr
      · cases hr
      · cases hr
        exact closed_of_revoked
  · have hop : op = .hardDeleteUser u := hop
    subst hop
    have hw := congrArg Prod.fst hexec
    simp only [exec, report_fst, hardDeleteUser] at hw
    intro s hs howner
    split at hw
    · next hmissing =>
      -- without a users row the account had no session before the call either
      rw [← hw] at hs
      obtain ⟨row, hrow, hid⟩ := hinv.owner s hs
      refine absurd ?_ hmissing
      apply Table.affected_eq_one (k := .id row.id) hrow (mem_userKeys.mpr (Or.inl rfl))
      · simp [hid, howner]
      · intro a ha hmatch
        exact w.db.user_eq_of_id ha hrow (by simpa [hid, howner] using hmatch)
    · rw [← hw] at hs
      simp [Table.delete, howner] at hs

/-- After an account-wide revocation no token issued to the account is accepted again. -/
theorem revocation_is_permanent (hrand : env.NeverRepeats) {start : ℕ} {log later : List Event}
    {e : Event} (hrun : StoreRun env (World.fresh env start) log w) (hstep : StoreStep env w e w')
    (hrevokes : e.Revokes u) (hissued : IssuedTo env start log u token)
    (hlater : StoreRun env w' later w'') : ¬ Accepted env w'' token := by
  have hinv : StoreInv env w := StoreInv.run hrun
  have hbelongs := hstep.belongs hinv hrand (hissued.belongs hrand hrun)
  refine not_accepted_of_spent (hinv.step hstep) hrand ⟨hbelongs.seen, ?_⟩ hlater
  rintro ⟨s, hs, hopen, htoken⟩
  exact hrevokes.closes hinv.sessions hstep s hs (hbelongs.rows s hs htoken) hopen

end

theorem revoked_pair_stays_out :
    ¬ Accepted .unary (execAll .unary (World.fresh .unary 0)
      [.getOrCreateUser "13800000000", .revokeTokens 100000001,
        .getOrCreateUser "13800000000", .reopen]).2 "pt_" := by
  have hlogin := execAll_run .unary (World.fresh .unary 0) [.getOrCreateUser "13800000000"]
  have hissued : IssuedTo .unary 0 (execAll .unary (World.fresh .unary 0)
      [.getOrCreateUser "13800000000"]).1 100000001 "pt_" :=
    Or.inl ⟨_, List.mem_cons_self, _, _, rfl, rfl, Or.inl rfl⟩
  exact revocation_is_permanent Externals.unary_neverRepeats hlogin
    (e := ⟨_, .revokeTokens 100000001, _⟩) ⟨rfl, rfl⟩ (Or.inl rfl) hissued
    (execAll_run _ _ [.getOrCreateUser "13800000000", .reopen])

end PapeSdk
