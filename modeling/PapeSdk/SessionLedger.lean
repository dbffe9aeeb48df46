import PapeSdk.StoreInvariant
import PapeSdk.TokenLedger

/-!
The session table as a ledger of tokens. A token is good while it stands in an
unrevoked row; every operation keeps, revokes or removes rows, or writes a
pair drawn in that very operation. Under the store invariant the join with the
users table decides nothing more, so acceptance is a matter of one row.
-/

namespace PapeSdk

open KeyedTables EventRuns TokenLedger

/-- `UserByToken` finds the account `u`. -/
def AcceptsAccess (w : World) (token : String) (u : ℕ) : Prop :=
  ∃ user, userByToken w token = .ok (some user) ∧ user.id = u

/-- `UserByRefreshToken` finds the account `u`. -/
def AcceptsRefresh (w : World) (token : String) (u : ℕ) : Prop :=
  ∃ user, userByRefreshToken w token = .ok (some user) ∧ user.id = u

/-- `RefreshByToken` succeeds for the account `u`. -/
def AcceptsRotation (env : Externals) (w : World) (token : String) (u : ℕ) : Prop :=
  ∃ user access, (refreshByToken env w token).2 = .ok (user, access) ∧ user.id = u

/-- One of the three lookups takes the token. -/
def Accepted (env : Externals) (w : World) (token : String) : Prop :=
  ∃ u, AcceptsAccess w token u ∨ AcceptsRefresh w token u ∨ AcceptsRotation env w token u

/-- The row that makes an access token good. -/
def AuthSession.GrantsAccess (s : AuthSession) (now : ℕ) : Prop :=
  s.revokedAt = none ∧ now ≤ s.accessExpiresAt

def AuthSession.GrantsRefresh (s : AuthSession) (now : ℕ) : Prop :=
  s.revokedAt = none ∧ now ≤ s.refreshExpiresAt

section
variable {env : Externals} {w w' w'' : World}

theorem SessionInv.access_ne_empty (h : SessionInv env w) {s : AuthSession}
    (hs : s ∈ w.db.authSessions.rows) : s.accessToken ≠ "" := by
  obtain ⟨i, -, haccess, -⟩ := h.drawn s hs
  rw [haccess]
  exact env.makeToken_ne_empty _ _

theorem SessionInv.refresh_ne_empty (h : SessionInv env w) {s : AuthSession}
    (hs : s ∈ w.db.authSessions.rows) : s.refreshToken ≠ "" := by
  obtain ⟨i, -, -, hrefresh⟩ := h.drawn s hs
  rw [hrefresh]
  exact env.makeToken_ne_empty _ _

/-- An open session joins with its owner. -/
theorem SessionInv.join (h : SessionInv env w) {p : AuthSession → Bool} {s : AuthSession}
    (hs : s ∈ w.db.authSessions.rows) (hp : p s = true) (hopen : s.revokedAt = none)
    (hunique : ∀ a ∈ w.db.authSessions.rows, p a = true → a = s) :
    ∃ u, u.id = s.userID ∧ w.db.joinSession p = some (s, u) := by
  obtain ⟨u, hu, hid⟩ := h.owner s hs
  obtain ⟨hlive, hflag⟩ := h.openOwner s hs u hu hid hopen
  exact ⟨u, hid, Db.joinSession_eq hs hp hopen hunique hu hid hlive hflag⟩

/-- The session behind a user that a lookup answers with. -/
theorem session_of_join {p : AuthSession → Bool} {user : User}
    (h : (w.db.joinSession p).map (fun (s, u) => u.scanWith s.accessToken (some s.refreshToken)) =
      some user) :
    ∃ s ∈ w.db.authSessions.rows, p s = true ∧ s.userID = user.id ∧ s.revokedAt = none := by
  obtain ⟨⟨s, row⟩, hjoin, hscan⟩ := Option.map_eq_some_iff.mp h
  obtain ⟨hs, hp, hopen, -, hid, -⟩ := Db.joinSession_some hjoin
  rw [← hscan]
  exact ⟨s, hs, hp, hid.symm, hopen⟩

theorem acceptsAccess_iff (h : SessionInv env w) {token : String} {u : ℕ} :
    AcceptsAccess w token u ↔ ∃ s ∈ w.db.authSessions.rows,
      s.accessToken = token ∧ s.userID = u ∧ s.GrantsAccess w.now := by
  constructor
  · rintro ⟨user, hfound, rfl⟩
    unfold userByToken at hfound
    split at hfound
    · cases hfound
    obtain ⟨s, hs, hp, howner, hopen⟩ := session_of_join (Except.ok.inj hfound)
    simp only [Bool.and_eq_true, beq_iff_eq, decide_eq_true_eq] at hp
    exact ⟨s, hs, hp.1, howner, hopen, hp.2⟩
  · rintro ⟨s, hs, rfl, rfl, hopen, hfresh⟩
    obtain ⟨row, hid, hjoin⟩ := h.join
      (p := fun a => a.accessToken == s.accessToken && w.now ≤ a.accessExpiresAt) hs
      (by simpa using hfresh) hopen
      (fun a ha hp => w.db.session_eq_of_access ha hs (by
        simp only [Bool.and_eq_true, beq_iff_eq] at hp
        exact hp.1))
    refine ⟨row.scanWith s.accessToken (some s.refreshToken), ?_, hid⟩
    rw [userByToken, if_neg (h.access_ne_empty hs), hjoin]
    rfl

/-- The row that the lookup by a refresh token joins with its owner. -/
theorem SessionInv.join_refresh (h : SessionInv env w) {s : AuthSession}
    (hs : s ∈ w.db.authSessions.rows) (hgrants : s.GrantsRefresh w.now) :
    ∃ u, u.id = s.userID ∧ w.db.joinSession (fun a => a.refreshToken == s.refreshToken &&
      w.now ≤ a.refreshExpiresAt) = some (s, u) := by
  apply h.join hs (by simpa using hgrants.2) hgrants.1
  intro a ha hp
  simp only [Bool.and_eq_true, beq_iff_eq] at hp
  exact w.db.session_eq_of_refresh ha hs hp.1

theorem acceptsRefresh_iff (h : SessionInv env w) {token : String} {u : ℕ} :
    AcceptsRefresh w token u ↔ ∃ s ∈ w.db.authSessions.rows,
      s.refreshToken = token ∧ s.userID = u ∧ s.GrantsRefresh w.now := by
  constructor
  · rintro ⟨user, hfound, rfl⟩
    unfold userByRefreshToken at hfound
    split at hfound
    · cases hfound
    obtain ⟨s, hs, hp, howner, hopen⟩ := session_of_join (Except.ok.inj hfound)
    simp only [Bool.and_eq_true, beq_iff_eq, decide_eq_true_eq] at hp
    exact ⟨s, hs, hp.1, howner, hopen, hp.2⟩
  · rintro ⟨s, hs, rfl, rfl, hgrants⟩
    obtain ⟨row, hid, hjoin⟩ := h.join_refresh hs hgrants
    refine ⟨row.scanWith s.accessToken (some s.refreshToken), ?_, hid⟩
    rw [userByRefreshToken, if_neg (h.refresh_ne_empty hs), hjoin]
    rfl

/-- A new pair shares no value with a row of the table. -/
theorem SessionInv.fresh_pair (h : SessionInv env w) (hrand : env.NeverRepeats) {s : AuthSession}
    (hs : s ∈ w.db.authSessions.rows) :
    s.accessToken ≠ (newTokenPair env w).access ∧
      s.refreshToken ≠ (newTokenPair env w).refresh := by
  obtain ⟨i, hi, haccess, hrefresh⟩ := h.drawn s hs
  constructor
  · intro heq
    have := hrand _ _ _ _ (haccess.symm.trans heq)
    omega
  · intro heq
    have := hrand _ _ _ _ (hrefresh.symm.trans heq)
    omega

/-- The update of a refresh meets no unique constraint. -/
theorem SessionInv.update_rotating (h : SessionInv env w) (hrand : env.NeverRepeats)
    (id token : String) :
    ∃ sessions, w.db.authSessions.update? (AuthSession.isRotating id token w.now)
      (fun s => s.rotated (newTokenPair env w) w.now) = some sessions := by
  have happart : (w.db.authSessions.rows.map fun s =>
      if AuthSession.isRotating id token w.now s then s.rotated (newTokenPair env w) w.now else s
      ).Pairwise (Apart sessionKeys) := by
    rw [List.pairwise_map]
    apply w.db.authSessions.apart.imp_of_mem
    intro a b ha hb hab
    have hid : a.id ≠ b.id := by
      intro heq
      exact hab (.id a.id) (by simp [sessionKeys]) (by simp [sessionKeys, heq])
    have hfresh := fun s hs => h.fresh_pair hrand (s := s) hs
    have hone : ∀ {s : AuthSession}, AuthSession.isRotating id token w.now s = true →
        s.id = id := by
      intro s hrotating
      simp only [AuthSession.isRotating, Bool.and_eq_true, beq_iff_eq] at hrotating
      exact hrotating.1.1.1
    split
    · next hra =>
      split
      · next hrb => exact absurd ((hone hra).trans (hone hrb).symm) hid
      · intro k hk hk'
        simp only [sessionKeys, AuthSession.rotated, List.mem_cons, List.not_mem_nil, or_false]
          at hk hk'
        rcases hk with rfl | rfl | rfl <;> simp at hk'
        · exact hid hk'
        · exact (hfresh b hb).1 hk'.symm
        · exact (hfresh b hb).2 hk'.symm
    · split
      · intro k hk hk'
        simp only [sessionKeys, AuthSession.rotated, List.mem_cons, List.not_mem_nil, or_false]
          at hk hk'
        rcases hk with rfl | rfl | rfl <;> simp at hk'
        · exact hid hk'
        · exact (hfresh a ha).1 hk'
        · exact (hfresh a ha).2 hk'
      · exact hab
  exact ⟨_, Table.ofRows?_some happart⟩

theorem acceptsRotation_iff (h : SessionInv env w) (hrand : env.NeverRepeats) {token : String}
    {u : ℕ} :
    AcceptsRotation env w token u ↔ ∃ s ∈ w.db.authSessions.rows,
      s.refreshToken = token ∧ s.userID = u ∧ s.GrantsRefresh w.now := by
  constructor
  · rintro ⟨user, access, hresult, rfl⟩
    rcases hcall : refreshByToken env w token with ⟨w', result⟩
    rw [hcall] at hresult
    rcases refreshAuthSession_cases hcall with ⟨e, -, rfl, -⟩ | ⟨s, row, -, hjoin, -, rfl, -⟩
    · cases hresult
    · obtain ⟨hs, hp, hopen, -, hid, -⟩ := Db.joinSession_some hjoin
      simp only [Bool.and_eq_true, beq_iff_eq, decide_eq_true_eq] at hp
      cases hresult
      exact ⟨s, hs, hp.1, hid.symm, hopen, hp.2⟩
  · rintro ⟨s, hs, rfl, rfl, hgrants⟩
    obtain ⟨row, hid, hjoin⟩ := h.join_refresh hs hgrants
    obtain ⟨sessions, hsessions⟩ := h.update_rotating hrand s.id s.refreshToken
    have hone : w.db.authSessions.affected
        (AuthSession.isRotating s.id s.refreshToken w.now) = 1 := by
      apply Table.affected_eq_one (k := .id s.id) hs (by simp [sessionKeys])
      · simp [AuthSession.isRotating, hgrants.1, hgrants.2]
      · intro a ha hrotating
        simp only [AuthSession.isRotating, Bool.and_eq_true, beq_iff_eq] at hrotating
        exact w.db.session_eq_of_id ha hs hrotating.1.1.1
    obtain ⟨-, -, -, hrow, hid', hlive, -⟩ := Db.joinSession_some hjoin
    have hfirst : (w.db.users.touch (UserRow.isLive s.userID)
        (fun r => r.withPair (newTokenPair env w) w.now)).first? (UserRow.isLive s.userID) =
          some (row.withPair (newTokenPair env w) w.now) :=
      Db.first?_touch_live hrow (UserRow.isLive_iff.mpr ⟨hid', hlive⟩) (fun _ => rfl) fun _ => rfl
    refine ⟨(row.withPair (newTokenPair env w) w.now).scan, (newTokenPair env w).access, ?_, hid⟩
    simp only [refreshByToken, refreshAuthSession, if_neg (h.refresh_ne_empty hs), hjoin, hsessions,
      hone, hfirst]
    rfl

/-- A row whose pair was drawn on the way from `w` to `w'`. -/
def AuthSession.Drawn (env : Externals) (w w' : World) (s : AuthSession) : Prop :=
  ∃ n, w.draws ≤ n ∧ n + 1 < w'.draws ∧ s.accessToken = env.makeToken "pt" n ∧
    s.refreshToken = env.makeToken "rt" (n + 1) ∧
    s.accessExpiresAt = w.now + accessTokenTTL ∧ s.refreshExpiresAt = w.now + refreshTokenTTL

structure SessionStep (env : Externals) (w w' : World) : Prop where
  now : w'.now = w.now
  draws : w.draws ≤ w'.draws
  rows : ∀ s' ∈ w'.db.authSessions.rows,
    (∃ s ∈ w.db.authSessions.rows, s.Kept s') ∨ s'.Drawn env w w'

theorem SessionStep.of_noNew (hnow : w'.now = w.now) (hdraws : w.draws ≤ w'.draws)
    (hrows : NoNewSession w w') : SessionStep env w w' :=
  ⟨hnow, hdraws, fun s hs => Or.inl (hrows s hs)⟩

theorem SessionStep.of_sub (hnow : w'.now = w.now) (hdraws : w.draws ≤ w'.draws)
    (hrows : ∀ s ∈ w'.db.authSessions.rows, s ∈ w.db.authSessions.rows) : SessionStep env w w' :=
  SessionStep.of_noNew hnow hdraws (NoNewSession.of_sub hrows)

theorem SessionStep.trans (h : SessionStep env w w') (h' : SessionStep env w' w'') :
    SessionStep env w w'' := by
  refine ⟨h'.now.trans h.now, le_trans h.draws h'.draws, ?_⟩
  intro s'' hs''
  rcases h'.rows s'' hs'' with ⟨s', hs', hkept'⟩ | ⟨n, hlow, hhigh, haccess, hrefresh, hexpires⟩
  · rcases h.rows s' hs' with ⟨s, hs, hkept⟩ | ⟨n, hlow, hhigh, hdrawn⟩
    · exact Or.inl ⟨s, hs, hkept.trans hkept'⟩
    · refine Or.inr ⟨n, hlow, lt_of_lt_of_le hhigh h'.draws, ?_⟩
      rw [hkept'.1]
      exact hdrawn
  · exact Or.inr ⟨n, le_trans h.draws hlow, hhigh, haccess, hrefresh, h.now ▸ hexpires⟩

theorem Change.sessionStep {k : Effect} (h : Change env w k w') : SessionStep env w w' := by
  cases h with
  | draw n hn | comet n rows hn => exact SessionStep.of_sub rfl hn fun _ hs => hs
  | touch | create | rebind | restore =>
    exact SessionStep.of_sub rfl (le_refl _) fun _ hs => hs
  | revokeSession | revokeTokens | delete =>
    exact SessionStep.of_noNew rfl (le_refl _) (NoNewSession.of_revoked rfl)
  | hardDelete id =>
    exact SessionStep.of_sub rfl (le_refl _) fun s hs => (Table.mem_delete.mp hs).1
  | login row sessions hrow hlive hsessions =>
    refine ⟨rfl, Nat.le_add_right _ _, ?_⟩
    intro s hs
    rcases (Table.mem_insert? hsessions).mp hs with hold | rfl
    · exact Or.inl ⟨s, hold, AuthSession.Kept.refl s⟩
    · exact Or.inr ⟨w.draws, le_refl _, by simp, rfl, rfl, rfl, rfl⟩
  | refresh session row sessions hjoin hsessions =>
    refine ⟨rfl, Nat.le_add_right _ _, ?_⟩
    intro s hs
    rcases Table.of_mem_update? hsessions hs with ⟨a, ha, -, rfl⟩ | ⟨hold, -⟩
    · exact Or.inr ⟨w.draws, le_refl _, by simp, rfl, rfl, rfl, rfl⟩
    · exact Or.inl ⟨s, hold, AuthSession.Kept.refl s⟩

theorem Changes.sessionStep (h : Changes env w w') : SessionStep env w w' := by
  induction h with
  | refl => exact SessionStep.of_sub rfl (le_refl _) fun _ hs => hs
  | tail _ hchange ih =>
    obtain ⟨k, hchange⟩ := hchange
    exact ih.trans hchange.sessionStep

/-- Between two ticks of the clock an operation only makes a session step. -/
theorem exec_sessionStep (h : StoreInv env w) (op : Op) (hop : ∀ n, op ≠ .advance n) :
    SessionStep env w (exec env w op).1 := by
  refine exec_cases (fun _ hchanges => hchanges.sessionStep)
    (fun userID status cancelAt _ => ?_) (fun rows events sequence _ => ?_) (fun _ => ?_)
    (fun seconds hadvance => absurd hadvance (hop seconds))
  · exact SessionStep.of_sub rfl (le_refl _) fun _ hs => hs
  · exact SessionStep.of_sub rfl (le_refl _) fun _ hs => hs
  · rw [openStore_of_inv h]
    exact SessionStep.of_sub rfl (le_refl _) fun _ hs => hs

/-- A step of a run only moves the clock, or it is a session step. -/
theorem StoreStep.clock_or_session {e : Event} (hstep : StoreStep env w e w')
    (hinv : StoreInv env w) : (∃ n, w' = { w with now := w.now + n }) ∨ SessionStep env w w' := by
  by_cases hop : ∃ n, e.op = .advance n
  · obtain ⟨n, hop⟩ := hop
    have hworld := congrArg Prod.fst hstep.2
    simp only [hop, exec] at hworld
    exact Or.inl ⟨n, hworld.symm⟩
  · have hsession := exec_sessionStep hinv e.op fun n hn => hop ⟨n, hn⟩
    rw [hstep.2] at hsession
    exact Or.inr hsession

def World.carries (w : World) (token : String) : Prop :=
  ∃ s ∈ w.db.authSessions.rows, s.accessToken = token ∨ s.refreshToken = token

/-- All tokens drawn so far, and those of them in an unrevoked row. -/
def World.ledger (env : Externals) (w : World) : Ledger String where
  live := { token | ∃ s ∈ w.db.authSessions.rows, s.revokedAt = none ∧
    (s.accessToken = token ∨ s.refreshToken = token) }
  seen := { token | (∃ pre i, i < w.draws ∧ token = env.makeToken pre i) ∨ w.carries token }
  live_seen := by
    rintro token ⟨s, hs, -, htoken⟩
    exact Or.inr ⟨s, hs, htoken⟩

theorem SessionInv.drawn_of_carries (h : SessionInv env w) {token : String}
    (hcarries : w.carries token) : ∃ pre i, i < w.draws ∧ token = env.makeToken pre i := by
  obtain ⟨s, hs, htoken⟩ := hcarries
  obtain ⟨i, hi, haccess, hrefresh⟩ := h.drawn s hs
  rcases htoken with rfl | rfl
  · exact ⟨"pt", i, by omega, haccess⟩
  · exact ⟨"rt", i + 1, hi, hrefresh⟩

theorem SessionInv.drawn_of_seen (h : SessionInv env w) {token : String}
    (hseen : token ∈ (w.ledger env).seen) : ∃ pre i, i < w.draws ∧ token = env.makeToken pre i := by
  rcases hseen with hdrawn | hcarries
  · exact hdrawn
  · exact h.drawn_of_carries hcarries

/-- A session step is a step of the ledger: pairs that never repeat cannot revive a token. -/
theorem SessionStep.ledger (h : SessionStep env w w') (hinv : SessionInv env w)
    (hrand : env.NeverRepeats) : Ledger.Step (w.ledger env) (w'.ledger env) := by
  constructor
  · intro token hseen
    obtain ⟨pre, i, hi, htoken⟩ := hinv.drawn_of_seen hseen
    exact Or.inl ⟨pre, i, lt_of_lt_of_le hi h.draws, htoken⟩
  · rintro token ⟨s', hs', hopen, htoken⟩ hseen
    obtain ⟨pre, i, hi, hdraw⟩ := hinv.drawn_of_seen hseen
    rcases h.rows s' hs' with ⟨s, hs, hkept⟩ | ⟨n, hlow, -, haccess, hrefresh, -⟩
    · refine ⟨s, hs, hkept.2 hopen, ?_⟩
      rw [hkept.1] at htoken
      exact htoken
    · rcases htoken with htoken | htoken
      · have := hrand _ _ _ _ (haccess.symm.trans (htoken.trans hdraw))
        omega
      · have := hrand _ _ _ _ (hrefresh.symm.trans (htoken.trans hdraw))
        omega

theorem StoreStep.ledger {e : Event} (hstep : StoreStep env w e w') (hinv : StoreInv env w)
    (hrand : env.NeverRepeats) : Ledger.Step (w.ledger env) (w'.ledger env) := by
  rcases hstep.clock_or_session hinv with ⟨n, rfl⟩ | hsession
  · exact Ledger.Step.refl _
  · exact hsession.ledger hinv.sessions hrand

theorem Accepted.live {token : String} (h : Accepted env w token) (hinv : SessionInv env w)
    (hrand : env.NeverRepeats) : token ∈ (w.ledger env).live := by
  obtain ⟨u, haccess | hrefresh | hrotation⟩ := h
  · obtain ⟨s, hs, htoken, -, hopen, -⟩ := (acceptsAccess_iff hinv).mp haccess
    exact ⟨s, hs, hopen, Or.inl htoken⟩
  · obtain ⟨s, hs, htoken, -, hopen, -⟩ := (acceptsRefresh_iff hinv).mp hrefresh
    exact ⟨s, hs, hopen, Or.inr htoken⟩
  · obtain ⟨s, hs, htoken, -, hopen, -⟩ := (acceptsRotation_iff hinv hrand).mp hrotation
    exact ⟨s, hs, hopen, Or.inr htoken⟩

/-- A spent token is accepted in no continuation. -/
theorem not_accepted_of_spent (hinv : StoreInv env w) (hrand : env.NeverRepeats) {token : String}
    (hspent : (w.ledger env).Spent token) {log : List Event} (hrun : StoreRun env w log w') :
    ¬ Accepted env w' token := by
  have hlater : StoreInv env w' := hrun.invariant (fun hv hstep => hv.step hstep) hinv
  have hspent' : (w'.ledger env).Spent token :=
    Ledger.spent_run (fun hv hstep => hv.step hstep) (fun hv hstep => hstep.ledger hv hrand)
      hrun hinv hspent
  intro haccepted
  exact hspent'.2 (haccepted.live hlater.sessions hrand)

end

end PapeSdk
