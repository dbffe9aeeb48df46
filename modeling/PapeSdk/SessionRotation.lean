import PapeSdk.SessionLedger

/-!
Rotation and isolation of device sessions. A login or a refresh returns a pair
that is good at once; a refresh spends the pair it replaces; the operations on
one session leave the rows of all others as they are; and the deadlines of a
row count from the operation that drew its pair.
-/

namespace PapeSdk

open KeyedTables EventRuns TokenLedger Identifiers

section
variable {env : Externals} {w w' : World}

/-- The pair of `u` stands in an open session that is not older than a moment. -/
def User.HasSession (u : User) (w : World) : Prop :=
  ∃ s ∈ w.db.authSessions.rows, s.accessToken = u.token ∧ u.refreshToken = some s.refreshToken ∧
    s.userID = u.id ∧ s.GrantsAccess w.now ∧ s.GrantsRefresh w.now

theorem issueAuthSession_hasSession {userID : ℕ} {u : User}
    (h : issueAuthSession env w userID = (w', .ok u)) : u.HasSession w' := by
  rcases issueAuthSession_cases h with ⟨e, -, herror, -⟩ | ⟨row, sessions, -, hlive, hs, hu, rfl⟩
  · cases herror
  · cases hu
    refine ⟨newSession env w userID, (Table.mem_insert? hs).mpr (Or.inr rfl), rfl, rfl, ?_, ?_, ?_⟩
    · exact (UserRow.isLive_iff.mp hlive).1.symm
    · exact ⟨rfl, Nat.le_add_right _ _⟩
    · exact ⟨rfl, Nat.le_add_right _ _⟩

theorem refreshByToken_hasSession {token access : String} {u : User}
    (h : refreshByToken env w token = (w', .ok (u, access))) : u.HasSession w' := by
  rcases refreshAuthSession_cases h with ⟨e, -, herror, -⟩ | ⟨s, row, sessions, hjoin, hs, hu, rfl⟩
  · cases herror
  · cases hu
    obtain ⟨hrow, hp, hopen, -, hid, -⟩ := Db.joinSession_some hjoin
    simp only [Bool.and_eq_true, beq_iff_eq, decide_eq_true_eq] at hp
    refine ⟨s.rotated (newTokenPair env w) w.now, ?_, rfl, rfl, hid.symm, ?_, ?_⟩
    · refine (Table.mem_update? hs).mpr ⟨s, hrow, ?_⟩
      rw [if_pos]
      simp [AuthSession.isRotating, hp.1, hp.2, hopen]
    · exact ⟨hopen, Nat.le_add_right _ _⟩
    · exact ⟨hopen, Nat.le_add_right _ _⟩

/-- A phone number that cannot be inserted belongs to a live account. -/
theorem StoreInv.answers_of_refused (h : StoreInv env w) {row : UserRow}
    (hphone : IsPhone row.phone)
    (hemail : row.email = none) (hrefused : w.db.insertUser row = none) :
    ∃ u ∈ w.db.users.rows, u.phone = row.phone ∧ u.deletedAt = none := by
  have hclash : ¬ (w.db.users.rows ++ [{ row with id := w.db.nextUserID }]).Pairwise
      (Apart userKeys) := by
    intro happart
    simp [Db.insertUser, Table.insert?, Table.ofRows?_some happart] at hrefused
  rw [List.pairwise_append] at hclash
  simp only [List.pairwise_singleton, List.mem_singleton, forall_eq, true_and, not_and, not_forall]
    at hclash
  obtain ⟨u, hu, hshared⟩ := hclash w.db.users.apart
  unfold Apart at hshared
  push Not at hshared
  obtain ⟨k, hk, hk'⟩ := hshared
  have hsame : u.phone = row.phone := by
    rw [mem_userKeys] at hk hk'
    rcases hk' with rfl | rfl | ⟨email, hsome, -⟩
    · rcases hk with hid | hother | ⟨email, -, -, hother⟩
      · have hlt := Db.lt_nextUserID hu
        simp only [UserKey.id.injEq] at hid
        omega
      · cases hother
      · cases hother
    · rcases hk with hother | hphone | ⟨email, -, -, hother⟩
      · cases hother
      · exact (UserKey.phone.inj hphone).symm
      · cases hother
    · rw [show _ = _ from hemail] at hsome
      cases hsome
  refine ⟨u, hu, hsame, ?_⟩
  by_contra hdeleted
  exact phone_ne_marked (h.bindings.marked u hu hdeleted) (hsame ▸ hphone)

/-- The result of a login routed through `issueAuthSession`. -/
theorem hasSession_of_map {userID : ℕ} {created : Bool} {u : User} {c : Bool}
    {issued : World × Except String User} (hissued : issueAuthSession env w userID = issued)
    (h : (issued.1, issued.2.map fun u => (u, created)) = (w', .ok (u, c))) : u.HasSession w' := by
  obtain ⟨w'', result⟩ := issued
  cases result with
  | error e => cases h
  | ok user =>
    cases h
    exact issueAuthSession_hasSession hissued

theorem createUserRow_hasSession (hinv : StoreInv env w) {phone : String} (hphone : IsPhone phone)
    {u : User} {c : Bool} (h : createUserRow env w phone = (w', .ok (u, c))) : u.HasSession w' := by
  unfold createUserRow at h
  split at h
  · exact hasSession_of_map rfl h
  next hrefused =>
  split at h
  · next hnone =>
    obtain ⟨row, hrow, hsame, hlive⟩ := hinv.answers_of_refused hphone rfl hrefused
    have habsent := Table.first?_eq_none.mp (Option.map_eq_none_iff.mp hnone) row hrow
    exact absurd (UserRow.answersTo_iff.mpr ⟨Or.inl hsame, hlive⟩) habsent
  · exact hasSession_of_map rfl h

theorem getOrCreateUser_hasSession (hinv : StoreInv env w) {phone : String} {u : User} {c : Bool}
    (h : getOrCreateUser env w phone = (w', .ok (u, c))) : u.HasSession w' := by
  unfold getOrCreateUser at h
  split at h
  · cases h
  next x hx =>
  split at h
  · exact hasSession_of_map rfl h
  split at h
  · split at h
    · cases h
    · exact hasSession_of_map rfl h
  · next hat =>
    have hphone := (isIdentifier_of_normalize hx).isPhone (by simpa using hat)
    exact createUserRow_hasSession hinv hphone h

theorem createUser_hasSession (hinv : StoreInv env w) {phone : String} {u : User}
    (h : createUser env w phone = (w', .ok u)) : u.HasSession w' := by
  unfold createUser at h
  split at h
  · cases h
  split at h
  · cases h
  next hlogin =>
  split at h
  · cases h
    exact getOrCreateUser_hasSession hinv hlogin
  · cases h

theorem exec_hasSession (hinv : StoreInv env w) {op : Op} {u : User} {c : Bool}
    (h : exec env w op = (w', .session u c)) : u.HasSession w' := by
  cases op with
  | advance => cases h
  | getOrCreateUser phone =>
    simp only [exec] at h
    rcases report_cases h with ⟨e, -, ho⟩ | ⟨⟨a, created⟩, hr, ho⟩
    · cases ho
    · cases ho
      exact getOrCreateUser_hasSession hinv hr
  | createUser phone =>
    simp only [exec] at h
    rcases report_cases h with ⟨e, -, ho⟩ | ⟨a, hr, ho⟩
    · cases ho
    · cases ho
      exact createUser_hasSession hinv hr
  | createLoginSession userID =>
    simp only [exec] at h
    rcases report_cases h with ⟨e, -, ho⟩ | ⟨a, hr, ho⟩
    · cases ho
    · cases ho
      exact issueAuthSession_hasSession hr
  | refreshByToken token =>
    simp only [exec] at h
    rcases report_cases h with ⟨e, -, ho⟩ | ⟨⟨a, access⟩, hr, ho⟩
    · cases ho
    · cases ho
      exact refreshByToken_hasSession hr
  | _ =>
    simp only [exec] at h
    rcases report_cases h with ⟨e, -, ho⟩ | ⟨a, -, ho⟩
    · cases ho
    · cases ho

/-- The sessions that a change takes away, revokes or gives new tokens. -/
def Effect.Closes (s : AuthSession) : Effect → Prop
  | .refresh token => s.refreshToken = token
  | .revokeSession token => s.accessToken = token ∨ s.refreshToken = token
  | .revokeTokens userID | .delete userID | .hardDelete userID => s.userID = userID
  | _ => False

theorem mem_revokeSessionsOf {s : AuthSession} {userID now : ℕ}
    (hs : s ∈ w.db.authSessions.rows) (hother : s.userID ≠ userID) :
    s ∈ (w.db.revokeSessionsOf userID now).rows := by
  refine Table.mem_touch.mpr ⟨s, hs, ?_⟩
  rw [if_neg]
  simp [hother]

theorem Change.keeps_session {k : Effect} (h : Change env w k w') {s : AuthSession}
    (hs : s ∈ w.db.authSessions.rows) (hspared : ¬ k.Closes s) :
    s ∈ w'.db.authSessions.rows := by
  cases h with
  | draw | comet | touch | create | rebind | restore => exact hs
  | login row sessions hrow hlive hsessions => exact (Table.mem_insert? hsessions).mpr (Or.inl hs)
  | refresh session row sessions hjoin hsessions =>
    refine (Table.mem_update? hsessions).mpr ⟨s, hs, ?_⟩
    rw [if_neg]
    intro hrotating
    simp only [AuthSession.isRotating, Bool.and_eq_true, beq_iff_eq] at hrotating
    exact hspared hrotating.1.1.2
  | revokeSession token =>
    refine List.mem_map.mpr ⟨s, hs, ?_⟩
    rw [if_neg]
    intro hmatch
    simp only [Bool.and_eq_true, Bool.or_eq_true, beq_iff_eq] at hmatch
    exact hspared hmatch.1
  | revokeTokens userID => exact mem_revokeSessionsOf hs hspared
  | delete p userID now users hp husers => exact mem_revokeSessionsOf hs hspared
  | hardDelete id =>
    refine Table.mem_delete.mpr ⟨hs, ?_⟩
    simp only [beq_iff_eq]
    exact hspared

/-- A session stays in place unless the operation is granted and has an effect on it. -/
theorem exec_keeps_session (hinv : StoreInv env w) {op : Op} {s : AuthSession}
    (hs : s ∈ w.db.authSessions.rows)
    (hspared : ∀ k, op.effect = some k → op.Granted (exec env w op).2 → ¬ k.Closes s) :
    s ∈ (exec env w op).1.db.authSessions.rows := by
  have hperforms := exec_performs env w op
  generalize (exec env w op).1 = w', (exec env w op).2 = o at hperforms hspared ⊢
  cases hperforms with
  | fails | cancellation | waits => exact hs
  | succeeds k w' o hk ho hchange => exact hchange.keeps_session hs (hspared k hk ho)
  | logsIn userID w' o hnone hop hlogin => exact hlogin.keeps_session hs fun h => h
  | registers v w' o hnone hcreate hlogin =>
    have hv : s ∈ v.db.authSessions.rows := hcreate.keeps_session hs fun h => h
    rcases hlogin with ⟨n, -, rfl⟩ | hlogin
    · exact hv
    · exact hlogin.keeps_session hv fun h => h
  | codes w' o hop hstep =>
    obtain ⟨rows, events, sequence, -, rfl⟩ := hstep
    exact hs
  | reopens =>
    rw [openStore_of_inv hinv]
    exact hs

/-- The operations on one device session. -/
def Op.isDevice : Op → Bool
  | .getOrCreateUser _ | .createUser _ | .createLoginSession _ => true
  | .refreshByToken _ | .revokeSessionByToken _ => true
  | _ => false

/-- The session such an operation is about; a login is about a session yet to come. -/
def Op.Targets (op : Op) (s : AuthSession) : Prop :=
  match op with
  | .refreshByToken token => s.refreshToken = token
  | .revokeSessionByToken token => s.accessToken = token ∨ s.refreshToken = token
  | _ => False

/-- The row of every other session stays in place. -/
theorem exec_keeps_others (hinv : StoreInv env w) {op : Op} (hop : op.isDevice = true)
    {s : AuthSession} (hs : s ∈ w.db.authSessions.rows) (hother : ¬ op.Targets s) :
    s ∈ (exec env w op).1.db.authSessions.rows := by
  refine exec_keeps_session hinv hs fun k hk _ hcloses => hother ?_
  cases op with
  | refreshByToken | revokeSessionByToken =>
    cases hk
    exact hcloses
  | getOrCreateUser | createUser | createLoginSession => cases hk
  | _ => cases hop

/-- The three lookups treat the tokens of `s` alike in both worlds. -/
def SameAcceptance (env : Externals) (w w' : World) (s : AuthSession) : Prop :=
  ∀ u, (AcceptsAccess w' s.accessToken u ↔ AcceptsAccess w s.accessToken u) ∧
    (AcceptsRefresh w' s.refreshToken u ↔ AcceptsRefresh w s.refreshToken u) ∧
    (AcceptsRotation env w' s.refreshToken u ↔ AcceptsRotation env w s.refreshToken u)

/-- Acceptance of a session's tokens depends on its own row only. -/
theorem accepts_iff_row (h : SessionInv env w) (hrand : env.NeverRepeats) {s : AuthSession}
    (hs : s ∈ w.db.authSessions.rows) (u : ℕ) :
    (AcceptsAccess w s.accessToken u ↔ s.userID = u ∧ s.GrantsAccess w.now) ∧
    (AcceptsRefresh w s.refreshToken u ↔ s.userID = u ∧ s.GrantsRefresh w.now) ∧
    (AcceptsRotation env w s.refreshToken u ↔ s.userID = u ∧ s.GrantsRefresh w.now) := by
  refine ⟨?_, ?_, ?_⟩
  · rw [acceptsAccess_iff h]
    exact Table.exists_and_iff hs rfl fun a ha htoken => w.db.session_eq_of_access ha hs htoken
  · rw [acceptsRefresh_iff h]
    exact Table.exists_and_iff hs rfl fun a ha htoken => w.db.session_eq_of_refresh ha hs htoken
  · rw [acceptsRotation_iff h hrand]
    exact Table.exists_and_iff hs rfl fun a ha htoken => w.db.session_eq_of_refresh ha hs htoken

theorem sameAcceptance_of_kept (h : SessionInv env w) (h' : SessionInv env w')
    (hrand : env.NeverRepeats) (hnow : w'.now = w.now) {s : AuthSession}
    (hs : s ∈ w.db.authSessions.rows) (hs' : s ∈ w'.db.authSessions.rows) :
    SameAcceptance env w w' s := by
  intro u
  obtain ⟨haccess, hrefresh, hrotation⟩ := accepts_iff_row h hrand hs u
  obtain ⟨haccess', hrefresh', hrotation'⟩ := accepts_iff_row h' hrand hs' u
  rw [hnow] at haccess' hrefresh' hrotation'
  exact ⟨haccess'.trans haccess.symm, hrefresh'.trans hrefresh.symm,
    hrotation'.trans hrotation.symm⟩

/-- The operations on one session change the acceptance of no other one. -/
theorem StoreStep.isolated (hinv : StoreInv env w) (hrand : env.NeverRepeats) {e : Event}
    (hstep : StoreStep env w e w') (hop : e.op.isDevice = true) {s : AuthSession}
    (hs : s ∈ w.db.authSessions.rows) (hother : ¬ e.op.Targets s) : SameAcceptance env w w' s := by
  have hs' : s ∈ (exec env w e.op).1.db.authSessions.rows := exec_keeps_others hinv hop hs hother
  have hsession := exec_sessionStep hinv e.op (by
    rintro n hn
    rw [hn] at hop
    cases hop)
  rw [hstep.2] at hs' hsession
  exact sameAcceptance_of_kept hinv.sessions (hinv.step hstep).sessions hrand hsession.now hs hs'

/-- An operation is about at most one session. -/
theorem Op.Targets.unique (h : SessionInv env w) {op : Op} {s s' : AuthSession}
    (hs : s ∈ w.db.authSessions.rows) (hs' : s' ∈ w.db.authSessions.rows) (ht : op.Targets s)
    (ht' : op.Targets s') : s = s' := by
  obtain ⟨i, -, haccess, hrefresh⟩ := h.drawn s hs
  obtain ⟨j, -, haccess', hrefresh'⟩ := h.drawn s' hs'
  unfold Op.Targets at ht ht'
  split at ht
  · exact w.db.session_eq_of_refresh hs hs' (ht.trans ht'.symm)
  · rcases ht with ht | ht <;> rcases ht' with ht' | ht'
    · exact w.db.session_eq_of_access hs hs' (ht.trans ht'.symm)
    · exact absurd (haccess.symm.trans (ht.trans (ht'.symm.trans hrefresh')))
        (env.access_ne_refresh i (j + 1))
    · exact absurd (haccess'.symm.trans (ht'.trans (ht.symm.trans hrefresh)))
        (env.access_ne_refresh j (i + 1))
    · exact w.db.session_eq_of_refresh hs hs' (ht.trans ht'.symm)
  · cases ht

/-- A refresh spends both tokens of the session it rotates. -/
theorem refreshByToken_spends (hinv : SessionInv env w) (hrand : env.NeverRepeats)
    {token access : String} {u : User} (h : refreshByToken env w token = (w', .ok (u, access))) :
    ∃ s ∈ w.db.authSessions.rows, s.refreshToken = token ∧ s.GrantsRefresh w.now ∧
      (w'.ledger env).Spent s.accessToken ∧ (w'.ledger env).Spent token := by
  rcases refreshAuthSession_cases h with ⟨e, -, herror, -⟩ | ⟨s, row, sessions, hjoin, hr, -, rfl⟩
  · cases herror
  obtain ⟨hs, hp, hopen, -⟩ := Db.joinSession_some hjoin
  simp only [Bool.and_eq_true, beq_iff_eq, decide_eq_true_eq] at hp
  obtain ⟨rfl, hfresh⟩ := hp
  obtain ⟨i, hi, haccess, hrefresh⟩ := hinv.drawn s hs
  obtain ⟨hnewAccess, hnewRefresh⟩ := hinv.fresh_pair hrand hs
  -- rows that were not rotated are other sessions, with other tokens
  have hother : ∀ a ∈ w.db.authSessions.rows,
      AuthSession.isRotating s.id s.refreshToken w.now a = false → a ≠ s := by
    rintro a - hstill rfl
    simp [AuthSession.isRotating, hopen, hfresh] at hstill
  refine ⟨s, hs, rfl, ⟨hopen, hfresh⟩, ⟨Or.inl ⟨"pt", i, ?_, haccess⟩, ?_⟩,
    ⟨Or.inl ⟨"rt", i + 1, ?_, hrefresh⟩, ?_⟩⟩
  · simp only
    omega
  · rintro ⟨s', hs', -, htoken⟩
    rcases Table.of_mem_update? hr hs' with ⟨a, -, -, rfl⟩ | ⟨ha, hstill⟩
    · rcases htoken with htoken | htoken
      · exact hnewAccess htoken.symm
      · exact env.access_ne_refresh i (w.draws + 1) (haccess.symm.trans htoken.symm)
    · rcases htoken with htoken | htoken
      · exact hother s' ha hstill (w.db.session_eq_of_access ha hs htoken)
      · obtain ⟨j, -, -, hrefresh'⟩ := hinv.drawn s' ha
        exact env.access_ne_refresh i (j + 1) (haccess.symm.trans (htoken.symm.trans hrefresh'))
  · simp only
    omega
  · rintro ⟨s', hs', -, htoken⟩
    rcases Table.of_mem_update? hr hs' with ⟨a, -, -, rfl⟩ | ⟨ha, hstill⟩
    · rcases htoken with htoken | htoken
      · exact env.access_ne_refresh w.draws (i + 1) (htoken.trans hrefresh)
      · exact hnewRefresh htoken.symm
    · rcases htoken with htoken | htoken
      · obtain ⟨j, -, haccess', -⟩ := hinv.drawn s' ha
        exact env.access_ne_refresh j (i + 1) (haccess'.symm.trans (htoken.trans hrefresh))
      · exact hother s' ha hstill (w.db.session_eq_of_refresh ha hs htoken)

/-- An accepted call of `RefreshByToken` with this token. -/
def Event.refreshes (token : String) (e : Event) : Bool :=
  match e.op, e.outcome with
  | .refreshByToken t, .session _ _ => t == token
  | _, _ => false

theorem StoreStep.refreshed {e : Event} (hstep : StoreStep env w e w') {token : String}
    (huse : e.refreshes token = true) :
    ∃ u access, refreshByToken env w token = (w', .ok (u, access)) := by
  obtain ⟨time, op, outcome⟩ := e
  unfold Event.refreshes at huse
  split at huse
  · next t u c hop houtcome =>
    have hop' : op = .refreshByToken t := hop
    have houtcome' : outcome = .session u c := houtcome
    subst hop' houtcome'
    rw [beq_iff_eq] at huse
    subst huse
    rcases report_cases hstep.2 with ⟨e, -, ho⟩ | ⟨⟨a, access⟩, hr, ho⟩
    · cases ho
    · exact ⟨a, access, hr⟩
  · cases huse

theorem refreshes_le_one (hinv : StoreInv env w) (hrand : env.NeverRepeats) {log : List Event}
    (hrun : StoreRun env w log w') (token : String) :
    log.countP (Event.refreshes token) ≤ 1 := by
  refine Ledger.countP_le_one (t := token) (fun hv hstep => hv.step hstep)
    (fun hv hstep => hstep.ledger hv hrand) ?_ hrun hinv
  intro v e v' hv hstep huse
  obtain ⟨u, access, hr⟩ := hstep.refreshed huse
  obtain ⟨s, hs, htoken, hgrants, -, hspent⟩ := refreshByToken_spends hv.sessions hrand hr
  exact ⟨⟨s, hs, hgrants.1, Or.inr htoken⟩, hspent⟩

/-- The step of the history at which the token appears in the session table. -/
def IssuedAt (env : Externals) (start : ℕ) (log : List Event) (token : String) (t : ℕ) : Prop :=
  ∃ before e after w₁ w₂, log = before ++ e :: after ∧
    StoreRun env (World.fresh env start) before w₁ ∧ StoreStep env w₁ e w₂ ∧
    ¬ w₁.carries token ∧ w₂.carries token ∧ e.at' = t

theorem IssuedAt.append {start t : ℕ} {log : List Event} {token : String}
    (h : IssuedAt env start log token t) (e : Event) : IssuedAt env start (log ++ [e]) token t := by
  obtain ⟨before, e', after, w₁, w₂, rfl, hissued⟩ := h
  exact ⟨before, e', after ++ [e], w₁, w₂, by simp, hissued⟩

/-- Both deadlines of a row count from the moment its pair was issued. -/
def AuthSession.Dated (env : Externals) (start : ℕ) (log : List Event) (s : AuthSession) : Prop :=
  ∃ t, IssuedAt env start log s.accessToken t ∧ IssuedAt env start log s.refreshToken t ∧
    s.accessExpiresAt = t + accessTokenTTL ∧ s.refreshExpiresAt = t + refreshTokenTTL

theorem AuthSession.Dated.append {start : ℕ} {log : List Event} {s s' : AuthSession}
    (h : s.Dated env start log) (hkept : s.Kept s') (e : Event) :
    s'.Dated env start (log ++ [e]) := by
  obtain ⟨t, haccess, hrefresh, hexpires⟩ := h
  rw [hkept.1]
  exact ⟨t, haccess.append e, hrefresh.append e, hexpires⟩

theorem SessionInv.not_carries_drawn (h : SessionInv env w) (hrand : env.NeverRepeats) {n : ℕ}
    (hn : w.draws ≤ n) (pre : String) : ¬ w.carries (env.makeToken pre n) := by
  intro hcarries
  obtain ⟨q, i, hi, heq⟩ := h.drawn_of_carries hcarries
  have := hrand _ _ _ _ heq
  omega

theorem sessions_dated (hrand : env.NeverRepeats) {start : ℕ} {log : List Event}
    (hrun : StoreRun env (World.fresh env start) log w) :
    ∀ s ∈ w.db.authSessions.rows, s.Dated env start log := by
  refine hrun.history
    (P := fun log w => ∀ s ∈ w.db.authSessions.rows, s.Dated env start log) ?_ ?_
  · intro before a e b hbefore hdated hstep s' hs'
    have hinv : StoreInv env a := StoreInv.run hbefore
    rcases hstep.clock_or_session hinv with ⟨n, rfl⟩ | hsession
    · exact (hdated s' hs').append (AuthSession.Kept.refl s') e
    · rcases hsession.rows s' hs' with ⟨s, hs, hkept⟩ | ⟨n, hn, -, haccess, hrefresh, hexpires⟩
      · exact (hdated s hs).append hkept e
      · have hissued : ∀ token, (s'.accessToken = token ∨ s'.refreshToken = token) →
            ¬ a.carries token → IssuedAt env start (before ++ [e]) token a.now := by
          intro token htoken hnew
          exact ⟨before, e, [], a, b, rfl, hbefore, hstep, hnew, ⟨s', hs', htoken⟩, hstep.1⟩
        refine ⟨a.now, hissued _ (Or.inl rfl) ?_, hissued _ (Or.inr rfl) ?_, hexpires⟩
        · rw [haccess]
          exact hinv.sessions.not_carries_drawn hrand hn "pt"
        · rw [hrefresh]
          exact hinv.sessions.not_carries_drawn hrand (Nat.le_succ_of_le hn) "rt"
  · intro s hs
    rw [fresh_eq] at hs
    cases hs

theorem access_age (hrand : env.NeverRepeats) {start u : ℕ} {log : List Event} {token : String}
    (hrun : StoreRun env (World.fresh env start) log w) (h : AcceptsAccess w token u) :
    ∃ t, IssuedAt env start log token t ∧ w.now ≤ t + 7200 := by
  obtain ⟨s, hs, rfl, -, -, hfresh⟩ := (acceptsAccess_iff (StoreInv.run hrun).sessions).mp h
  obtain ⟨t, hissued, -, hexpires, -⟩ := sessions_dated hrand hrun s hs
  refine ⟨t, hissued, ?_⟩
  rw [hexpires] at hfresh
  exact hfresh

theorem refresh_age (hrand : env.NeverRepeats) {start u : ℕ} {log : List Event} {token : String}
    (hrun : StoreRun env (World.fresh env start) log w)
    (h : AcceptsRefresh w token u ∨ AcceptsRotation env w token u) :
    ∃ t, IssuedAt env start log token t ∧ w.now ≤ t + 30 * 86400 := by
  have hinv := (StoreInv.run hrun).sessions
  obtain ⟨s, hs, rfl, -, -, hfresh⟩ : ∃ s ∈ w.db.authSessions.rows,
      s.refreshToken = token ∧ s.userID = u ∧ s.GrantsRefresh w.now := by
    rcases h with h | h
    · exact (acceptsRefresh_iff hinv).mp h
    · exact (acceptsRotation_iff hinv hrand).mp h
  obtain ⟨t, -, hissued, -, hexpires⟩ := sessions_dated hrand hrun s hs
  refine ⟨t, hissued, ?_⟩
  rw [hexpires] at hfresh
  exact hfresh

/-- The laws of device sessions in every state a fresh store can reach. -/
theorem sessions_rotate_and_stay_apart (hrand : env.NeverRepeats) {start : ℕ} {log : List Event}
    (hrun : StoreRun env (World.fresh env start) log w) :
    (∀ e w' u c, StoreStep env w e w' → e.outcome = .session u c →
      AcceptsAccess w' u.token u.id ∧ ∃ r, u.refreshToken = some r ∧
        AcceptsRefresh w' r u.id ∧ AcceptsRotation env w' r u.id) ∧
    (∀ token, log.countP (Event.refreshes token) ≤ 1) ∧
    (∀ e w' token, StoreStep env w e w' → e.refreshes token = true →
      ∃ s ∈ w.db.authSessions.rows, s.refreshToken = token ∧
        ∀ later w'', StoreRun env w' later w'' →
          ¬ Accepted env w'' s.accessToken ∧ ¬ Accepted env w'' token) ∧
    (∀ e w', StoreStep env w e w' → e.op.isDevice = true →
      (∀ s ∈ w.db.authSessions.rows, ¬ e.op.Targets s → SameAcceptance env w w' s) ∧
      ∀ s ∈ w.db.authSessions.rows, ∀ s' ∈ w.db.authSessions.rows,
        e.op.Targets s → e.op.Targets s' → s = s') ∧
    (∀ token u, AcceptsAccess w token u →
      ∃ t, IssuedAt env start log token t ∧ w.now ≤ t + 7200) ∧
    (∀ token u, AcceptsRefresh w token u ∨ AcceptsRotation env w token u →
      ∃ t, IssuedAt env start log token t ∧ w.now ≤ t + 30 * 86400) := by
  have hinv : StoreInv env w := StoreInv.run hrun
  refine ⟨?_, fun token => refreshes_le_one (StoreInv.fresh start) hrand hrun token, ?_, ?_,
    fun token u h => access_age hrand hrun h, fun token u h => refresh_age hrand hrun h⟩
  · intro e w' u c hstep houtcome
    have hinv' := (hinv.step hstep).sessions
    have hexec : exec env w e.op = (w', .session u c) := by rw [hstep.2, houtcome]
    obtain ⟨s, hs, haccess, hrefresh, howner, hgrantsA, hgrantsR⟩ := exec_hasSession hinv hexec
    exact ⟨(acceptsAccess_iff hinv').mpr ⟨s, hs, haccess, howner, hgrantsA⟩,
      s.refreshToken, hrefresh,
      (acceptsRefresh_iff hinv').mpr ⟨s, hs, rfl, howner, hgrantsR⟩,
      (acceptsRotation_iff hinv' hrand).mpr ⟨s, hs, rfl, howner, hgrantsR⟩⟩
  · intro e w' token hstep huse
    obtain ⟨u, access, hr⟩ := hstep.refreshed huse
    obtain ⟨s, hs, htoken, -, haccess, hrefresh⟩ := refreshByToken_spends hinv.sessions hrand hr
    refine ⟨s, hs, htoken, ?_⟩
    intro later w'' hlater
    exact ⟨not_accepted_of_spent (hinv.step hstep) hrand haccess hlater,
      not_accepted_of_spent (hinv.step hstep) hrand hrefresh hlater⟩
  · intro e w' hstep hop
    exact ⟨fun s hs hother => hstep.isolated hinv hrand hop hs hother,
      fun s hs s' hs' ht ht' => ht.unique hinv.sessions hs hs' ht'⟩

end

theorem rotated_pair_is_spent :
    ¬ Accepted .unary (execAll .unary (World.fresh .unary 0)
      [.getOrCreateUser "13800000000", .refreshByToken "rt_a", .advance 60]).2 "pt_" := by
  have hlogin := execAll_run .unary (World.fresh .unary 0) [.getOrCreateUser "13800000000"]
  obtain ⟨-, -, hspent, -⟩ := sessions_rotate_and_stay_apart Externals.unary_neverRepeats hlogin
  obtain ⟨s, hs, htoken, hlater⟩ := hspent ⟨_, .refreshByToken "rt_a", _⟩ _ "rt_a" ⟨rfl, rfl⟩
    (by decide)
  have hpair : ∀ s ∈ (execAll .unary (World.fresh .unary 0)
      [.getOrCreateUser "13800000000"]).2.db.authSessions.rows, s.accessToken = "pt_" := by decide
  rw [← hpair s hs]
  exact (hlater _ _ (execAll_run _ _ [.advance 60])).1

end PapeSdk
