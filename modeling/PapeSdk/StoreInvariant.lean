import PapeSdk.OperationEffects

/-!
The invariant of a store that started empty. User ids begin at the first one
and no legacy column is left; every session has an owner, and an open session
has a live owner without an account-wide revocation; the pair mirrored in a
users row is empty or stands in a session; every live row has its identifiers
in order and every deleted row a marked one. Under this invariant a restart
finds nothing to migrate.
-/

namespace PapeSdk

open KeyedTables Identifiers EventRuns

structure IdInv (w : World) : Prop where
  hasOpenID : w.db.hasOpenID = false
  hasNID : w.db.hasNID = false
  sequence : ∃ q, w.db.userSequence = some q ∧ firstUserID ≤ q + 1
  first : ∀ u ∈ w.db.users.rows, firstUserID ≤ u.id

structure SessionInv (env : Externals) (w : World) : Prop where
  owner : ∀ s ∈ w.db.authSessions.rows, ∃ u ∈ w.db.users.rows, u.id = s.userID
  openOwner : ∀ s ∈ w.db.authSessions.rows, ∀ u ∈ w.db.users.rows, u.id = s.userID →
    s.revokedAt = none → u.deletedAt = none ∧ u.tokenRevokedAt = none
  mirrored : ∀ u ∈ w.db.users.rows, u.token = "" ∨
    ∃ s ∈ w.db.authSessions.rows, s.userID = u.id ∧ s.accessToken = u.token
  drawn : ∀ s ∈ w.db.authSessions.rows, ∃ i, i + 1 < w.draws ∧
    s.accessToken = env.makeToken "pt" i ∧ s.refreshToken = env.makeToken "rt" (i + 1)

structure BindingInv (env : Externals) (w : World) : Prop where
  bound : ∀ u ∈ w.db.users.rows, u.deletedAt = none → u.Bound env
  marked : ∀ u ∈ w.db.users.rows, u.deletedAt ≠ none → '#' ∈ u.phone.toList

structure StoreInv (env : Externals) (w : World) : Prop where
  ids : IdInv w
  sessions : SessionInv env w
  bindings : BindingInv env w

section
variable {env : Externals} {w w' : World}

theorem IdInv.of_updated (h : IdInv w) {p : UserRow → Bool} {f : UserRow → UserRow}
    (hrows : w'.db.users.rows = w.db.users.rows.map fun r => if p r then f r else r)
    (hid : ∀ r, (f r).id = r.id) (hopen : w'.db.hasOpenID = w.db.hasOpenID)
    (hnid : w'.db.hasNID = w.db.hasNID) (hsequence : w'.db.userSequence = w.db.userSequence) :
    IdInv w' := by
  refine ⟨hopen.trans h.hasOpenID, hnid.trans h.hasNID, by rw [hsequence]; exact h.sequence, ?_⟩
  intro u hu
  rw [hrows] at hu
  rcases Table.of_mem_updated hu with ⟨a, ha, -, rfl⟩ | ⟨ha, -⟩
  · rw [hid]
    exact h.first a ha
  · exact h.first u ha

theorem IdInv.next (h : IdInv w) : firstUserID ≤ w.db.nextUserID := by
  obtain ⟨q, hq, hfirst⟩ := h.sequence
  have hlt := sequence_lt_nextID (w.db.userSequence.getD 0) (w.db.users.rows.map UserRow.id)
  unfold Db.nextUserID
  rw [hq] at hlt ⊢
  simp only [Option.getD_some] at hlt ⊢
  omega

theorem IdInv.change (h : IdInv w) {k : Effect}
    (hchange : Change env w k w') : IdInv w' := by
  cases hchange with
  | draw | comet | revokeSession => exact ⟨h.hasOpenID, h.hasNID, h.sequence, h.first⟩
  | touch t => exact h.of_updated rfl (fun r => (t.quiet w.now r).id) rfl rfl rfl
  | login | refresh | revokeTokens => exact h.of_updated rfl (fun _ => rfl) rfl rfl rfl
  | rebind row phone email users hrow hlive hbound husers =>
    exact h.of_updated (Table.update?_rows husers) (fun _ => rfl) rfl rfl rfl
  | delete p userID now users hp husers =>
    exact h.of_updated (Table.update?_rows husers) (fun _ => rfl) rfl rfl rfl
  | restore id phone users hphone husers =>
    exact h.of_updated (Table.update?_rows husers) (fun _ => rfl) rfl rfl rfl
  | create row users husers =>
    refine ⟨h.hasOpenID, h.hasNID, ⟨_, rfl, Nat.le_succ_of_le h.next⟩, ?_⟩
    intro u hu
    rcases (Table.mem_insert? husers).mp hu with hold | rfl
    · exact h.first u hold
    · exact h.next
  | hardDelete id =>
    refine ⟨h.hasOpenID, h.hasNID, h.sequence, ?_⟩
    intro u hu
    exact h.first u (Table.mem_delete.mp hu).1

theorem BindingInv.of_updated (h : BindingInv env w) {p : UserRow → Bool} {f : UserRow → UserRow}
    (hrows : w'.db.users.rows = w.db.users.rows.map fun r => if p r then f r else r)
    (hbound : ∀ r : UserRow, (f r).deletedAt = none → (f r).Bound env ∨
      r.deletedAt = none ∧ (f r).phone = r.phone ∧ (f r).email = r.email)
    (hmarked : ∀ r ∈ w.db.users.rows, p r = true → (f r).deletedAt ≠ none →
      '#' ∈ (f r).phone.toList ∨ r.deletedAt ≠ none ∧ (f r).phone = r.phone) :
    BindingInv env w' := by
  constructor
  · intro u hu hlive
    rw [hrows] at hu
    rcases Table.of_mem_updated hu with ⟨a, ha, -, rfl⟩ | ⟨ha, -⟩
    · rcases hbound a hlive with hbound | ⟨halive, hphone, hemail⟩
      · exact hbound
      · have hbound := h.bound a ha halive
        unfold UserRow.Bound at hbound ⊢
        rw [hphone, hemail]
        exact hbound
    · exact h.bound u ha hlive
  · intro u hu hdeleted
    rw [hrows] at hu
    rcases Table.of_mem_updated hu with ⟨a, ha, hp, rfl⟩ | ⟨ha, -⟩
    · rcases hmarked a ha hp hdeleted with hmarked | ⟨hadeleted, hphone⟩
      · exact hmarked
      · rw [hphone]
        exact h.marked a ha hadeleted
    · exact h.marked u ha hdeleted

theorem bound_restored {phone : String} (hphone : IsIdentifier env phone) (r : UserRow) (now : ℕ) :
    (r.restored phone now).Bound env := by
  rcases hphone with hphone | hemail
  · refine Or.inl ⟨hphone, ?_⟩
    intro e he
    simp [UserRow.restored, hasAt_of_phone hphone] at he
  · exact Or.inr ⟨hemail, by simp [UserRow.restored, hemail.1]⟩

theorem BindingInv.change (h : BindingInv env w) {k : Effect} (hchange : Change env w k w') :
    BindingInv env w' := by
  cases hchange with
  | draw | comet | revokeSession => exact ⟨h.bound, h.marked⟩
  | touch t =>
    have hquiet := t.quiet w.now
    refine h.of_updated rfl (fun r hlive => Or.inr ?_) (fun r _ _ hdeleted => Or.inr ?_)
    · exact ⟨(hquiet r).deletedAt ▸ hlive, (hquiet r).phone, (hquiet r).email⟩
    · exact ⟨(hquiet r).deletedAt ▸ hdeleted, (hquiet r).phone⟩
  | login | refresh | revokeTokens =>
    exact h.of_updated rfl (fun r hlive => Or.inr ⟨hlive, rfl, rfl⟩)
      (fun r _ _ hdeleted => Or.inr ⟨hdeleted, rfl⟩)
  | create row users husers hblank =>
    constructor
    · intro u hu hlive
      rcases (Table.mem_insert? husers).mp hu with hold | rfl
      · exact h.bound u hold hlive
      · exact hblank.bound
    · intro u hu hdeleted
      rcases (Table.mem_insert? husers).mp hu with hold | rfl
      · exact h.marked u hold hdeleted
      · exact absurd hblank.deletedAt hdeleted
  | rebind row phone email users hrow hlive hbound husers =>
    refine h.of_updated (Table.update?_rows husers) (fun r _ => Or.inl (hbound r)) ?_
    intro r hr hid hdeleted
    rw [w.db.user_eq_of_id hr hrow (by simpa using hid)] at hdeleted
    exact absurd hlive hdeleted
  | delete p userID now users hp husers =>
    refine h.of_updated (Table.update?_rows husers) ?_ ?_
    · intro r hlive
      cases hlive
    · intro r _ _ _
      exact Or.inl (hash_mem_markDeleted r.phone now)
  | restore id phone users hphone husers =>
    refine h.of_updated (Table.update?_rows husers) ?_ ?_
    · intro r _
      exact Or.inl (bound_restored hphone r w.now)
    · intro r _ _ hdeleted
      exact absurd rfl hdeleted
  | hardDelete id =>
    constructor
    · intro u hu
      exact h.bound u (Table.mem_delete.mp hu).1
    · intro u hu
      exact h.marked u (Table.mem_delete.mp hu).1

/-- An account survives an update that leaves the ids alone. -/
theorem exists_id_of_updated {rows : List UserRow} {p : UserRow → Bool} {f : UserRow → UserRow}
    {id : ℕ} (hf : ∀ r, (f r).id = r.id) (h : ∃ u ∈ rows, u.id = id) :
    ∃ u ∈ rows.map (fun r => if p r then f r else r), u.id = id := by
  obtain ⟨u, hu, hid⟩ := h
  refine ⟨_, Table.mem_updated hu, ?_⟩
  split
  · exact (hf u).trans hid
  · exact hid

/-- What the session statements read in a users row; a restored row loses its deletion. -/
structure UserRow.KeepsSession (u u' : UserRow) : Prop where
  id : u'.id = u.id
  token : u'.token = u.token
  tokenRevokedAt : u'.tokenRevokedAt = u.tokenRevokedAt
  deletedAt : u.deletedAt = none → u'.deletedAt = none

theorem SessionInv.of_updated (h : SessionInv env w) {p : UserRow → Bool} {f : UserRow → UserRow}
    (hrows : w'.db.users.rows = w.db.users.rows.map fun r => if p r then f r else r)
    (hkeep : ∀ r : UserRow, r.KeepsSession (f r))
    (hsessions : w'.db.authSessions = w.db.authSessions) (hdraws : w.draws ≤ w'.draws) :
    SessionInv env w' := by
  have hback : ∀ u' ∈ w'.db.users.rows, ∃ u ∈ w.db.users.rows, u.KeepsSession u' := by
    intro u' hu'
    rw [hrows] at hu'
    rcases Table.of_mem_updated hu' with ⟨a, ha, -, rfl⟩ | ⟨ha, -⟩
    · exact ⟨a, ha, hkeep a⟩
    · exact ⟨u', ha, rfl, rfl, rfl, fun hlive => hlive⟩
  constructor
  · intro s hs
    rw [hsessions] at hs
    rw [hrows]
    exact exists_id_of_updated (fun r => (hkeep r).id) (h.owner s hs)
  · intro s hs u' hu' hid hopen
    rw [hsessions] at hs
    obtain ⟨u, hu, hkept⟩ := hback u' hu'
    obtain ⟨hlive, hflag⟩ := h.openOwner s hs u hu (hkept.id.symm.trans hid) hopen
    exact ⟨hkept.deletedAt hlive, hkept.tokenRevokedAt.trans hflag⟩
  · intro u' hu'
    obtain ⟨u, hu, hkept⟩ := hback u' hu'
    rw [hsessions, hkept.token, hkept.id]
    exact h.mirrored u hu
  · intro s hs
    rw [hsessions] at hs
    obtain ⟨i, hi, hpair⟩ := h.drawn s hs
    exact ⟨i, by omega, hpair⟩

/-- Sessions may be revoked at will; a row that changes must lose all its open sessions. -/
theorem SessionInv.of_revoked (h : SessionInv env w) {p : UserRow → Bool} {f : UserRow → UserRow}
    {q : AuthSession → Bool} {now : ℕ}
    (hrows : w'.db.users.rows = w.db.users.rows.map fun r => if p r then f r else r)
    (hsessions : w'.db.authSessions.rows =
      w.db.authSessions.rows.map fun s => if q s then { s with revokedAt := some now } else s)
    (hid : ∀ r, (f r).id = r.id) (htoken : ∀ r, (f r).token = "" ∨ (f r).token = r.token)
    (hclosed : ∀ r s, p r = true → r.id = s.userID → s.revokedAt = none → q s = true)
    (hdraws : w'.draws = w.draws) : SessionInv env w' := by
  have hstem := NoNewSession.of_revoked hsessions
  constructor
  · intro s hs
    obtain ⟨a, ha, hkept⟩ := hstem s hs
    rw [hrows, hkept.1]
    exact exists_id_of_updated hid (h.owner a ha)
  · intro s hs u hu howner hopen
    rw [hsessions] at hs
    rw [hrows] at hu
    rcases Table.of_mem_updated hs with ⟨a, ha, -, rfl⟩ | ⟨hs, hq⟩
    · cases hopen
    rcases Table.of_mem_updated hu with ⟨b, hb, hp, rfl⟩ | ⟨hu, -⟩
    · rw [hid] at howner
      rw [hclosed b s hp howner hopen] at hq
      cases hq
    · exact h.openOwner s hs u hu howner hopen
  · intro u hu
    rw [hrows] at hu
    have hkeep : ∀ a ∈ w.db.authSessions.rows, ∃ s ∈ w'.db.authSessions.rows,
        s.userID = a.userID ∧ s.accessToken = a.accessToken := by
      intro a ha
      refine ⟨_, by rw [hsessions]; exact Table.mem_updated ha, ?_⟩
      split <;> exact ⟨rfl, rfl⟩
    have hmirror : ∀ b ∈ w.db.users.rows, b.token = "" ∨
        ∃ s ∈ w'.db.authSessions.rows, s.userID = b.id ∧ s.accessToken = b.token := by
      intro b hb
      rcases h.mirrored b hb with hempty | ⟨a, ha, howner, haccess⟩
      · exact Or.inl hempty
      · obtain ⟨s, hs, hsame, haccess'⟩ := hkeep a ha
        exact Or.inr ⟨s, hs, hsame.trans howner, haccess'.trans haccess⟩
    rcases Table.of_mem_updated hu with ⟨b, hb, -, rfl⟩ | ⟨hu, -⟩
    · rcases htoken b with hempty | hsame
      · exact Or.inl hempty
      · rw [hid, hsame]
        exact hmirror b hb
    · exact hmirror u hu
  · intro s hs
    obtain ⟨a, ha, hkept⟩ := hstem s hs
    rw [hdraws, hkept.1]
    exact h.drawn a ha

theorem SessionInv.create (h : SessionInv env w) {row : UserRow} {users : Table userKeys}
    (husers : w.db.users.insert? { row with id := w.db.nextUserID } = some users)
    (htoken : row.token = "") (sequence : Option ℕ) :
    SessionInv env { w with db := { w.db with users := users, userSequence := sequence } } := by
  have hmem := fun r => Table.mem_insert? (r := r) husers
  constructor
  · intro s hs
    obtain ⟨u, hu, hid⟩ := h.owner s hs
    exact ⟨u, (hmem u).mpr (Or.inl hu), hid⟩
  · intro s hs u hu hid hopen
    rcases (hmem u).mp hu with hold | rfl
    · exact h.openOwner s hs u hold hid hopen
    · -- no session can belong to an id that is still to be given out
      obtain ⟨owner, howner, hid'⟩ := h.owner s hs
      have hlt := Db.lt_nextUserID howner
      have heq : w.db.nextUserID = s.userID := hid
      omega
  · intro u hu
    rcases (hmem u).mp hu with hold | rfl
    · exact h.mirrored u hold
    · exact Or.inl htoken
  · exact h.drawn

theorem SessionInv.login (h : SessionInv env w) {row : UserRow} {sessions : Table sessionKeys}
    (hrow : row ∈ w.db.users.rows) (hlive : row.deletedAt = none)
    (hsessions : w.db.authSessions.insert? (newSession env w row.id) = some sessions) :
    SessionInv env { w with
      draws := w.draws + 3
      db := { w.db with
        users := w.db.users.touch (UserRow.isLive row.id)
          (fun r => r.loggedIn (newTokenPair env w) w.now)
        authSessions := sessions } } := by
  have hmem := fun s => Table.mem_insert? (r := s) hsessions
  have hrowLive : row.isLive row.id = true := UserRow.isLive_iff.mpr ⟨rfl, hlive⟩
  constructor
  · intro s hs
    refine exists_id_of_updated (fun _ => rfl) ?_
    rcases (hmem s).mp hs with hold | rfl
    · exact h.owner s hold
    · exact ⟨row, hrow, rfl⟩
  · intro s hs u hu hid hopen
    rcases Table.of_mem_updated hu with ⟨a, ha, hp, rfl⟩ | ⟨hu, hp⟩
    · exact ⟨(UserRow.isLive_iff.mp hp).2, rfl⟩
    · rcases (hmem s).mp hs with hold | rfl
      · exact h.openOwner s hold u hu hid hopen
      · rw [w.db.user_eq_of_id hu hrow hid, hrowLive] at hp
        cases hp
  · intro u hu
    rcases Table.of_mem_updated hu with ⟨a, ha, hp, rfl⟩ | ⟨hu, -⟩
    · exact Or.inr ⟨newSession env w row.id, (hmem _).mpr (Or.inr rfl),
        (UserRow.isLive_iff.mp hp).1.symm, rfl⟩
    · rcases h.mirrored u hu with hempty | ⟨s, hs, howner, haccess⟩
      · exact Or.inl hempty
      · exact Or.inr ⟨s, (hmem s).mpr (Or.inl hs), howner, haccess⟩
  · intro s hs
    rcases (hmem s).mp hs with hold | rfl
    · obtain ⟨i, hi, hpair⟩ := h.drawn s hold
      exact ⟨i, Nat.lt_add_right 3 hi, hpair⟩
    · exact ⟨w.draws, by simp, rfl, rfl⟩

theorem SessionInv.refresh (h : SessionInv env w) {session : AuthSession} {row : UserRow}
    {sessions : Table sessionKeys}
    (hjoin : w.db.joinSession (fun s => s.refreshToken == session.refreshToken &&
      w.now ≤ s.refreshExpiresAt) = some (session, row))
    (hsessions : w.db.authSessions.update?
      (AuthSession.isRotating session.id session.refreshToken w.now)
      (fun s => s.rotated (newTokenPair env w) w.now) = some sessions) :
    SessionInv env { w with
      draws := w.draws + 2
      db := { w.db with
        users := w.db.users.touch (UserRow.isLive session.userID)
          (fun r => r.withPair (newTokenPair env w) w.now)
        authSessions := sessions } } := by
  obtain ⟨hsession, hfresh, hopen, hrow, hid, hlive, -⟩ := Db.joinSession_some hjoin
  simp only [Bool.and_eq_true, beq_self_eq_true, decide_eq_true_eq, true_and] at hfresh
  have hrowLive : row.isLive session.userID = true := UserRow.isLive_iff.mpr ⟨hid, hlive⟩
  have hrotates : AuthSession.isRotating session.id session.refreshToken w.now session = true := by
    simp [AuthSession.isRotating, hopen, hfresh]
  have hstem : ∀ s ∈ sessions.rows, ∃ a ∈ w.db.authSessions.rows,
      s.userID = a.userID ∧ s.revokedAt = a.revokedAt := by
    intro s hs
    rcases Table.of_mem_update? hsessions hs with ⟨a, ha, -, rfl⟩ | ⟨ha, -⟩
    · exact ⟨a, ha, rfl, rfl⟩
    · exact ⟨s, ha, rfl, rfl⟩
  constructor
  · intro s hs
    obtain ⟨a, ha, hsame, -⟩ := hstem s hs
    rw [hsame]
    exact exists_id_of_updated (fun _ => rfl) (h.owner a ha)
  · intro s hs u hu howner hsopen
    obtain ⟨a, ha, hsame, hrevoked⟩ := hstem s hs
    rw [hsame] at howner
    rw [hrevoked] at hsopen
    rcases Table.of_mem_updated hu with ⟨b, hb, -, rfl⟩ | ⟨hu, -⟩
    · exact h.openOwner a ha b hb howner hsopen
    · exact h.openOwner a ha u hu howner hsopen
  · intro u hu
    rcases Table.of_mem_updated hu with ⟨b, hb, hp, rfl⟩ | ⟨hold, hp⟩
    · refine Or.inr ⟨session.rotated (newTokenPair env w) w.now, ?_, ?_, rfl⟩
      · exact (Table.mem_update? hsessions).mpr ⟨session, hsession, by rw [if_pos hrotates]⟩
      · exact (UserRow.isLive_iff.mp hp).1.symm
    · rcases h.mirrored u hold with hempty | ⟨s, hs, howner, haccess⟩
      · exact Or.inl hempty
      · refine Or.inr ⟨s, (Table.mem_update? hsessions).mpr ⟨s, hs, ?_⟩, howner, haccess⟩
        rw [if_neg]
        intro hrotating
        -- the rotated session belongs to the row of the join, which was updated
        simp only [AuthSession.isRotating, Bool.and_eq_true, beq_iff_eq] at hrotating
        have hsame := w.db.session_eq_of_id hs hsession hrotating.1.1.1
        subst hsame
        rw [w.db.user_eq_of_id hold hrow (howner.symm.trans hid.symm), hrowLive] at hp
        cases hp
  · intro s hs
    rcases Table.of_mem_update? hsessions hs with ⟨a, ha, -, rfl⟩ | ⟨ha, -⟩
    · exact ⟨w.draws, by simp, rfl, rfl⟩
    · obtain ⟨i, hi, hpair⟩ := h.drawn s ha
      exact ⟨i, Nat.lt_add_right 2 hi, hpair⟩

theorem SessionInv.hardDelete (h : SessionInv env w) (id : ℕ) (comet : Table cometKeys) :
    SessionInv env { w with
      db := { w.db with
        users := w.db.users.delete fun r => r.id == id
        authSessions := w.db.authSessions.delete fun s => s.userID == id
        cometSessions := comet } } := by
  constructor
  · intro s hs
    obtain ⟨hold, hne⟩ := Table.mem_delete.mp hs
    obtain ⟨u, hu, howner⟩ := h.owner s hold
    exact ⟨u, Table.mem_delete.mpr ⟨hu, by simpa [howner] using hne⟩, howner⟩
  · intro s hs u hu
    exact h.openOwner s (Table.mem_delete.mp hs).1 u (Table.mem_delete.mp hu).1
  · intro u hu
    obtain ⟨hold, hne⟩ := Table.mem_delete.mp hu
    rcases h.mirrored u hold with hempty | ⟨s, hs, howner, haccess⟩
    · exact Or.inl hempty
    · exact Or.inr ⟨s, Table.mem_delete.mpr ⟨hs, by simpa [howner] using hne⟩, howner, haccess⟩
  · intro s hs
    exact h.drawn s (Table.mem_delete.mp hs).1

theorem SessionInv.change (h : SessionInv env w) {k : Effect} (hchange : Change env w k w') :
    SessionInv env w' := by
  cases hchange with
  | draw n hn | comet n rows hn =>
    refine ⟨h.owner, h.openOwner, h.mirrored, ?_⟩
    intro s hs
    obtain ⟨i, hi, hpair⟩ := h.drawn s hs
    exact ⟨i, lt_of_lt_of_le hi hn, hpair⟩
  | touch t =>
    have hquiet := t.quiet w.now
    refine h.of_updated rfl (fun r => ?_) rfl (le_refl _)
    exact ⟨(hquiet r).id, (hquiet r).token, (hquiet r).tokenRevokedAt,
      fun hlive => (hquiet r).deletedAt.trans hlive⟩
  | rebind row phone email users hrow hlive hbound husers =>
    exact h.of_updated (Table.update?_rows husers)
      (fun _ => ⟨rfl, rfl, rfl, fun hlive => hlive⟩) rfl (le_refl _)
  | restore id phone users hphone husers =>
    exact h.of_updated (Table.update?_rows husers) (fun _ => ⟨rfl, rfl, rfl, fun _ => rfl⟩) rfl
      (le_refl _)
  | create row users husers hblank => exact h.create husers hblank.token _
  | login row sessions hrow hlive hsessions => exact h.login hrow hlive hsessions
  | refresh session row sessions hjoin hsessions => exact h.refresh hjoin hsessions
  | revokeSession token =>
    refine h.of_revoked (p := fun _ => false) (f := fun r => r) (by simp) rfl (fun _ => rfl)
      (fun _ => Or.inr rfl) (fun _ _ hp => ?_) rfl
    cases hp
  | revokeTokens userID =>
    refine h.of_revoked rfl rfl (fun _ => rfl) (fun _ => Or.inr rfl)
      (fun r s hp howner hopen => ?_) rfl
    simp [← howner, (UserRow.isLive_iff.mp hp).1, hopen]
  | delete p userID now users hp husers =>
    refine h.of_revoked (Table.update?_rows husers) rfl (fun _ => rfl) (fun _ => Or.inl rfl)
      (fun r s hr howner hopen => ?_) rfl
    simp [← howner, (UserRow.isLive_iff.mp (hp r hr)).1, hopen]
  | hardDelete id => exact h.hardDelete id _

theorem StoreInv.change (h : StoreInv env w) {k : Effect}
    (hchange : Change env w k w') : StoreInv env w' :=
  ⟨h.ids.change hchange, h.sessions.change hchange, h.bindings.change hchange⟩

theorem StoreInv.changes (h : StoreInv env w) (hchanges : Changes env w w') : StoreInv env w' := by
  induction hchanges with
  | refl => exact h
  | tail _ hchange ih =>
    obtain ⟨k, hchange⟩ := hchange
    exact ih.change hchange

/-- A restart of an unified store: the sequence of an empty users table starts again. -/
def Db.reopened (db : Db) : Db :=
  { db with
    userSequence := if db.users.rows = [] then some (firstUserID - 1) else db.userSequence
    cometSessions := db.cometSessions.delete fun s => !db.users.rows.any fun u => u.id == s.userID }

theorem Table.delete_eq_self {α κ : Type*} {keys : α → List κ} {t : Table keys} {p : α → Bool}
    (h : ∀ r ∈ t.rows, p r = false) : t.delete p = t := by
  apply Table.ext
  apply List.filter_eq_self.mpr
  intro r hr
  simp [h r hr]

theorem storedUsers_isEmpty (db : Db) : db.storedUsers.isEmpty = true ↔ db.users.rows = [] := by
  rw [List.isEmpty_iff, ← List.length_eq_zero_iff, ← List.length_eq_zero_iff]
  simp [Db.storedUsers, Db.usersByID, List.length_insertionSort]

theorem lastNewID_of_isEmpty {users : List StoredUser} (h : users.isEmpty = true) :
    lastNewID users = firstUserID - 1 := by
  rw [List.isEmpty_iff] at h
  subst h
  rfl

theorem migrateUnifiedUserIDs_of_inv (h : StoreInv env w) :
    migrateUnifiedUserIDs w.db = .ok w.db.reopened := by
  have hunified : w.db.isUnified = true := by
    simpa [Db.isUnified, h.ids.hasOpenID, h.ids.hasNID] using h.ids.first
  have howned : (w.db.authSessions.delete fun s => !w.db.users.rows.any fun u => u.id == s.userID) =
      w.db.authSessions := by
    apply Table.delete_eq_self
    intro s hs
    obtain ⟨u, hu, hid⟩ := h.sessions.owner s hs
    simpa using ⟨u, hu, hid⟩
  simp only [migrateUnifiedUserIDs, hunified, if_true]
  by_cases hempty : w.db.storedUsers.isEmpty = true
  · have hrows := (storedUsers_isEmpty w.db).mp hempty
    rw [if_pos hempty, setUserSequence, lastNewID_of_isEmpty hempty, deleteOrphanCometSessions,
      Db.reopened, if_pos hrows, howned]
  · have hrows := mt (storedUsers_isEmpty w.db).mpr hempty
    rw [if_neg hempty, deleteOrphanCometSessions, Db.reopened, if_neg hrows, howned]

/-- The mirrored pair stands in `auth_sessions`, so there is nothing to import. -/
theorem importLegacySession_of_inv (h : SessionInv env w) {u : UserRow}
    (hu : u ∈ w.db.users.rows) : importLegacySession env w u = (w, .ok ()) := by
  unfold importLegacySession
  split
  · rfl
  next access refresh hpair =>
  have htoken : u.token ≠ "" ∧ access = u.token := by
    unfold UserRow.legacyPair at hpair
    split at hpair
    · cases hpair
    · split at hpair
      · cases hpair
      · next hcond =>
        simp only [Option.some.injEq, Prod.mk.injEq] at hpair
        exact ⟨fun hempty => hcond (Or.inl hempty), hpair.1.symm⟩
  rw [if_pos]
  obtain ⟨s, hs, -, haccess⟩ := (h.mirrored u hu).resolve_left htoken.1
  intro hnone
  apply Table.affected_eq_zero.mp hnone s hs
  simp [haccess, htoken.2]

theorem importLegacySessions_of_inv (h : SessionInv env w) {rows : List UserRow}
    (hrows : ∀ u ∈ rows, u ∈ w.db.users.rows) :
    importLegacySessions env w rows = (w, .ok ()) := by
  induction rows with
  | nil => rfl
  | cons u rest ih =>
    rw [importLegacySessions, importLegacySession_of_inv h (hrows u List.mem_cons_self)]
    exact ih fun a ha => hrows a (List.mem_cons_of_mem u ha)

/-- A bound row with an email in its phone column has it in the email column as well. -/
theorem UserRow.Bound.not_needsEmail {r : UserRow} (h : r.deletedAt = none → r.Bound env) :
    r.needsEmail = false := by
  by_contra hneeds
  simp only [Bool.not_eq_false, UserRow.needsEmail, Bool.and_eq_true,
    Option.isNone_iff_eq_none] at hneeds
  obtain ⟨⟨hat, hlive⟩, hnone⟩ := hneeds
  rcases h hlive with ⟨hphone, -⟩ | ⟨-, hemail⟩
  · rw [hasAt_of_phone hphone] at hat
    cases hat
  · rw [hemail] at hnone
    cases hnone

theorem initBindings_of_inv (h : BindingInv env w) : initBindings w = (w, .ok ()) := by
  have hsame : (w.db.users.rows.map fun r =>
      if r.needsEmail then { r with email := some (sqlLower r.phone) } else r) =
      w.db.users.rows := by
    rw [List.map_congr_left (g := fun r => r), List.map_id']
    intro u hu
    rw [UserRow.Bound.not_needsEmail (h.bound u hu)]
    rfl
  unfold initBindings Table.update?
  rw [hsame, Table.ofRows?_some w.db.users.apart]

theorem SessionInv.reopened (h : SessionInv env w) :
    SessionInv env { w with db := w.db.reopened } :=
  ⟨h.owner, h.openOwner, h.mirrored, h.drawn⟩

/-- A restart of a store that started empty migrates nothing. -/
theorem openStore_of_inv (h : StoreInv env w) :
    openStore env w = ({ w with db := w.db.reopened }, .ok ()) := by
  have hbindings : BindingInv env { w with db := w.db.reopened } :=
    ⟨h.bindings.bound, h.bindings.marked⟩
  unfold openStore migrateLegacyAuthSessions
  rw [migrateUnifiedUserIDs_of_inv h]
  simp only
  rw [importLegacySessions_of_inv h.sessions.reopened fun u hu => hu]
  simp only
  rw [initBindings_of_inv hbindings]

theorem IdInv.reopened (h : IdInv w) : IdInv { w with db := w.db.reopened } := by
  refine ⟨h.hasOpenID, h.hasNID, ?_, h.first⟩
  unfold Db.reopened
  by_cases hempty : w.db.users.rows = []
  · exact ⟨firstUserID - 1, by simp [hempty], by simp [firstUserID]⟩
  · simpa [hempty] using h.sequence

theorem StoreInv.reopened (h : StoreInv env w) : StoreInv env { w with db := w.db.reopened } :=
  ⟨h.ids.reopened, h.sessions.reopened, ⟨h.bindings.bound, h.bindings.marked⟩⟩

theorem StoreInv.setCancellation (h : StoreInv env w) (userID status cancelAt : ℕ) :
    StoreInv env (setCancellation w userID status cancelAt).1 := by
  refine ⟨?_, ?_, ?_⟩
  · exact h.ids.of_updated rfl (fun _ => rfl) rfl rfl rfl
  · exact h.sessions.of_updated rfl (fun _ => ⟨rfl, rfl, rfl, fun hlive => hlive⟩) rfl (le_refl _)
  · exact h.bindings.of_updated rfl (fun r hlive => Or.inr ⟨hlive, rfl, rfl⟩)
      (fun r _ _ hdeleted => Or.inr ⟨hdeleted, rfl⟩)

theorem StoreInv.withCodes (h : StoreInv env w) (rows : Table smsKeys) (events : List SmsEvent)
    (sequence : ℕ) : StoreInv env { w with db := w.db.withCodes rows events sequence } :=
  ⟨⟨h.ids.hasOpenID, h.ids.hasNID, h.ids.sequence, h.ids.first⟩,
    ⟨h.sessions.owner, h.sessions.openOwner, h.sessions.mirrored, h.sessions.drawn⟩,
    ⟨h.bindings.bound, h.bindings.marked⟩⟩

theorem StoreInv.codes (h : StoreInv env w) (hstep : CodesStep w w') : StoreInv env w' := by
  obtain ⟨rows, events, sequence, -, rfl⟩ := hstep
  exact h.withCodes rows events sequence

theorem StoreInv.clock (h : StoreInv env w) (time : ℕ) : StoreInv env { w with now := time } :=
  ⟨⟨h.ids.hasOpenID, h.ids.hasNID, h.ids.sequence, h.ids.first⟩,
    ⟨h.sessions.owner, h.sessions.openOwner, h.sessions.mirrored, h.sessions.drawn⟩,
    ⟨h.bindings.bound, h.bindings.marked⟩⟩

/-- The invariant holds after every operation. -/
theorem StoreInv.exec (h : StoreInv env w) (op : Op) : StoreInv env (exec env w op).1 := by
  refine exec_cases (fun _ => h.changes) (fun userID status cancelAt _ => ?_)
    (fun rows events sequence _ => ?_) (fun _ => ?_) (fun seconds _ => ?_)
  · exact h.setCancellation userID status cancelAt
  · exact h.withCodes rows events sequence
  · rw [openStore_of_inv h]
    exact h.reopened
  · exact h.clock _

theorem exec_codesKept (h : StoreInv env w) (op : Op) :
    CodesKept w.db.smsVerifications (PapeSdk.exec env w op).1.db.smsVerifications := by
  refine exec_cases (P := fun w' => CodesKept w.db.smsVerifications w'.db.smsVerifications)
    (fun w' hchanges => ?_) (fun userID status cancelAt _ => ?_)
    (fun rows events sequence hkept => hkept) (fun _ => ?_) (fun seconds _ => ?_)
  · rw [hchanges.sameCodes.rows]
    exact CodesKept.refl _
  · exact CodesKept.refl _
  · rw [openStore_of_inv h]
    exact CodesKept.refl _
  · exact CodesKept.refl _

theorem StoreInv.step (h : StoreInv env w) {e : Event} (hstep : StoreStep env w e w') :
    StoreInv env w' := by
  have hexec := h.exec e.op
  rw [hstep.2] at hexec
  exact hexec

theorem fresh_eq (start : ℕ) : World.fresh env start =
    ⟨{ Db.blank with userSequence := some (firstUserID - 1) }, start, 0⟩ := rfl

theorem StoreInv.fresh (start : ℕ) : StoreInv env (World.fresh env start) := by
  rw [fresh_eq]
  refine ⟨⟨rfl, rfl, ⟨_, rfl, le_refl _⟩, ?_⟩, ⟨?_, ?_, ?_, ?_⟩, ⟨?_, ?_⟩⟩
  all_goals
    intro r hr
    cases hr

/-- The invariant holds in every state a fresh store can reach. -/
theorem StoreInv.run {start : ℕ} {log : List Event}
    (h : StoreRun env (World.fresh env start) log w) :
    StoreInv env w :=
  h.invariant (fun hinv hstep => hinv.step hstep) (StoreInv.fresh start)

end

end PapeSdk
