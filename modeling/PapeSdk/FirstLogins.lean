import PapeSdk.FirstLoginSystem

/-!
Why concurrent first logins agree. Until some call has inserted an account,
every call is still on its way to do so; from then on there is one account for
the identifier and one call that created it. The loser of a race for a phone
number finds the insert refused and looks the winner up. The loser of a race
for an email gives up, so the runs considered are those in which no email is
inserted twice.
-/

namespace PapeSdk

open KeyedTables Identifiers EventRuns

/-- Session ids are random values drawn earlier. -/
def SessionIdsDrawn (env : Externals) (w : World) : Prop :=
  ∀ s ∈ w.db.authSessions.rows, ∃ k < w.draws, s.id = env.makeToken "as" k

section
variable {env : Externals} {x : String} {w w' : World}

theorem SessionIdsDrawn.of_rows (h : SessionIdsDrawn env w) (hdraws : w.draws ≤ w'.draws)
    (hrows : ∀ s' ∈ w'.db.authSessions.rows, ∃ s ∈ w.db.authSessions.rows, s'.id = s.id) :
    SessionIdsDrawn env w' := by
  intro s' hs'
  obtain ⟨s, hs, hid⟩ := hrows s' hs'
  obtain ⟨k, hk, hdrawn⟩ := h s hs
  exact ⟨k, lt_of_lt_of_le hk hdraws, hid.trans hdrawn⟩

theorem SessionIdsDrawn.of_updated (h : SessionIdsDrawn env w) {p : AuthSession → Bool}
    {f : AuthSession → AuthSession} (hdraws : w.draws ≤ w'.draws)
    (hrows : w'.db.authSessions.rows = w.db.authSessions.rows.map fun s => if p s then f s else s)
    (hf : ∀ s, (f s).id = s.id) : SessionIdsDrawn env w' := by
  apply h.of_rows hdraws
  intro s' hs'
  rw [hrows] at hs'
  rcases Table.of_mem_updated hs' with ⟨s, hs, -, rfl⟩ | ⟨hs, -⟩
  · exact ⟨s, hs, hf s⟩
  · exact ⟨s', hs, rfl⟩

theorem SessionIdsDrawn.change (h : SessionIdsDrawn env w) {k : Effect}
    (hchange : Change env w k w') :
    SessionIdsDrawn env w' := by
  cases hchange with
  | draw n hn | comet n rows hn => exact h.of_rows hn fun s hs => ⟨s, hs, rfl⟩
  | touch | create | rebind | restore => exact h
  | login row sessions hrow hlive hsessions =>
    intro s hs
    rcases (Table.mem_insert? hsessions).mp hs with hold | rfl
    · obtain ⟨k, hk, hdrawn⟩ := h s hold
      exact ⟨k, Nat.lt_add_right 3 hk, hdrawn⟩
    · exact ⟨w.draws + 2, Nat.lt_succ_self _, rfl⟩
  | refresh session row sessions hjoin hsessions =>
    exact h.of_updated (Nat.le_add_right _ 2) (Table.update?_rows hsessions) fun _ => rfl
  | revokeSession | revokeTokens | delete =>
    exact h.of_updated (le_refl _) rfl fun _ => rfl
  | hardDelete id =>
    exact h.of_rows (le_refl _) fun s hs => ⟨s, (Table.mem_delete.mp hs).1, rfl⟩

theorem SessionIdsDrawn.changes (h : SessionIdsDrawn env w) (hchanges : Changes env w w') :
    SessionIdsDrawn env w' := by
  induction hchanges with
  | refl => exact h
  | tail _ hchange ih =>
    obtain ⟨k, hchange⟩ := hchange
    exact ih.change hchange

theorem SessionIdsDrawn.exec (h : SessionIdsDrawn env w) (hinv : StoreInv env w) (op : Op) :
    SessionIdsDrawn env (exec env w op).1 := by
  refine exec_cases (fun _ => h.changes) (fun _ _ _ _ => h) (fun _ _ _ _ => h) (fun _ => ?_)
    (fun _ _ => h)
  rw [openStore_of_inv hinv]
  exact h

theorem SessionIdsDrawn.run {start : ℕ} {log : List Event}
    (hrun : StoreRun env (World.fresh env start) log w) : SessionIdsDrawn env w := by
  have hboth : StoreInv env w ∧ SessionIdsDrawn env w := by
    apply hrun.invariant (P := fun v => StoreInv env v ∧ SessionIdsDrawn env v)
    · intro s l t hinv hstep
      have hexec := hinv.2.exec hinv.1 l.op
      rw [hstep.2] at hexec
      exact ⟨hinv.1.step hstep, hexec⟩
    · refine ⟨StoreInv.fresh start, ?_⟩
      rw [fresh_eq]
      intro s hs
      cases hs
  exact hboth.2

/-- With fresh random values the insert of a session is never refused. -/
theorem newSession_fits (hinv : SessionInv env w) (hids : SessionIdsDrawn env w)
    (hrand : env.NeverRepeats) (userID : ℕ) :
    w.db.authSessions.insert? (newSession env w userID) ≠ none := by
  have happart : ∀ s ∈ w.db.authSessions.rows, Apart sessionKeys s (newSession env w userID) := by
    intro s hs
    obtain ⟨k, hk, hid⟩ := hids s hs
    obtain ⟨i, hi, haccess, hrefresh⟩ := hinv.drawn s hs
    have hidne : s.id ≠ (newSession env w userID).id := by
      intro heq
      have := hrand _ _ _ _ (hid.symm.trans heq)
      omega
    have haccessne : s.accessToken ≠ (newSession env w userID).accessToken := by
      intro heq
      have := hrand _ _ _ _ (haccess.symm.trans heq)
      omega
    have hrefreshne : s.refreshToken ≠ (newSession env w userID).refreshToken := by
      intro heq
      have := hrand _ _ _ _ (hrefresh.symm.trans heq)
      omega
    intro key hkey hnew
    simp only [sessionKeys, List.mem_cons, List.not_mem_nil, or_false] at hkey hnew
    rcases hkey with rfl | rfl | rfl
    · simp [hidne] at hnew
    · simp [haccessne] at hnew
    · simp [hrefreshne] at hnew
  obtain ⟨sessions, hsessions⟩ := Table.insert?_some happart
  rw [hsessions]
  exact Option.some_ne_none sessions

/-- Only the phone and the email of a new account can stand in its way. -/
theorem insertUser_fits {row : UserRow} (hphone : ∀ r ∈ w.db.users.rows, r.phone ≠ row.phone)
    (hemail : ∀ r ∈ w.db.users.rows, ∀ e, row.email = some e → r.email ≠ some e) :
    ∃ db, w.db.insertUser row = some db := by
  have happart : ∀ r ∈ w.db.users.rows,
      Apart userKeys r { row with id := w.db.nextUserID } := by
    intro r hr key hkey hnew
    have hlt := Db.lt_nextUserID hr
    rcases mem_userKeys.mp hkey with rfl | rfl | ⟨e, he, -, rfl⟩
    · rcases mem_userKeys.mp hnew with heq | heq | ⟨e, -, -, heq⟩
      · simp only [UserKey.id.injEq] at heq
        omega
      · cases heq
      · cases heq
    · rcases mem_userKeys.mp hnew with heq | heq | ⟨e, -, -, heq⟩
      · cases heq
      · exact hphone r hr (UserKey.phone.inj heq)
      · cases heq
    · rcases mem_userKeys.mp hnew with heq | heq | ⟨e', he', -, heq⟩
      · cases heq
      · cases heq
      · rw [← UserKey.email.inj heq] at he'
        exact hemail r hr e he' he
  obtain ⟨users, husers⟩ := Table.insert?_some happart
  unfold Db.insertUser
  rw [husers]
  exact ⟨_, rfl⟩

/-- A key in use is refused. -/
theorem insertUser_refused {row r : UserRow} {k : UserKey} (hr : r ∈ w.db.users.rows)
    (hk : k ∈ userKeys r) (hnew : k ∈ userKeys { row with id := w.db.nextUserID }) :
    w.db.insertUser row = none := by
  cases hinsert : w.db.insertUser row with
  | none => rfl
  | some db =>
    obtain ⟨users, husers, -⟩ := Db.insertUser_some hinsert
    have hold : r ∈ users.rows := (Table.mem_insert? husers).mpr (Or.inl hr)
    have hadded : { row with id := w.db.nextUserID } ∈ users.rows :=
      (Table.mem_insert? husers).mpr (Or.inr rfl)
    have hsame : r = { row with id := w.db.nextUserID } := users.eq_of_key hold hadded hk hnew
    have hlt := Db.lt_nextUserID hr
    rw [hsame] at hlt
    exact absurd hlt (lt_irrefl _)

/-- A row with a phone number in its first column is bound to no email of this form. -/
theorem phone_of_answers (hinv : StoreInv env w) (hx : IsPhone x) {r : UserRow}
    (hr : r ∈ w.db.users.rows) (hanswers : r.answersTo x = true) : r.phone = x := by
  obtain ⟨hcolumns, hlive⟩ := UserRow.answersTo_iff.mp hanswers
  rcases hcolumns with hphone | hemail
  · exact hphone
  · rcases hinv.bindings.bound r hr hlive with ⟨-, hmail⟩ | ⟨hmail, hsame⟩
    · have hat := (hmail x hemail).1
      rw [hasAt_of_phone hx] at hat
      cases hat
    · rw [hemail] at hsame
      exact (Option.some.inj hsame).symm

/-- A phone number without an account can be inserted. -/
theorem phone_fits (hinv : StoreInv env w) (hx : IsPhone x) (hnone : userByPhoneRow w x = none)
    {row : UserRow} (hphone : row.phone = x) (hemail : row.email = none) :
    ∃ db, w.db.insertUser row = some db := by
  apply insertUser_fits
  · intro r hr hsame
    rw [hphone] at hsame
    have hmiss := Table.first?_eq_none.mp (Option.map_eq_none_iff.mp hnone) r hr
    by_cases hlive : r.deletedAt = none
    · exact hmiss (UserRow.answersTo_iff.mpr ⟨Or.inl hsame, hlive⟩)
    · have hmark := hinv.bindings.marked r hr hlive
      rw [hsame] at hmark
      exact phone_ne_marked hmark hx
  · intro r hr e he
    rw [hemail] at he
    cases he

end

/-- The live account of the identifier is the one with this id. -/
structure World.OwnedBy (w : World) (x : String) (account : ℕ) : Prop where
  bound : w.AnswersTo account x
  unique : ∀ r ∈ w.db.users.rows, r.answersTo x = true → r.id = account

/-- A call that has not found an account so far. -/
inductive LoginPhase.Early (x : String) : LoginPhase → Prop
  | looking : Early x .looking
  | inserting (hat : hasAt x = false) : Early x .inserting
  | creating (hat : hasAt x = true) : Early x .creating

/-- The session behind the token that a call has returned. -/
def LoginSession (w : World) (account : ℕ) (token : String) (time : ℕ) : Prop :=
  ∃ s ∈ w.db.authSessions.rows, s.accessToken = token ∧ s.userID = account ∧
    s.revokedAt = none ∧ s.accessExpiresAt = time + accessTokenTTL

/-- The phases of a call once the identifier has its account. -/
inductive LoginPhase.Fits (x : String) (w : World) (account : ℕ) : LoginPhase → Prop
  | early {phase : LoginPhase} (hearly : phase.Early x) : Fits x w account phase
  | lookingAgain : Fits x w account .lookingAgain
  | reading : Fits x w account (.reading x)
  | issuing (created : Bool) : Fits x w account (.issuing account created)
  | answered (u : User) (created : Bool) (time : ℕ) (hid : u.id = account)
      (hsession : LoginSession w account u.token time) :
      Fits x w account (.answered (.ok (u, created)) time)

inductive FirstLogins.Stage (x : String) (s : FirstLogins) : Prop
  | nobody (hnone : userByPhoneRow s.world x = none) (hcalls : ∀ c ∈ s.calls, c.Early x)
  | somebody (account : ℕ) (howned : s.world.OwnedBy x account)
      (hcalls : ∀ c ∈ s.calls, c.Fits x s.world account)
      (hone : s.calls.countP LoginPhase.creator = 1)

structure FirstLoginInv (env : Externals) (x : String) (s : FirstLogins) : Prop where
  store : StoreInv env s.world
  ids : SessionIdsDrawn env s.world
  stage : s.Stage x

section
variable {env : Externals} {x : String} {w w' : World} {account : ℕ} {phase phase' : LoginPhase}
  {s s' : FirstLogins} {l : FirstLoginLabel}

theorem World.OwnedBy.lookup (h : w.OwnedBy x account) :
    ∃ u, userByPhoneRow w x = some u ∧ u.id = account := by
  obtain ⟨row, hrow, -, hanswers⟩ := h.bound
  cases hlookup : userByPhoneRow w x with
  | none =>
    exact absurd hanswers (Table.first?_eq_none.mp (Option.map_eq_none_iff.mp hlookup) row hrow)
  | some u =>
    obtain ⟨r, hr, rfl⟩ := Option.map_eq_some_iff.mp hlookup
    exact ⟨_, rfl, h.unique r (Table.mem_of_first? hr) (Table.first?_holds hr)⟩

theorem World.OwnedBy.issue (h : w.OwnedBy x account) (userID : ℕ) :
    (issueAuthSession env w userID).1.OwnedBy x account := by
  refine ⟨issueAuthSession_answersTo h.bound, ?_⟩
  rcases hcall : issueAuthSession env w userID with ⟨w', result⟩
  rcases issueAuthSession_cases hcall with ⟨e, n, -, -, rfl⟩ | ⟨row, sessions, -, -, -, -, rfl⟩
  · exact h.unique
  · intro r hr hanswers
    rcases Table.of_mem_updated hr with ⟨a, ha, -, rfl⟩ | ⟨hold, -⟩
    · exact h.unique a ha hanswers
    · exact h.unique r hold hanswers

/-- The row just inserted is the account of an identifier that had none. -/
theorem World.OwnedBy.insert {row : UserRow} {db : Db} (hnone : userByPhoneRow w x = none)
    (hrow : row.answersTo x = true) (hinsert : w.db.insertUser row = some db) :
    World.OwnedBy { w with db := db } x w.db.nextUserID := by
  refine ⟨(insertUser_bound hnone hrow hinsert).2.1, ?_⟩
  obtain ⟨users, husers, rfl⟩ := Db.insertUser_some hinsert
  intro r hr hanswers
  rcases (Table.mem_insert? husers).mp hr with hold | rfl
  · exact absurd hanswers (Table.first?_eq_none.mp (Option.map_eq_none_iff.mp hnone) r hold)
  · rfl

theorem LoginPhase.Fits.mono (h : phase.Fits x w account)
    (hsessions : ∀ s ∈ w.db.authSessions.rows, s ∈ w'.db.authSessions.rows) :
    phase.Fits x w' account := by
  cases h with
  | early hearly => exact Fits.early hearly
  | lookingAgain => exact Fits.lookingAgain
  | reading => exact Fits.reading
  | issuing created => exact Fits.issuing created
  | answered u created time hid hsession =>
    obtain ⟨s, hs, hfacts⟩ := hsession
    exact Fits.answered u created time hid ⟨s, hsessions s hs, hfacts⟩

theorem LoginPhase.Early.not_creator (h : phase.Early x) : phase.creator = false := by
  cases h <;> rfl

/-- The state of the store that every step of a call keeps. -/
structure Sound (env : Externals) (w w' : World) : Prop where
  store : StoreInv env w'
  ids : SessionIdsDrawn env w'
  sessions : ∀ s ∈ w.db.authSessions.rows, s ∈ w'.db.authSessions.rows

theorem Sound.refl (hstore : StoreInv env w) (hids : SessionIdsDrawn env w) : Sound env w w :=
  ⟨hstore, hids, fun _ hs => hs⟩

theorem Sound.insert (hstore : StoreInv env w) (hids : SessionIdsDrawn env w) {row : UserRow}
    {db : Db} (hinsert : w.db.insertUser row = some db) (hblank : row.Blank env) :
    Sound env w { w with db := db } := by
  obtain ⟨users, husers, rfl⟩ := Db.insertUser_some hinsert
  have hchange := Change.create w row users husers hblank
  exact ⟨hstore.change hchange, hids.change hchange, fun _ hs => hs⟩

/-- The session of the account is opened, and the call is done. -/
theorem issuing_step (hstore : StoreInv env w) (hids : SessionIdsDrawn env w)
    (hrand : env.NeverRepeats) (howned : w.OwnedBy x account) (created : Bool) :
    ∃ w' u, (LoginPhase.issuing account created).handle env x w =
        some (w', .answered (.ok (u, created)) w.now) ∧
      Sound env w w' ∧ w'.OwnedBy x account ∧
      (LoginPhase.answered (.ok (u, created)) w.now).Fits x w' account := by
  obtain ⟨row, hrow, hid, hanswers⟩ := howned.bound
  have hlive : row.isLive account = true :=
    UserRow.isLive_iff.mpr ⟨hid, (UserRow.answersTo_iff.mp hanswers).2⟩
  obtain ⟨w', u, hissue, hrows⟩ :=
    issueAuthSession_succeeds hrow hlive (newSession_fits hstore.sessions hids hrand account)
  have hchanges : Changes env w (issueAuthSession env w account).1 :=
    issueAuthSession_changes w account
  have howned' : (issueAuthSession env w account).1.OwnedBy x account := howned.issue account
  rw [hissue] at hchanges howned'
  refine ⟨w', u, by simp only [LoginPhase.handle, hissue, Except.map], ?_, howned', ?_⟩
  · refine ⟨hstore.changes hchanges, hids.changes hchanges, fun s hs => ?_⟩
    rw [hrows]
    exact List.mem_append_left _ hs
  · have hnew : newSession env w account ∈ w'.db.authSessions.rows := by
      rw [hrows]
      exact List.mem_append_right _ (List.mem_singleton_self _)
    rcases issueAuthSession_cases hissue with ⟨e, n, herror, -⟩ |
      ⟨r, sessions, -, hrlive, -, hok, -⟩
    · cases herror
    · cases hok
      exact LoginPhase.Fits.answered _ created w.now (UserRow.isLive_iff.mp hrlive).1
        ⟨_, hnew, rfl, rfl, rfl, rfl⟩

theorem somebody_step (hx : normalizeAccount env x = .ok x) (hrand : env.NeverRepeats)
    (hstore : StoreInv env w) (hids : SessionIdsDrawn env w) (howned : w.OwnedBy x account)
    (hfits : phase.Fits x w account) (hunraced : phase = .creating → w.Unclaimed x)
    (hhandle : phase.handle env x w = some (w', phase')) :
    Sound env w w' ∧ w'.OwnedBy x account ∧ phase'.Fits x w' account ∧
      phase'.creator = phase.creator := by
  obtain ⟨u, hlookup, hid⟩ := howned.lookup
  cases hfits with
  | early hearly =>
    cases hearly with
    | looking =>
      simp only [LoginPhase.handle, hlookup, hid] at hhandle
      cases hhandle
      exact ⟨Sound.refl hstore hids, howned, LoginPhase.Fits.issuing false, rfl⟩
    | inserting hat =>
      have hphone : IsPhone x := (isIdentifier_of_normalize hx).isPhone hat
      obtain ⟨row, hrow, -, hanswers⟩ := howned.bound
      have hcolumn := phone_of_answers hstore hphone hrow hanswers
      have hrefused : w.db.insertUser
          { id := 0, phone := x, createdAt := w.now, lastLoginAt := w.now } = none :=
        insertUser_refused (k := .phone x) hrow (by simp [userKeys, hcolumn]) (by simp [userKeys])
      simp only [LoginPhase.handle, hrefused] at hhandle
      cases hhandle
      exact ⟨Sound.refl hstore hids, howned, LoginPhase.Fits.lookingAgain, rfl⟩
    | creating hat =>
      obtain ⟨row, hrow, -, hanswers⟩ := howned.bound
      obtain ⟨hphone, hemail⟩ := hunraced rfl row hrow
      rcases (UserRow.answersTo_iff.mp hanswers).1 with hcolumn | hcolumn
      · exact absurd hcolumn hphone
      · exact absurd hcolumn hemail
  | lookingAgain =>
    simp only [LoginPhase.handle, hlookup, hid] at hhandle
    cases hhandle
    exact ⟨Sound.refl hstore hids, howned, LoginPhase.Fits.issuing false, rfl⟩
  | reading =>
    simp only [LoginPhase.handle, hlookup, Option.getD_some, hid] at hhandle
    cases hhandle
    exact ⟨Sound.refl hstore hids, howned, LoginPhase.Fits.issuing true, rfl⟩
  | issuing created =>
    obtain ⟨v, a, hissued, hsound, howned', hfits'⟩ :=
      issuing_step hstore hids hrand howned created
    rw [hissued] at hhandle
    cases hhandle
    exact ⟨hsound, howned', hfits', rfl⟩
  | answered a created time hid hsession => cases hhandle

theorem nobody_step (hx : normalizeAccount env x = .ok x) (hstore : StoreInv env w)
    (hids : SessionIdsDrawn env w) (hnone : userByPhoneRow w x = none) (hearly : phase.Early x)
    (hunraced : phase = .creating → w.Unclaimed x)
    (hhandle : phase.handle env x w = some (w', phase')) :
    w' = w ∧ phase'.Early x ∨
    ∃ account, Sound env w w' ∧ w'.OwnedBy x account ∧ phase'.Fits x w' account ∧
      phase'.creator = true := by
  cases hearly with
  | looking =>
    simp only [LoginPhase.handle, hnone] at hhandle
    cases hhandle
    refine Or.inl ⟨rfl, ?_⟩
    by_cases hat : hasAt x = true
    · rw [if_pos hat]
      exact LoginPhase.Early.creating hat
    · rw [if_neg hat]
      exact LoginPhase.Early.inserting (by simpa using hat)
  | inserting hat =>
    have hphone : IsPhone x := (isIdentifier_of_normalize hx).isPhone hat
    obtain ⟨db, hinsert⟩ : ∃ db, w.db.insertUser
        { id := 0, phone := x, createdAt := w.now, lastLoginAt := w.now } = some db :=
      phone_fits hstore hphone hnone rfl rfl
    simp only [LoginPhase.handle, hinsert] at hhandle
    cases hhandle
    have hblank : UserRow.Blank env
        { id := 0, phone := x, createdAt := w.now, lastLoginAt := w.now } :=
      ⟨Or.inl ⟨hphone, fun e he => by cases he⟩, rfl, rfl, rfl, rfl, rfl, rfl, rfl⟩
    exact Or.inr ⟨_, Sound.insert hstore hids hinsert hblank,
      World.OwnedBy.insert hnone (by simp [UserRow.answersTo]) hinsert,
      LoginPhase.Fits.issuing true, rfl⟩
  | creating hat =>
    have hemail : IsEmail env x := (isIdentifier_of_normalize hx).isEmail hat
    have hclaim := hunraced rfl
    obtain ⟨db, hinsert⟩ : ∃ db, w.db.insertUser
        { id := 0, phone := x, email := some x, passwordHash := some ""
          tokenRevokedAt := some 0, createdAt := w.now, lastLoginAt := w.now } = some db := by
      apply insertUser_fits
      · exact fun r hr => (hclaim r hr).1
      · intro r hr e he
        rw [← Option.some.inj he]
        exact (hclaim r hr).2
    simp only [LoginPhase.handle, validateBindings_email hemail, primaryOf, emailValue, if_true,
      if_neg (ne_empty_of_email hemail), hinsert] at hhandle
    cases hhandle
    have hblank : UserRow.Blank env
        { id := 0, phone := x, email := some x, passwordHash := some ""
          tokenRevokedAt := some 0, createdAt := w.now, lastLoginAt := w.now } :=
      ⟨Or.inr ⟨hemail, rfl⟩, rfl, rfl, rfl, rfl, rfl, rfl, rfl⟩
    exact Or.inr ⟨_, Sound.insert hstore hids hinsert hblank,
      World.OwnedBy.insert hnone (by simp [UserRow.answersTo]) hinsert,
      LoginPhase.Fits.reading, rfl⟩

theorem countP_set_same {α : Type*} {p : α → Bool} {cs : List α} {i : ℕ} {a b : α}
    (hi : cs[i]? = some a) (hsame : p b = p a) : (cs.set i b).countP p = cs.countP p := by
  obtain ⟨hlt, rfl⟩ := List.getElem?_eq_some_iff.mp hi
  rw [List.countP_set hlt, hsame]
  by_cases hp : p cs[i] = true
  · have hpos : 0 < cs.countP p := List.countP_pos_iff.mpr ⟨cs[i], List.getElem_mem hlt, hp⟩
    simp only [hp, if_true]
    omega
  · simp [hp]

theorem FirstLoginInv.step (h : FirstLoginInv env x s) (hx : normalizeAccount env x = .ok x)
    (hrand : env.NeverRepeats) (hstep : UnracedStep env x s l s') : FirstLoginInv env x s' := by
  obtain ⟨hstep, hunraced⟩ := hstep
  cases l with
  | call =>
    cases hstep
    refine ⟨h.store, h.ids, ?_⟩
    cases h.stage with
    | nobody hnone hcalls =>
      refine FirstLogins.Stage.nobody hnone ?_
      intro c hc
      rcases List.mem_append.mp hc with hold | hnew
      · exact hcalls c hold
      · rw [List.mem_singleton.mp hnew]
        exact LoginPhase.Early.looking
    | somebody account howned hcalls hone =>
      refine FirstLogins.Stage.somebody account howned ?_ ?_
      · intro c hc
        rcases List.mem_append.mp hc with hold | hnew
        · exact hcalls c hold
        · rw [List.mem_singleton.mp hnew]
          exact LoginPhase.Fits.early LoginPhase.Early.looking
      · rw [List.countP_append, hone]
        rfl
  | advance seconds =>
    cases hstep
    refine ⟨h.store.clock _, h.ids, ?_⟩
    cases h.stage with
    | nobody hnone hcalls => exact FirstLogins.Stage.nobody hnone hcalls
    | somebody account howned hcalls hone =>
      exact FirstLogins.Stage.somebody account ⟨howned.bound, howned.unique⟩
        (fun c hc => (hcalls c hc).mono fun _ hs => hs) hone
  | handle i =>
    simp only [FirstLogins.step] at hstep
    split at hstep
    · cases hstep
    next phase hi =>
    split at hstep
    · cases hstep
    next w' phase' hhandle =>
    cases hstep
    have hmem : phase ∈ s.calls := List.mem_of_getElem? hi
    have hcareful : phase = .creating → s.world.Unclaimed x := by
      intro hphase
      rw [hphase] at hi
      exact hunraced hi
    cases h.stage with
    | nobody hnone hcalls =>
      rcases nobody_step hx h.store h.ids hnone (hcalls phase hmem) hcareful hhandle with
        ⟨rfl, hearly⟩ | ⟨account, hsound, howned, hfits, hcreator⟩
      · refine ⟨h.store, h.ids, FirstLogins.Stage.nobody hnone fun c hc => ?_⟩
        rcases List.mem_or_eq_of_mem_set hc with hold | rfl
        · exact hcalls c hold
        · exact hearly
      · refine ⟨hsound.store, hsound.ids, FirstLogins.Stage.somebody account howned ?_ ?_⟩
        · intro c hc
          rcases List.mem_or_eq_of_mem_set hc with hold | rfl
          · exact LoginPhase.Fits.early (hcalls c hold)
          · exact hfits
        · have hzero : s.calls.countP LoginPhase.creator = 0 := by
            rw [List.countP_eq_zero]
            intro c hc
            rw [(hcalls c hc).not_creator]
            exact Bool.false_ne_true
          obtain ⟨hlt, -⟩ := List.getElem?_eq_some_iff.mp hi
          simp only [List.countP_set hlt, hcreator, hzero, if_true]
          omega
    | somebody account howned hcalls hone =>
      obtain ⟨hsound, howned', hfits, hcreator⟩ :=
        somebody_step hx hrand h.store h.ids howned (hcalls phase hmem) hcareful hhandle
      refine ⟨hsound.store, hsound.ids, FirstLogins.Stage.somebody account howned' ?_ ?_⟩
      · intro c hc
        rcases List.mem_or_eq_of_mem_set hc with hold | rfl
        · exact (hcalls c hold).mono hsound.sessions
        · exact hfits
      · rw [countP_set_same hi hcreator]
        exact hone

theorem LoginSession.authenticates (hstore : StoreInv env w) {token : String} {time : ℕ}
    (hsession : LoginSession w account token time) (hfresh : w.now ≤ time + accessTokenTTL) :
    ∃ v, userByToken w token = .ok (some v) ∧ v.id = account := by
  obtain ⟨s, hs, rfl, howner, hopen, hexpires⟩ := hsession
  obtain ⟨u, hu, hid⟩ := hstore.sessions.owner s hs
  obtain ⟨hlive, hflag⟩ := hstore.sessions.openOwner s hs u hu hid hopen
  obtain ⟨i, -, haccess, -⟩ := hstore.sessions.drawn s hs
  have hne : s.accessToken ≠ "" := by
    rw [haccess]
    exact env.makeToken_ne_empty "pt" i
  have hjoin := Db.joinSession_eq (p := fun a => a.accessToken == s.accessToken &&
    w.now ≤ a.accessExpiresAt) hs (by simp [hexpires, hfresh]) hopen
    (fun a ha hmatch => w.db.session_eq_of_access ha hs
      (by simpa using (Bool.and_eq_true_iff.mp hmatch).1)) hu hid hlive hflag
  refine ⟨u.scanWith s.accessToken (some s.refreshToken), ?_, hid.trans howner⟩
  unfold userByToken
  rw [if_neg hne, hjoin]
  rfl

theorem FirstLoginInv.agree (h : FirstLoginInv env x s) : s.Agree := by
  cases h.stage with
  | nobody hnone hcalls =>
    have hnobody : ∀ result t, .answered result t ∉ s.calls := by
      intro result t hmem
      cases hcalls _ hmem
    refine ⟨fun result t hmem => absurd hmem (hnobody result t),
      ⟨0, fun u created t hmem => absurd hmem (hnobody _ t)⟩, ?_, ?_,
      fun u created t hmem => absurd hmem (hnobody _ t)⟩
    · rw [List.countP_eq_zero.mpr]
      · exact Nat.zero_le 1
      · intro c hc
        rw [(hcalls c hc).not_creator, Bool.and_false]
        exact Bool.false_ne_true
    · intro hne hall
      obtain ⟨c, hc⟩ := List.exists_mem_of_ne_nil _ hne
      have hanswered := List.all_eq_true.mp hall c hc
      cases hcalls c hc <;> cases hanswered
  | somebody account howned hcalls hone =>
    refine ⟨?_, ⟨account, ?_⟩, ?_, fun _ _ => hone, ?_⟩
    · intro result t hmem
      cases hcalls _ hmem with
      | early hearly => cases hearly
      | answered u created time hid hsession => exact ⟨u, created, rfl⟩
    · intro u created t hmem
      cases hcalls _ hmem with
      | early hearly => cases hearly
      | answered u created time hid hsession => exact hid
    · rw [← hone]
      apply List.countP_mono_left
      intro c _ hboth
      exact (Bool.and_eq_true_iff.mp hboth).2
    · intro u created t hmem hfresh
      cases hcalls _ hmem with
      | early hearly => cases hearly
      | answered u created time hid hsession =>
        rw [hid]
        exact hsession.authenticates h.store hfresh

theorem LoginPhase.left_lt (h : phase.handle env x w = some (w', phase')) :
    phase'.left < phase.left := by
  cases phase with
  | looking =>
    simp only [handle] at h
    split at h
    · cases h
      exact (by decide : 1 < 4)
    · cases h
      split
      · exact (by decide : 3 < 4)
      · exact (by decide : 3 < 4)
  | inserting =>
    simp only [handle] at h
    split at h
    · cases h
      exact (by decide : 1 < 3)
    · cases h
      exact (by decide : 2 < 3)
  | lookingAgain =>
    simp only [handle] at h
    split at h
    · cases h
      exact (by decide : 1 < 2)
    · cases h
      exact (by decide : 0 < 2)
  | creating =>
    simp only [handle] at h
    split at h
    · cases h
      exact (by decide : 0 < 3)
    · split at h
      · cases h
        exact (by decide : 0 < 3)
      · cases h
        exact (by decide : 2 < 3)
  | reading primary =>
    cases h
    exact (by decide : 1 < 2)
  | issuing userID created =>
    cases h
    exact (by decide : 0 < 1)
  | answered result time => cases h

/-- Every step of a call brings its answer nearer. -/
def StepsLeft (log : List FirstLoginLabel) (s : FirstLogins) : Prop :=
  (∀ i c, s.calls[i]? = some c → c.left + log.count (.handle i) ≤ 4) ∧
    ∀ i, s.calls.length ≤ i → log.count (.handle i) = 0

theorem StepsLeft.step {log : List FirstLoginLabel} (h : StepsLeft log s)
    (hstep : FirstLoginStep env x s l s') : StepsLeft (log ++ [l]) s' := by
  unfold FirstLoginStep at hstep
  cases l with
  | call =>
    cases hstep
    refine ⟨fun i c hi => ?_, fun i hi => ?_⟩
    · rw [List.count_append, List.count_singleton, if_neg (by simp)]
      by_cases hlt : i < s.calls.length
      · rw [List.getElem?_append_left hlt] at hi
        exact h.1 i c hi
      · rw [List.getElem?_append_right (by omega)] at hi
        have hlooking : c = .looking := by
          simpa using List.mem_of_getElem? hi
        rw [hlooking, h.2 i (by omega)]
        exact le_refl 4
    · rw [List.count_append, List.count_singleton, if_neg (by simp)]
      rw [List.length_append, List.length_singleton] at hi
      exact h.2 i (by omega)
  | advance seconds =>
    cases hstep
    refine ⟨fun i c hi => ?_, fun i hi => ?_⟩
    · rw [List.count_append, List.count_singleton, if_neg (by simp)]
      exact h.1 i c hi
    · rw [List.count_append, List.count_singleton, if_neg (by simp)]
      exact h.2 i hi
  | handle j =>
    simp only [FirstLogins.step] at hstep
    split at hstep
    · cases hstep
    next phase hj =>
    split at hstep
    · cases hstep
    next w' phase' hhandle =>
    cases hstep
    obtain ⟨hlt, -⟩ := List.getElem?_eq_some_iff.mp hj
    refine ⟨fun i c hi => ?_, fun i hi => ?_⟩
    · rw [List.count_append, List.count_singleton]
      by_cases hij : j = i
      · subst hij
        have hold := h.1 j phase hj
        have hless := LoginPhase.left_lt hhandle
        rw [List.getElem?_set_self hlt] at hi
        rw [← Option.some.inj hi, if_pos (by simp)]
        omega
      · rw [List.getElem?_set_ne hij] at hi
        rw [if_neg (by simpa using hij)]
        exact h.1 i c hi
    · rw [List.length_set] at hi
      rw [List.count_append, List.count_singleton, if_neg (by simp; omega)]
      exact h.2 i hi

/-- Concurrent first logins agree in every run in which no email is inserted twice; a call
answers within four statements. -/
theorem first_logins_agree (hx : normalizeAccount env x = .ok x) (hrand : env.NeverRepeats)
    {start : ℕ} {past : List Event} (hpast : StoreRun env (World.fresh env start) past w)
    (hnone : userByPhoneRow w x = none) {log : List FirstLoginLabel}
    (hrun : Run (UnracedStep env x) ⟨w, []⟩ log s) :
    s.Agree ∧ ∀ i c, s.calls[i]? = some c → 4 ≤ log.count (.handle i) → c.isAnswered = true := by
  have hinit : FirstLoginInv env x ⟨w, []⟩ :=
    ⟨StoreInv.run hpast, SessionIdsDrawn.run hpast,
      FirstLogins.Stage.nobody hnone fun c hc => absurd hc List.not_mem_nil⟩
  have hinv : FirstLoginInv env x s :=
    hrun.invariant (fun hinv hstep => hinv.step hx hrand hstep) hinit
  have hleft : StepsLeft log s := by
    apply hrun.history (P := StepsLeft)
    · intro before a l b _ hold hstep
      exact hold.step hstep.1
    · exact ⟨fun i c hi => (by cases hi), fun _ _ => rfl⟩
  refine ⟨hinv.agree, fun i c hi hfour => ?_⟩
  have hzero : c.left = 0 := by
    have hbound := hleft.1 i c hi
    omega
  cases c with
  | answered result time => rfl
  | _ => cases hzero

/-- No call for a phone number ever inserts an email. -/
theorem no_email_of_phone (hat : hasAt x = false) {log : List FirstLoginLabel}
    (hrun : Run (FirstLoginStep env x) ⟨w, []⟩ log s) : .creating ∉ s.calls := by
  apply hrun.invariant (P := fun s => .creating ∉ s.calls) _ List.not_mem_nil
  intro s l s' hold hstep
  unfold FirstLoginStep at hstep
  cases l with
  | call =>
    cases hstep
    simp [hold]
  | advance seconds =>
    cases hstep
    exact hold
  | handle i =>
    simp only [FirstLogins.step] at hstep
    split at hstep
    · cases hstep
    next phase hi =>
    split at hstep
    · cases hstep
    next w' phase' hhandle =>
    cases hstep
    intro hmem
    rcases List.mem_or_eq_of_mem_set hmem with hbefore | hnow
    · exact hold hbefore
    · subst hnow
      cases phase with
      | looking =>
        simp only [LoginPhase.handle, hat] at hhandle
        split at hhandle <;> cases hhandle
      | inserting | lookingAgain =>
        simp only [LoginPhase.handle] at hhandle
        split at hhandle <;> cases hhandle
      | creating =>
        exact hold (List.mem_of_getElem? hi)
      | _ => cases hhandle

/-- For a phone number every interleaving will do. -/
theorem first_phone_logins_agree (hx : IsPhone x) (hrand : env.NeverRepeats) {start : ℕ}
    {past : List Event} (hpast : StoreRun env (World.fresh env start) past w)
    (hnone : userByPhoneRow w x = none) {log : List FirstLoginLabel}
    (hrun : Run (FirstLoginStep env x) ⟨w, []⟩ log s) : s.Agree := by
  have hinit : FirstLoginInv env x ⟨w, []⟩ :=
    ⟨StoreInv.run hpast, SessionIdsDrawn.run hpast,
      FirstLogins.Stage.nobody hnone fun c hc => absurd hc List.not_mem_nil⟩
  have hinv : FirstLoginInv env x s := by
    apply hrun.history (P := fun _ s => FirstLoginInv env x s) _ hinit
    intro before a l b hbefore hinv hstep
    apply hinv.step (normalizeAccount_phone hx) hrand ⟨hstep, ?_⟩
    cases l with
    | handle i =>
      intro hcreating
      exact absurd (List.mem_of_getElem? hcreating)
        (no_email_of_phone (hasAt_of_phone hx) hbefore)
    | call => trivial
    | advance seconds => trivial
  exact hinv.agree

/-- A call that inserts an email that is claimed by then fails. -/
theorem claimed_email_refused (hx : IsEmail env x) (hclaimed : ¬ w.Unclaimed x) :
    LoginPhase.creating.handle env x w =
      some (w, .answered (.error "手机号或邮箱已被其他账号绑定") w.now) := by
  unfold World.Unclaimed at hclaimed
  push Not at hclaimed
  obtain ⟨r, hr, hcolumns⟩ := hclaimed
  have hrefused : w.db.insertUser
      { id := 0, phone := x, email := some x, passwordHash := some ""
        tokenRevokedAt := some 0, createdAt := w.now, lastLoginAt := w.now } = none := by
    by_cases hphone : r.phone = x
    · exact insertUser_refused (k := .phone x) hr (by simp [userKeys, hphone])
        (by simp [userKeys])
    · exact insertUser_refused (k := .email x) hr
        (by simp [userKeys, emailKeys, hcolumns hphone, ne_empty_of_email hx])
        (by simp [userKeys, emailKeys, ne_empty_of_email hx])
  simp only [LoginPhase.handle, validateBindings_email hx, primaryOf, emailValue, if_true,
    if_neg (ne_empty_of_email hx), hrefused]

end

instance (w : World) (x : String) : Decidable (w.Unclaimed x) :=
  inferInstanceAs (Decidable (∀ r ∈ w.db.users.rows, r.phone ≠ x ∧ r.email ≠ some x))

instance (x : String) (s : FirstLogins) (l : FirstLoginLabel) : Decidable (s.Unraced x l) :=
  match l with
  | .handle i => inferInstanceAs (Decidable (s.calls[i]? = some .creating → s.world.Unclaimed x))
  | .call | .advance _ => inferInstanceAs (Decidable True)

/-- The state after these steps, as long as no email is inserted twice. -/
def FirstLogins.runUnraced (env : Externals) (x : String) (s : FirstLogins) :
    List FirstLoginLabel → Option FirstLogins
  | [] => some s
  | l :: rest =>
    if s.Unraced x l then (s.step env x l).bind fun s' => s'.runUnraced env x rest else none

theorem FirstLogins.runUnraced_run {env : Externals} {x : String} {s s' : FirstLogins}
    {labels : List FirstLoginLabel} (h : s.runUnraced env x labels = some s') :
    Run (UnracedStep env x) s labels s' := by
  induction labels generalizing s with
  | nil =>
    cases h
    exact Run.refl _
  | cons l rest ih =>
    unfold runUnraced at h
    split at h
    · next hunraced =>
      obtain ⟨t, hstep, hrest⟩ := Option.bind_eq_some_iff.mp h
      exact Run.append (Run.single ⟨hstep, hunraced⟩) (ih hrest)
    · cases h

/-- Two calls that both find no account before either of them inserts one. -/
def racingCalls : List FirstLoginLabel :=
  [.call, .call, .handle 0, .handle 1, .handle 0, .handle 1, .handle 1, .handle 0, .handle 1]

def FirstLogins.fresh : FirstLogins := ⟨World.fresh .unary 0, []⟩

theorem racing_phone_logins_agree :
    ((FirstLogins.fresh.runUnraced .unary "13800000000" racingCalls).get
      (by decide +kernel)).Agree :=
  (first_logins_agree (x := "13800000000") rfl Externals.unary_neverRepeats
    (Run.refl (World.fresh .unary 0)) rfl
    (FirstLogins.runUnraced_run (Option.some_get _).symm)).1

/-- The state after these steps, raced or not. -/
def FirstLogins.runAll (env : Externals) (x : String) (s : FirstLogins) :
    List FirstLoginLabel → Option FirstLogins
  | [] => some s
  | l :: rest => (s.step env x l).bind fun s' => s'.runAll env x rest

theorem FirstLogins.runAll_run {env : Externals} {x : String} {s s' : FirstLogins}
    {labels : List FirstLoginLabel} (h : s.runAll env x labels = some s') :
    Run (FirstLoginStep env x) s labels s' := by
  induction labels generalizing s with
  | nil =>
    cases h
    exact Run.refl _
  | cons l rest ih =>
    obtain ⟨t, hstep, hrest⟩ := Option.bind_eq_some_iff.mp h
    exact Run.append (Run.single hstep) (ih hrest)

/-- Two first logins by email: the one that inserts second fails. -/
def racingEmails : List FirstLoginLabel :=
  [.call, .call, .handle 0, .handle 1, .handle 0, .handle 1]

theorem racing_email_login_fails :
    ∃ s, Run (FirstLoginStep .unary "a@b") FirstLogins.fresh racingEmails s ∧
      normalizeAccount .unary "a@b" = .ok "a@b" ∧
      userByPhoneRow FirstLogins.fresh.world "a@b" = none ∧ ¬ s.Agree := by
  have hcalls : (FirstLogins.fresh.runAll .unary "a@b" racingEmails).map FirstLogins.calls =
      some [.reading "a@b", .answered (.error "手机号或邮箱已被其他账号绑定") 0] := by
    decide +kernel
  obtain ⟨s, hrun, hanswers⟩ := Option.map_eq_some_iff.mp hcalls
  refine ⟨s, FirstLogins.runAll_run hrun, by decide +kernel, by decide +kernel, fun hagree => ?_⟩
  have hmem : LoginPhase.answered (.error "手机号或邮箱已被其他账号绑定") 0 ∈ s.calls := by
    rw [hanswers]
    exact List.mem_cons_of_mem _ (List.mem_singleton_self _)
  obtain ⟨u, created, hok⟩ := hagree.succeed _ _ hmem
  cases hok

end PapeSdk
