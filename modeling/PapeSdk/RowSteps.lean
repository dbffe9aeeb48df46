import PapeSdk.AuthSoundness
import PapeSdk.Renumbering
import PapeSdk.StoreInvariant

/-!
What an operation makes of a users row, said once for every operation. Each row
of the state after it either comes from a row of the state before, by one of
the updates listed here, or belongs to a new account. The numbering of ids is
enough for this; nothing is assumed about sessions and identifiers, so that it
holds for a store opened on any file.
-/

namespace PapeSdk

open KeyedTables Identifiers EventRuns

/-- An update of one row. -/
inductive RowStep (env : Externals) (w : World) (op : Op) (r : UserRow) : UserRow → Prop
  | same : RowStep env w op r r
  | loggedIn (pair : TokenPair) (h : op.LogsIn env w r.id) :
      RowStep env w op r (r.loggedIn pair w.now)
  | refreshed (pair : TokenPair) : RowStep env w op r (r.withPair pair w.now)
  | revoked (h : op = .revokeTokens r.id) :
      RowStep env w op r { r with tokenRevokedAt := some w.now }
  | rebound (phone email : String) : RowStep env w op r (r.rebound phone email w.now)
  | password (hash : String) : RowStep env w op r (r.withPassword hash w.now)
  | overridden (value : ℕ) : RowStep env w op r { r with securityOverride := some value }
  | longToken (token : String) (h : op = .setLongToken r.id token) :
      RowStep env w op r { r with longToken := some token }
  | cancellation (status : ℕ) (time : Option ℕ) :
      RowStep env w op r { r with cancellationStatus := status, cancellationAt := time }
  | deleted (now : ℕ) : RowStep env w op r (r.softDelete now)
  | restored (phone : String) : RowStep env w op r (r.restored phone w.now)
  | email (value : String) : RowStep env w op r { r with email := some value }

theorem RowStep.sameID {env : Externals} {w : World} {op : Op} {r r' : UserRow}
    (h : RowStep env w op r r') : r'.id = r.id := by
  cases h <;> rfl

/-- The row of an account that was not there before. -/
structure UserRow.New (w : World) (r : UserRow) : Prop where
  longToken : r.longToken = none
  id : ∀ a ∈ w.db.users.rows, a.id ≠ r.id

/-- Every row comes from a row before, or is new. -/
def RowsStep (env : Externals) (w : World) (op : Op) (w' : World) : Prop :=
  ∀ r' ∈ w'.db.users.rows, (∃ r ∈ w.db.users.rows, RowStep env w op r r') ∨ r'.New w

section
variable {env : Externals} {w v w' : World} {op : Op} {k : Effect}

theorem RowsStep.of_sub (h : ∀ r ∈ w'.db.users.rows, r ∈ w.db.users.rows) :
    RowsStep env w op w' :=
  fun r hr => Or.inl ⟨r, h r hr, RowStep.same⟩

theorem RowsStep.of_same (h : w'.db.users = w.db.users) : RowsStep env w op w' := by
  apply RowsStep.of_sub
  intro r hr
  rwa [h] at hr

theorem RowsStep.of_updated {p : UserRow → Bool} {f : UserRow → UserRow}
    (hrows : w'.db.users.rows = w.db.users.rows.map fun r => if p r then f r else r)
    (hf : ∀ r, p r = true → RowStep env w op r (f r)) : RowsStep env w op w' := by
  intro r' hr'
  rw [hrows] at hr'
  rcases Table.of_mem_updated hr' with ⟨r, hr, hp, rfl⟩ | ⟨hr, -⟩
  · exact Or.inl ⟨r, hr, hf r hp⟩
  · exact Or.inl ⟨r', hr, RowStep.same⟩

theorem Change.rows (h : Change env w k w')
    (hk : k.Of op ∨ ∃ id, k = .login id ∧ op.LogsIn env w id) : RowsStep env w op w' := by
  cases h with
  | draw | comet | revokeSession => exact RowsStep.of_same rfl
  | touch t =>
    cases t with
    | password userID hash => exact RowsStep.of_updated rfl fun r _ => RowStep.password hash
    | override userID safe => exact RowsStep.of_updated rfl fun r _ => RowStep.overridden _
    | longToken userID token =>
      rcases hk with hop | ⟨id, hlogin, -⟩
      · have hop : op = .setLongToken userID token := hop
        refine RowsStep.of_updated rfl fun r hid => RowStep.longToken token ?_
        rw [hop, show r.id = userID from beq_iff_eq.mp hid]
      · cases hlogin
  | create row users husers hblank =>
    intro r' hr'
    rcases (Table.mem_insert? husers).mp hr' with hold | rfl
    · exact Or.inl ⟨r', hold, RowStep.same⟩
    · exact Or.inr ⟨hblank.longToken, fun a ha => (Db.lt_nextUserID ha).ne⟩
  | login row sessions hrow hlive hsessions =>
    rcases hk with hop | ⟨id, hlogin, hop⟩
    · cases hop
    · cases hlogin
      refine RowsStep.of_updated rfl fun r hisLive => RowStep.loggedIn _ ?_
      rw [(UserRow.isLive_iff.mp hisLive).1]
      exact hop
  | refresh => exact RowsStep.of_updated rfl fun r _ => RowStep.refreshed _
  | revokeTokens userID =>
    rcases hk with hop | ⟨id, hlogin, -⟩
    · have hop : op = .revokeTokens userID := hop
      refine RowsStep.of_updated rfl fun r hisLive => RowStep.revoked ?_
      rw [hop, (UserRow.isLive_iff.mp hisLive).1]
    · cases hlogin
  | rebind row phone email users hrow hlive hbound husers =>
    exact RowsStep.of_updated (Table.update?_rows husers) fun r _ => RowStep.rebound phone email
  | delete p userID now users hp husers =>
    exact RowsStep.of_updated (Table.update?_rows husers) fun r _ => RowStep.deleted now
  | restore id phone users hphone husers =>
    exact RowsStep.of_updated (Table.update?_rows husers) fun r _ => RowStep.restored phone
  | hardDelete id => exact RowsStep.of_sub fun r hr => (Table.mem_delete.mp hr).1

/-- The first session of a new account touches no other row. -/
theorem Change.firstLogin_rows (hcreate : Change env w .create v)
    (hlogin : Change env v (.login w.db.nextUserID) w') : RowsStep env w op w' := by
  have hcreated : RowsStep env w op v := hcreate.rows (Or.inl trivial)
  cases hcreate with
  | create row users husers hblank =>
  generalize hnext : w.db.nextUserID = next at hlogin
  cases hlogin with
  | login account sessions haccount hlive hsessions =>
  intro r' hr'
  rcases Table.of_mem_updated hr' with ⟨r, hr, hisLive, rfl⟩ | ⟨hr, -⟩
  · have hid : r.id = account.id := (UserRow.isLive_iff.mp hisLive).1
    rcases (Table.mem_insert? husers).mp hr with hold | rfl
    · have hlt := Db.lt_nextUserID hold
      omega
    · exact Or.inr ⟨hblank.longToken, fun a ha => (Db.lt_nextUserID ha).ne⟩
  · exact hcreated r' hr

theorem importLegacySession_world (env : Externals) (w : World) (r : UserRow) :
    ∃ n sessions, (importLegacySession env w r).1 =
      { w with draws := n, db := { w.db with authSessions := sessions } } := by
  unfold importLegacySession
  split
  · exact ⟨w.draws, w.db.authSessions, rfl⟩
  split
  · exact ⟨w.draws, w.db.authSessions, rfl⟩
  dsimp only
  split
  · exact ⟨w.draws + 1, w.db.authSessions, rfl⟩
  · next sessions _ => exact ⟨w.draws + 1, sessions, rfl⟩

/-- The import writes sessions and nothing else. -/
theorem importLegacySessions_world (env : Externals) (w : World) (rows : List UserRow) :
    ∃ n sessions, (importLegacySessions env w rows).1 =
      { w with draws := n, db := { w.db with authSessions := sessions } } := by
  induction rows generalizing w with
  | nil => exact ⟨w.draws, w.db.authSessions, rfl⟩
  | cons r rest ih =>
    obtain ⟨n, sessions, hone⟩ := importLegacySession_world env w r
    rcases hcall : importLegacySession env w r with ⟨v, result⟩
    rw [hcall] at hone
    rw [importLegacySessions, hcall]
    cases result with
    | error e => exact ⟨n, sessions, hone⟩
    | ok a =>
      obtain ⟨n', sessions', hrest⟩ := ih v
      refine ⟨n', sessions', hrest.trans ?_⟩
      dsimp only at hone
      rw [hone]

/-- After the migration a start writes sessions, and emails into rows. -/
theorem openStore_migrated (env : Externals) {db : Db}
    (hmigrate : migrateUnifiedUserIDs w.db = .ok db) :
    ∃ n sessions users, ∃ p : UserRow → Bool, (openStore env w).1 =
      { w with draws := n, db := { db with users := users, authSessions := sessions } } ∧
      users.rows = db.users.rows.map fun r =>
        if p r then { r with email := some (sqlLower r.phone) } else r := by
  obtain ⟨n, sessions, himport⟩ :=
    importLegacySessions_world env { w with db := db } db.users.rows
  have hnone : db.users.rows = db.users.rows.map fun r =>
      if (fun _ => false) r then { r with email := some (sqlLower r.phone) } else r := by
    simp
  rw [openStore, hmigrate]
  dsimp only
  rcases hcall : migrateLegacyAuthSessions env { w with db := db } with ⟨v, result⟩
  have hv : v = { w with draws := n, db := { db with authSessions := sessions } } := by
    rw [← himport]
    exact (congrArg Prod.fst hcall).symm
  cases result with
  | error e => exact ⟨n, sessions, db.users, fun _ => false, hv, hnone⟩
  | ok a =>
    dsimp only
    rw [hv, initBindings]
    split
    · exact ⟨n, sessions, db.users, fun _ => false, rfl, hnone⟩
    · next users husers =>
      exact ⟨n, sessions, users, UserRow.needsEmail, rfl, Table.update?_rows husers⟩

theorem IdInv.openStore {db : Db} (hmigrate : migrateUnifiedUserIDs w.db = .ok db)
    (h : IdInv { w with db := db }) : IdInv (openStore env w).1 := by
  obtain ⟨n, sessions, users, p, hworld, hrows⟩ := openStore_migrated env hmigrate
  rw [hworld]
  exact h.of_updated hrows (fun _ => rfl) rfl rfl rfl

theorem migrateUnifiedUserIDs_of_ids (h : IdInv w) : ∃ sessions,
    migrateUnifiedUserIDs w.db = .ok { w.db.reopened with authSessions := sessions } := by
  have hunified : w.db.isUnified = true := by
    simpa [Db.isUnified, h.hasOpenID, h.hasNID] using h.first
  simp only [migrateUnifiedUserIDs, hunified, if_true]
  refine ⟨w.db.authSessions.delete fun s => !w.db.users.rows.any fun u => u.id == s.userID, ?_⟩
  by_cases hempty : w.db.storedUsers.isEmpty = true
  · have hrows := (storedUsers_isEmpty w.db).mp hempty
    rw [if_pos hempty, setUserSequence, lastNewID_of_isEmpty hempty, deleteOrphanCometSessions,
      Db.reopened, if_pos hrows]
  · have hrows := mt (storedUsers_isEmpty w.db).mpr hempty
    rw [if_neg hempty, deleteOrphanCometSessions, Db.reopened, if_neg hrows]

theorem openStore_rows (h : IdInv w) : RowsStep env w op (openStore env w).1 := by
  obtain ⟨sessions, hmigrate⟩ := migrateUnifiedUserIDs_of_ids h
  obtain ⟨n, sessions, users, p, hworld, hrows⟩ := openStore_migrated env hmigrate
  rw [hworld]
  exact RowsStep.of_updated hrows fun r _ => RowStep.email _

theorem exec_rows (env : Externals) (h : IdInv w) (op : Op) :
    RowsStep env w op (exec env w op).1 := by
  have hperforms := exec_performs env w op
  generalize (exec env w op).1 = w', (exec env w op).2 = o at hperforms ⊢
  cases hperforms with
  | fails | waits => exact RowsStep.of_same rfl
  | succeeds k w' o hk ho hchange => exact hchange.rows (Or.inl (Op.effect_of hk))
  | logsIn id w' o hnone hop hlogin => exact hlogin.rows (Or.inr ⟨id, rfl, hop⟩)
  | registers v w' o hnone hcreate hlogin =>
    rcases hlogin with ⟨n, -, rfl⟩ | hlogin
    · exact hcreate.rows (Or.inl trivial)
    · exact hcreate.firstLogin_rows hlogin
  | cancellation => exact RowsStep.of_updated rfl fun r _ => RowStep.cancellation _ _
  | codes w' o hop hstep =>
    obtain ⟨rows, events, sequence, -, rfl⟩ := hstep
    exact RowsStep.of_same rfl
  | reopens => exact openStore_rows h

theorem IdInv.changes (h : IdInv w) (hchanges : Changes env w w') : IdInv w' := by
  induction hchanges with
  | refl => exact h
  | tail _ hchange ih =>
    obtain ⟨k, hchange⟩ := hchange
    exact ih.change hchange

theorem IdInv.exec (h : IdInv w) (env : Externals) (op : Op) : IdInv (exec env w op).1 := by
  refine exec_cases (fun _ => h.changes) (fun userID status cancelAt _ => ?_)
    (fun rows events sequence _ => ?_) (fun _ => ?_) (fun seconds _ => ?_)
  · exact h.of_updated rfl (fun _ => rfl) rfl rfl rfl
  · exact ⟨h.hasOpenID, h.hasNID, h.sequence, h.first⟩
  · obtain ⟨sessions, hmigrate⟩ := migrateUnifiedUserIDs_of_ids h
    have hreopened := h.reopened
    exact IdInv.openStore hmigrate
      ⟨hreopened.hasOpenID, hreopened.hasNID, hreopened.sequence, hreopened.first⟩
  · exact ⟨h.hasOpenID, h.hasNID, h.sequence, h.first⟩

theorem IdInv.step (h : IdInv w) {e : Event} (hstep : StoreStep env w e w') : IdInv w' := by
  have hexec := h.exec env e.op
  rw [hstep.2] at hexec
  exact hexec

theorem IdInv.run (h : IdInv w) {log : List Event} (hrun : StoreRun env w log w') : IdInv w' :=
  hrun.invariant (fun hinv hstep => hinv.step hstep) h

/-- The sequence of an autoincrement column is never behind its ids. -/
def Db.Sequenced (db : Db) : Prop := ∀ r ∈ db.users.rows, r.id ≤ db.userSequence.getD 0

theorem firstUserID_le_lastNewID (db : Db) : firstUserID ≤ lastNewID db.storedUsers + 1 := by
  rw [lastNewID]
  split
  · exact le_refl _
  · next user hlast =>
    have hfirst := (exists_newID_iff.mp ⟨user, List.mem_of_getLast? hlast, rfl⟩).1
    omega

theorem firstUserID_le_newID {db : Db} {user : StoredUser} (h : user ∈ db.storedUsers) :
    firstUserID ≤ user.newID :=
  (exists_newID_iff.mp ⟨user, h, rfl⟩).1

theorem first_of_kept {db : Db} (hkept : needsRenumber db.storedUsers = false) {r : UserRow}
    (hr : r ∈ db.users.rows) : firstUserID ≤ r.id := by
  obtain ⟨user, huser, rfl⟩ := mem_storedUsers.mp hr
  rw [needsRenumber, Bool.or_eq_false_iff, List.any_eq_false] at hkept
  have hsame : user.row.id = user.newID := by simpa using hkept.2 user huser
  rw [hsame]
  exact firstUserID_le_newID huser

/-- The migration leaves a file whose ids are in order. -/
theorem IdInv.migrated {db : Db} (hfile : w.db.Sequenced)
    (hmigrate : migrateUnifiedUserIDs w.db = .ok db) : IdInv { w with db := db } := by
  have hlast := firstUserID_le_lastNewID w.db
  unfold migrateUnifiedUserIDs at hmigrate
  dsimp only at hmigrate
  split at hmigrate
  · next hunified =>
    simp only [Db.isUnified, Bool.and_eq_true, Bool.not_eq_true', List.all_eq_true,
      decide_eq_true_eq] at hunified
    obtain ⟨⟨hopenID, hnid⟩, hfirst⟩ := hunified
    cases hmigrate
    by_cases hempty : w.db.storedUsers.isEmpty = true
    · rw [if_pos hempty]
      exact ⟨hopenID, hnid, ⟨_, rfl, hlast⟩, hfirst⟩
    · rw [if_neg hempty]
      have hne := mt (storedUsers_isEmpty w.db).mpr hempty
      obtain ⟨r, hr⟩ := List.exists_mem_of_ne_nil _ hne
      have hle := hfile r hr
      have hfirst' := hfirst r hr
      refine ⟨hopenID, hnid, ?_, hfirst⟩
      cases hsequence : w.db.userSequence with
      | none =>
        rw [hsequence, Option.getD_none] at hle
        unfold firstUserID at hfirst'
        omega
      | some q =>
        rw [hsequence, Option.getD_some] at hle
        exact ⟨q, hsequence, by omega⟩
  split at hmigrate
  · next hkept =>
    simp only [Bool.and_eq_true, Bool.not_eq_true'] at hkept
    obtain ⟨⟨hopenID, hnid⟩, hkept⟩ := hkept
    cases hmigrate
    exact ⟨hopenID, hnid, ⟨_, rfl, hlast⟩, fun r hr => first_of_kept hkept hr⟩
  split at hmigrate
  · cases hmigrate
  next rebuilt hrebuild =>
  cases hmigrate
  unfold rebuildSQLiteUsers at hrebuild
  split at hrebuild
  · cases hrebuild
  next rows hrows =>
  cases hrebuild
  refine ⟨rfl, rfl, ⟨_, rfl, hlast⟩, ?_⟩
  intro r hr
  have hr' : r ∈ w.db.storedUsers.map StoredUser.rebuilt := by
    rw [← Table.ofRows?_rows hrows]
    exact hr
  obtain ⟨user, huser, rfl⟩ := List.mem_map.mp hr'
  exact firstUserID_le_newID huser

/-- Whatever file the store is started on, its ids are in order afterwards. -/
theorem IdInv.opened (hfile : w.db.Sequenced) (hopen : PapeSdk.openStore env w = (w', .ok ())) :
    IdInv w' := by
  have hworld : (PapeSdk.openStore env w).1 = w' := congrArg Prod.fst hopen
  cases hmigrate : migrateUnifiedUserIDs w.db with
  | error e =>
    rw [PapeSdk.openStore, hmigrate] at hopen
    cases hopen
  | ok db =>
    rw [← hworld]
    exact IdInv.openStore hmigrate (IdInv.migrated hfile hmigrate)

end

end PapeSdk
