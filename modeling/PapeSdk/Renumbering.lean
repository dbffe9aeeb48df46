import PapeSdk.KeyRenaming
import PapeSdk.Startup

/-!
The renumbering of a legacy SQLite file. Accounts get consecutive ids in the
order of their old ones, and the session rows are renamed in place, account by
account; orphans are deleted afterwards. Session rows keep their owner exactly
when no account's new id is the old id of a later account that would be
renamed on top of it, and when no orphan carries one of the new ids.
-/

namespace PapeSdk

open KeyedTables KeyRenaming

/-- The account with this primary identifier has this id. -/
def Db.Owns (db : Db) (phone : String) (id : ℕ) : Prop :=
  ∃ u ∈ db.users.rows, u.phone = phone ∧ u.id = id

/-- Session rows follow their accounts: none is lost, none is left over, none changes hands.
`rest` is a row apart from its owner. -/
structure KeepsOwners {S κ : Type} (db db' : Db) (before after : List S) (rest : S → κ)
    (owner : S → ℕ) : Prop where
  kept : ∀ s ∈ before, ∀ phone, db.Owns phone (owner s) →
    ∃ s' ∈ after, rest s' = rest s ∧ db'.Owns phone (owner s')
  gone : ∀ s ∈ before, (∀ phone, ¬ db.Owns phone (owner s)) → ∀ s' ∈ after, rest s' ≠ rest s
  gained : ∀ s' ∈ after, ∀ phone, db'.Owns phone (owner s') →
    ∃ s ∈ before, rest s = rest s' ∧ db.Owns phone (owner s)

def CometSession.rest (s : CometSession) : CometSession := { s with userID := 0 }

def AuthSession.rest (s : AuthSession) : AuthSession := { s with userID := 0 }

/-- The migration succeeds and both session tables follow the accounts. -/
def OwnershipKept (db : Db) : Prop :=
  ∃ db', migrateUnifiedUserIDs db = .ok db' ∧
    KeepsOwners db db' db.cometSessions.rows db'.cometSessions.rows CometSession.rest
      CometSession.userID ∧
    KeepsOwners db db' db.authSessions.rows db'.authSessions.rows AuthSession.rest
      AuthSession.userID

/-- The position of an account in the order of ids. -/
def Db.rank (db : Db) (id : ℕ) : ℕ := db.users.rows.countP fun u => u.id < id

/-- A user id in a session row that the renumbering in place handles well. -/
structure Db.SafeOwner (db : Db) (id : ℕ) : Prop where
  account : (∃ u ∈ db.users.rows, u.id = id) →
    ∀ v ∈ db.users.rows, id < v.id → v.id ≠ firstUserID + db.rank id
  orphan : (∀ u ∈ db.users.rows, u.id ≠ id) →
    id < firstUserID ∨ firstUserID + db.users.rows.length ≤ id

/-- Either nothing is renumbered, or every user id in a session row is safe. -/
def RenumberSafe (db : Db) : Prop :=
  db.isUnified = true ∨ (∀ s ∈ db.cometSessions.rows, db.SafeOwner s.userID) ∧
    ∀ s ∈ db.authSessions.rows, db.SafeOwner s.userID

section
variable {db : Db}

/-- What the position of two stored users says about them. -/
structure StoredUser.Before (a b : StoredUser) : Prop where
  newID : a.newID < b.newID
  id : a.row.id < b.row.id
  phone : a.row.phone ≠ b.row.phone

theorem usersByID_perm (db : Db) : db.usersByID.Perm db.users.rows :=
  List.perm_insertionSort _ _

theorem usersByID_pairwise (db : Db) :
    db.usersByID.Pairwise fun a b => a.id < b.id ∧ a.phone ≠ b.phone := by
  have happart : db.usersByID.Pairwise (Apart userKeys) :=
    ((usersByID_perm db).pairwise_iff fun h => Apart.symm h).mpr db.users.apart
  have hsorted : db.usersByID.Pairwise fun a b => a.id ≤ b.id :=
    List.pairwise_insertionSort (r := fun a b : UserRow => a.id ≤ b.id) db.users.rows
  apply (happart.and hsorted).imp
  rintro a b ⟨hab, hle⟩
  constructor
  · have hne : a.id ≠ b.id := by
      intro heq
      exact hab (.id a.id) (mem_userKeys.mpr (Or.inl rfl)) (mem_userKeys.mpr (Or.inl (by rw [heq])))
    omega
  · intro heq
    exact hab (.phone a.phone) (mem_userKeys.mpr (Or.inr (Or.inl rfl)))
      (mem_userKeys.mpr (Or.inr (Or.inl (by rw [heq]))))

theorem storedUsers_pairwise (db : Db) : db.storedUsers.Pairwise StoredUser.Before := by
  rw [List.pairwise_iff_getElem]
  intro i j hi hj hij
  have hpair := List.pairwise_iff_getElem.mp (usersByID_pairwise db) i j
    (by simpa [Db.storedUsers] using hi) (by simpa [Db.storedUsers] using hj) hij
  simp only [Db.storedUsers, List.getElem_mapIdx]
  exact ⟨by simp only; omega, hpair.1, hpair.2⟩

theorem mem_storedUsers {u : UserRow} :
    u ∈ db.users.rows ↔ ∃ a ∈ db.storedUsers, a.row = u := by
  rw [← (usersByID_perm db).mem_iff]
  constructor
  · intro hu
    obtain ⟨i, hi, rfl⟩ := List.getElem_of_mem hu
    refine ⟨⟨db.usersByID[i], firstUserID + i⟩, ?_, rfl⟩
    rw [Db.storedUsers, List.mem_mapIdx]
    exact ⟨i, hi, rfl⟩
  · rintro ⟨a, ha, rfl⟩
    rw [Db.storedUsers, List.mem_mapIdx] at ha
    obtain ⟨i, hi, rfl⟩ := ha
    exact List.getElem_mem hi

/-- Every account before the `i`-th one, and no other, has a smaller id. -/
theorem rank_usersByID {i : ℕ} (hi : i < db.usersByID.length) :
    db.rank db.usersByID[i].id = i := by
  have hpairs := List.pairwise_iff_getElem.mp (usersByID_pairwise db)
  have hbefore : (db.usersByID.take i).countP (fun u => u.id < db.usersByID[i].id) = i := by
    have hall : ∀ u ∈ db.usersByID.take i, u.id < db.usersByID[i].id := by
      intro u hu
      obtain ⟨j, hj, rfl⟩ := List.getElem_of_mem hu
      rw [List.length_take] at hj
      rw [List.getElem_take]
      exact (hpairs j i (by omega) hi (by omega)).1
    rw [List.countP_eq_length.mpr (by simpa using hall), List.length_take]
    omega
  have hafter : (db.usersByID.drop i).countP (fun u => u.id < db.usersByID[i].id) = 0 := by
    apply List.countP_eq_zero.mpr
    intro u hu
    obtain ⟨j, hj, rfl⟩ := List.getElem_of_mem hu
    rw [List.length_drop] at hj
    rw [List.getElem_drop]
    by_cases hzero : j = 0
    · subst hzero
      simp
    · have hlt := (hpairs i (i + j) hi (by omega) (by omega)).1
      simp only [decide_eq_true_eq]
      omega
  unfold Db.rank
  rw [← (usersByID_perm db).countP_eq]
  calc db.usersByID.countP (fun u => u.id < db.usersByID[i].id)
      = (db.usersByID.take i ++ db.usersByID.drop i).countP
          (fun u => u.id < db.usersByID[i].id) := by rw [List.take_append_drop]
    _ = i := by rw [List.countP_append, hbefore, hafter, Nat.add_zero]

theorem newID_eq_rank {a : StoredUser} (ha : a ∈ db.storedUsers) :
    a.newID = firstUserID + db.rank a.row.id := by
  rw [Db.storedUsers, List.mem_mapIdx] at ha
  obtain ⟨i, hi, rfl⟩ := ha
  simp only
  rw [rank_usersByID hi]

theorem exists_newID_iff {id : ℕ} : (∃ a ∈ db.storedUsers, a.newID = id) ↔
    firstUserID ≤ id ∧ id < firstUserID + db.users.rows.length := by
  rw [← (usersByID_perm db).length_eq]
  constructor
  · rintro ⟨a, ha, rfl⟩
    rw [Db.storedUsers, List.mem_mapIdx] at ha
    obtain ⟨i, hi, rfl⟩ := ha
    have hi' : i < db.usersByID.length := hi
    simp only
    omega
  · rintro ⟨hlow, hhigh⟩
    have hi : id - firstUserID < db.usersByID.length := by omega
    refine ⟨⟨db.usersByID[id - firstUserID], firstUserID + (id - firstUserID)⟩, ?_, ?_⟩
    · rw [Db.storedUsers, List.mem_mapIdx]
      exact ⟨id - firstUserID, hi, rfl⟩
    · simp only
      omega

theorem lt_iff_of_stored {a b : StoredUser} (ha : a ∈ db.storedUsers) (hb : b ∈ db.storedUsers) :
    a.newID < b.newID ↔ a.row.id < b.row.id := by
  refine List.Pairwise.forall_of_forall_of_flip
    (R := fun a b : StoredUser => a.newID < b.newID ↔ a.row.id < b.row.id) ?_ ?_ ?_ ha hb
  · intro c _
    simp
  · exact (storedUsers_pairwise db).imp fun h => ⟨fun _ => h.id, fun _ => h.newID⟩
  · apply (storedUsers_pairwise db).imp
    intro c d h
    have hnew := h.newID
    have hold := h.id
    constructor
    · intro hlt
      omega
    · intro hlt
      omega

/-- The accounts that get another id, with the old and the new one. -/
def Db.moves (db : Db) : List (ℕ × ℕ) :=
  (db.storedUsers.filter fun user => user.row.id ≠ user.newID).map fun user =>
    (user.row.id, user.newID)

theorem moveAuthSessions_rows (moved : List StoredUser) (sessions : Table sessionKeys) :
    (moved.foldl (fun sessions user => moveAuthSessions sessions user.row.id user.newID)
      sessions).rows = sessions.rows.map fun s =>
        { s with userID := inTurn (moved.map fun user => (user.row.id, user.newID)) s.userID } := by
  induction moved generalizing sessions with
  | nil => simp [inTurn]
  | cons user rest ih =>
    rw [List.foldl_cons, ih, List.map_cons]
    simp only [moveAuthSessions, Table.touch, List.map_map]
    apply List.map_congr_left
    intro s _
    by_cases h : s.userID = user.row.id
    · simp [h, inTurn_cons, move]
    · simp [h, inTurn_cons, move]

theorem moveCometSessions_rows (moved : List StoredUser) (sessions : Table cometKeys) :
    (moved.foldl (fun sessions user => moveCometSessions sessions user.row.id user.newID)
      sessions).rows = sessions.rows.map fun s =>
        { s with userID := inTurn (moved.map fun user => (user.row.id, user.newID)) s.userID } := by
  induction moved generalizing sessions with
  | nil => simp [inTurn]
  | cons user rest ih =>
    rw [List.foldl_cons, ih, List.map_cons]
    simp only [moveCometSessions, Table.touch, List.map_map]
    apply List.map_congr_left
    intro s _
    by_cases h : s.userID = user.row.id
    · simp [h, inTurn_cons, move]
    · simp [h, inTurn_cons, move]

theorem mem_sources {id : ℕ} : id ∈ db.moves.map Prod.fst ↔
    ∃ a ∈ db.storedUsers, a.row.id = id ∧ a.row.id ≠ a.newID := by
  simp [Db.moves, and_comm, and_assoc]

/-- An orphan's user id is never renamed. -/
theorem inTurn_orphan {id : ℕ} (h : ∀ u ∈ db.users.rows, u.id ≠ id) : inTurn db.moves id = id := by
  apply inTurn_of_not_source
  rw [mem_sources]
  rintro ⟨a, ha, hid, -⟩
  exact h a.row (mem_storedUsers.mpr ⟨a, ha, rfl⟩) hid

theorem eq_of_stored_id {a b : StoredUser} (ha : a ∈ db.storedUsers) (hb : b ∈ db.storedUsers)
    (hid : a.row.id = b.row.id) : a = b := by
  obtain ⟨rowA, newA⟩ := a
  obtain ⟨rowB, newB⟩ := b
  have hrow : rowA = rowB := db.user_eq_of_id (mem_storedUsers.mpr ⟨_, ha, rfl⟩)
    (mem_storedUsers.mpr ⟨_, hb, rfl⟩) hid
  have hnew := newID_eq_rank ha
  have hnew' := newID_eq_rank hb
  simp only at hnew hnew' hid
  rw [hid] at hnew
  rw [hrow, hnew, hnew']

/-- An account's sessions reach its new id unless that is the old id of a later account. -/
theorem inTurn_account {a : StoredUser} (ha : a ∈ db.storedUsers) :
    inTurn db.moves a.row.id = a.newID ↔
      ∀ v ∈ db.users.rows, a.row.id < v.id → v.id ≠ a.newID := by
  by_cases hstays : a.row.id = a.newID
  · have hsame : inTurn db.moves a.row.id = a.row.id := by
      apply inTurn_of_not_source
      rw [mem_sources]
      rintro ⟨b, hb, hid, hmoves⟩
      rw [eq_of_stored_id hb ha hid] at hmoves
      exact hmoves hstays
    refine ⟨fun _ v _ hlt => ?_, fun _ => hsame.trans hstays⟩
    omega
  · have hmem : a ∈ db.storedUsers.filter fun user => user.row.id ≠ user.newID :=
      List.mem_filter.mpr ⟨ha, by simpa using hstays⟩
    obtain ⟨before, after, hsplit⟩ := List.append_of_mem hmem
    have hpairs := (storedUsers_pairwise db).filter fun user => decide (user.row.id ≠ user.newID)
    rw [hsplit, List.pairwise_append, List.pairwise_cons] at hpairs
    obtain ⟨-, ⟨hafter, -⟩, hbefore⟩ := hpairs
    have hmoves : db.moves = before.map (fun user => (user.row.id, user.newID)) ++
        (a.row.id, a.newID) :: after.map (fun user => (user.row.id, user.newID)) := by
      rw [Db.moves, hsplit, List.map_append, List.map_cons]
    rw [hmoves, inTurn_eq_target_iff]
    · simp only [List.map_map, List.mem_map, Function.comp_apply, not_exists, not_and]
      constructor
      · intro hfree v hv hlt heq
        obtain ⟨b, hb, rfl⟩ := mem_storedUsers.mp hv
        have hnew := (lt_iff_of_stored ha hb).mpr hlt
        have hb' : b ∈ before ++ a :: after := by
          rw [← hsplit]
          refine List.mem_filter.mpr ⟨hb, ?_⟩
          simp only [ne_eq, decide_not, Bool.not_eq_eq_eq_not, Bool.not_true,
            decide_eq_false_iff_not]
          omega
        rcases List.mem_append.mp hb' with hleft | hright
        · have := (hbefore b hleft a List.mem_cons_self).newID
          omega
        · rcases List.mem_cons.mp hright with rfl | hright
          · omega
          · exact hfree b hright heq
      · intro hfree b hb heq
        have hb' : b ∈ db.storedUsers := by
          have hmem' : b ∈ before ++ a :: after := by simp [hb]
          rw [← hsplit] at hmem'
          exact (List.mem_filter.mp hmem').1
        exact hfree b.row (mem_storedUsers.mpr ⟨b, hb', rfl⟩) (hafter b hb).id heq
    · simp only [List.map_map, List.mem_map, Function.comp_apply, not_exists, not_and]
      intro b hb heq
      have := (hbefore b hb a List.mem_cons_self).id
      omega
    · simp only [List.map_map, List.mem_map, Function.comp_apply, not_exists, not_and]
      intro b hb heq
      have := (hafter b hb).newID
      omega

theorem owns_iff {phone : String} {id : ℕ} :
    db.Owns phone id ↔ ∃ a ∈ db.storedUsers, a.row.phone = phone ∧ a.row.id = id := by
  constructor
  · rintro ⟨u, hu, howns⟩
    obtain ⟨a, ha, rfl⟩ := mem_storedUsers.mp hu
    exact ⟨a, ha, howns⟩
  · rintro ⟨a, ha, howns⟩
    exact ⟨a.row, mem_storedUsers.mpr ⟨a, ha, rfl⟩, howns⟩

theorem owns_rebuilt_iff {db' : Db}
    (husers : db'.users.rows = db.storedUsers.map StoredUser.rebuilt) {phone : String} {id : ℕ} :
    db'.Owns phone id ↔ ∃ a ∈ db.storedUsers, a.row.phone = phone ∧ a.newID = id := by
  simp [Db.Owns, husers, StoredUser.rebuilt]

theorem eq_of_stored_phone {a b : StoredUser} (ha : a ∈ db.storedUsers) (hb : b ∈ db.storedUsers)
    (hphone : a.row.phone = b.row.phone) : a = b := by
  apply eq_of_stored_id ha hb
  rw [db.user_eq_of_phone (mem_storedUsers.mpr ⟨a, ha, rfl⟩) (mem_storedUsers.mpr ⟨b, hb, rfl⟩)
    hphone]

theorem eq_of_stored_newID {a b : StoredUser} (ha : a ∈ db.storedUsers) (hb : b ∈ db.storedUsers)
    (hnew : a.newID = b.newID) : a = b := by
  apply eq_of_stored_id ha hb
  have hab := lt_iff_of_stored ha hb
  have hba := lt_iff_of_stored hb ha
  omega

/-- One session table under the renaming in place and the deletion of orphans. -/
structure RenamedInPlace {S κ : Type} (db : Db) (before after : List S) (rest : S → κ)
    (owner : S → ℕ) : Prop where
  apart : ∀ s ∈ before, ∀ t ∈ before, rest s = rest t → s = t
  stays : ∀ s ∈ before, (∃ a ∈ db.storedUsers, a.newID = inTurn db.moves (owner s)) →
    ∃ s' ∈ after, rest s' = rest s ∧ owner s' = inTurn db.moves (owner s)
  stems : ∀ s' ∈ after, ∃ s ∈ before, rest s' = rest s ∧
    owner s' = inTurn db.moves (owner s) ∧ ∃ a ∈ db.storedUsers, a.newID = owner s'

section
variable {S κ : Type} {db' : Db} {before after : List S} {rest : S → κ} {owner : S → ℕ} {s : S}

/-- A session that keeps its account had a safe owner. -/
theorem RenamedInPlace.safe_of_keeps (h : RenamedInPlace db before after rest owner)
    (husers : db'.users.rows = db.storedUsers.map StoredUser.rebuilt)
    (hkeeps : KeepsOwners db db' before after rest owner) (hs : s ∈ before) :
    db.SafeOwner (owner s) := by
  constructor
  · rintro ⟨u, hu, hid⟩
    obtain ⟨a, ha, rfl⟩ := mem_storedUsers.mp hu
    obtain ⟨s', hs', hsame, howns'⟩ := hkeeps.kept s hs _ (owns_iff.mpr ⟨a, ha, rfl, hid⟩)
    obtain ⟨t, ht, hsame', howner, -⟩ := h.stems s' hs'
    rw [h.apart t ht s hs (hsame'.symm.trans hsame)] at howner
    obtain ⟨b, hb, hphone, hnew⟩ := (owns_rebuilt_iff husers).mp howns'
    rw [eq_of_stored_phone hb ha hphone, howner, ← hid] at hnew
    rw [← hid, ← newID_eq_rank ha]
    exact (inTurn_account ha).mp hnew.symm
  · intro horphan
    by_contra hinside
    have htaken : ∃ a ∈ db.storedUsers, a.newID = inTurn db.moves (owner s) := by
      rw [inTurn_orphan horphan]
      exact exists_newID_iff.mpr (by omega)
    obtain ⟨s', hs', hsame, -⟩ := h.stays s hs htaken
    refine hkeeps.gone s hs ?_ s' hs' hsame
    rintro phone ⟨u, hu, -, hid⟩
    exact horphan u hu hid

/-- A safe owner that names an account gets the new id of this account. -/
theorem inTurn_of_safe {a : StoredUser} (hsafe : db.SafeOwner (owner s)) (ha : a ∈ db.storedUsers)
    (hid : a.row.id = owner s) : inTurn db.moves (owner s) = a.newID := by
  rw [← hid]
  apply (inTurn_account ha).mpr
  have hfree := hsafe.account ⟨a.row, mem_storedUsers.mpr ⟨a, ha, rfl⟩, hid⟩
  rwa [← hid, ← newID_eq_rank ha] at hfree

/-- A safe owner that names no account gets the id of none. -/
theorem newID_ne_of_safe {a : StoredUser} (hsafe : db.SafeOwner (owner s))
    (hnone : ∀ u ∈ db.users.rows, u.id ≠ owner s) (ha : a ∈ db.storedUsers) :
    a.newID ≠ inTurn db.moves (owner s) := by
  intro hnew
  rw [inTurn_orphan hnone] at hnew
  have hrange := exists_newID_iff.mp ⟨a, ha, hnew⟩
  have houtside := hsafe.orphan hnone
  omega

theorem RenamedInPlace.keeps_of_safe (h : RenamedInPlace db before after rest owner)
    (husers : db'.users.rows = db.storedUsers.map StoredUser.rebuilt)
    (hsafe : ∀ s ∈ before, db.SafeOwner (owner s)) :
    KeepsOwners db db' before after rest owner := by
  constructor
  · intro s hs phone howns
    obtain ⟨a, ha, hphone, hid⟩ := owns_iff.mp howns
    have hnew := inTurn_of_safe (hsafe s hs) ha hid
    obtain ⟨s', hs', hsame, howner⟩ := h.stays s hs ⟨a, ha, hnew.symm⟩
    exact ⟨s', hs', hsame, (owns_rebuilt_iff husers).mpr ⟨a, ha, hphone, by rw [howner, hnew]⟩⟩
  · intro s hs hnone s' hs' hsame
    obtain ⟨t, ht, hsame', howner, a, ha, hnew⟩ := h.stems s' hs'
    rw [h.apart t ht s hs (hsame'.symm.trans hsame)] at howner
    refine newID_ne_of_safe (hsafe s hs) ?_ ha (hnew.trans howner)
    intro u hu hid
    exact hnone u.phone ⟨u, hu, rfl, hid⟩
  · intro s' hs' phone howns'
    obtain ⟨s, hs, hsame, howner, -⟩ := h.stems s' hs'
    obtain ⟨a, ha, hphone, hnew⟩ := (owns_rebuilt_iff husers).mp howns'
    rw [howner] at hnew
    refine ⟨s, hs, hsame.symm, ?_⟩
    by_cases hnamed : ∃ u ∈ db.users.rows, u.id = owner s
    · obtain ⟨u, hu, hid⟩ := hnamed
      obtain ⟨b, hb, rfl⟩ := mem_storedUsers.mp hu
      have hsameAccount := eq_of_stored_newID ha hb
        (hnew.trans (inTurn_of_safe (hsafe s hs) hb hid))
      rw [hsameAccount] at hphone
      exact owns_iff.mpr ⟨b, hb, hphone, hid⟩
    · refine absurd hnew (newID_ne_of_safe (hsafe s hs) ?_ ha)
      intro u hu hid
      exact hnamed ⟨u, hu, hid⟩

/-- For one session table: in place, ownership survives exactly for safe owners. -/
theorem RenamedInPlace.keeps_iff (h : RenamedInPlace db before after rest owner)
    (husers : db'.users.rows = db.storedUsers.map StoredUser.rebuilt) :
    KeepsOwners db db' before after rest owner ↔ ∀ s ∈ before, db.SafeOwner (owner s) :=
  ⟨fun hkeeps _ hs => h.safe_of_keeps husers hkeeps hs, h.keeps_of_safe husers⟩

end

theorem rebuilt_apart (db : Db) :
    (db.storedUsers.map StoredUser.rebuilt).Pairwise (Apart userKeys) := by
  rw [List.pairwise_map]
  apply (storedUsers_pairwise db).imp
  intro a b hab k hk hk'
  have hnew := hab.newID
  rw [mem_userKeys] at hk hk'
  rcases hk with rfl | rfl | ⟨email, hsome, -⟩
  · rcases hk' with hid | hother | ⟨email, -, -, hother⟩
    · simp only [StoredUser.rebuilt, UserKey.id.injEq] at hid
      omega
    · cases hother
    · cases hother
  · rcases hk' with hother | hphone | ⟨email, -, -, hother⟩
    · cases hother
    · exact hab.phone (UserKey.phone.inj hphone)
    · cases hother
  · cases hsome

/-- An account below the first id is to be renumbered. -/
theorem needsRenumber_of_low (hopen : db.hasOpenID = false) (hnid : db.hasNID = false)
    (hunified : db.isUnified = false) : needsRenumber db.storedUsers = true := by
  simp only [Db.isUnified, hopen, hnid, Bool.not_false, Bool.true_and] at hunified
  obtain ⟨u, hu, hlow⟩ : ∃ u ∈ db.users.rows, u.id < firstUserID := by simpa using hunified
  obtain ⟨a, ha, rfl⟩ := mem_storedUsers.mp hu
  have hnew := (exists_newID_iff.mp ⟨a, ha, rfl⟩).1
  simp only [needsRenumber, Bool.or_eq_true, List.any_eq_true, bne_iff_ne]
  exact Or.inr ⟨a, ha, by omega⟩

def Db.moved (db : Db) : List StoredUser :=
  db.storedUsers.filter fun user => user.row.id ≠ user.newID

/-- The file after the rebuild and the deletion of orphans. -/
def Db.renumbered (db : Db) : Db :=
  deleteOrphanCometSessions
    { db with
      users := ⟨db.storedUsers.map StoredUser.rebuilt, rebuilt_apart db⟩
      authSessions := db.moved.foldl (fun sessions user =>
        moveAuthSessions sessions user.row.id user.newID) db.authSessions
      cometSessions := db.moved.foldl (fun sessions user =>
        moveCometSessions sessions user.row.id user.newID) db.cometSessions
      userSequence := some (lastNewID db.storedUsers)
      hasOpenID := false
      hasNID := false }

theorem migrate_rebuilds (hunified : db.isUnified = false) :
    migrateUnifiedUserIDs db = .ok db.renumbered := by
  have hrebuild : ¬ (!db.hasOpenID && !db.hasNID && !needsRenumber db.storedUsers) = true := by
    intro hkeep
    simp only [Bool.and_eq_true, Bool.not_eq_true'] at hkeep
    have hneeds := needsRenumber_of_low hkeep.1.1 hkeep.1.2 hunified
    rw [hkeep.2] at hneeds
    cases hneeds
  unfold migrateUnifiedUserIDs
  simp only [hunified, if_neg hrebuild, rebuildSQLiteUsers, Table.ofRows?_some (rebuilt_apart db)]
  rfl

theorem renumbered_users (db : Db) :
    db.renumbered.users.rows = db.storedUsers.map StoredUser.rebuilt := rfl

theorem exists_rebuilt_id {id : ℕ} :
    (∃ u ∈ db.storedUsers.map StoredUser.rebuilt, u.id = id) ↔
      ∃ a ∈ db.storedUsers, a.newID = id := by
  simp [StoredUser.rebuilt]

theorem mem_renumbered_comet {s' : CometSession} : s' ∈ db.renumbered.cometSessions.rows ↔
    (∃ s ∈ db.cometSessions.rows, { s with userID := inTurn db.moves s.userID } = s') ∧
      ∃ a ∈ db.storedUsers, a.newID = s'.userID := by
  rw [← exists_rebuilt_id]
  simp only [Db.renumbered, deleteOrphanCometSessions, Table.mem_delete, moveCometSessions_rows,
    List.mem_map, Db.moves, Db.moved]
  simp

theorem mem_renumbered_auth {s' : AuthSession} : s' ∈ db.renumbered.authSessions.rows ↔
    (∃ s ∈ db.authSessions.rows, { s with userID := inTurn db.moves s.userID } = s') ∧
      ∃ a ∈ db.storedUsers, a.newID = s'.userID := by
  rw [← exists_rebuilt_id]
  simp only [Db.renumbered, deleteOrphanCometSessions, Table.mem_delete, moveAuthSessions_rows,
    List.mem_map, Db.moves, Db.moved]
  simp

theorem comet_rest {s t : CometSession} (hs : s ∈ db.cometSessions.rows)
    (ht : t ∈ db.cometSessions.rows) (h : s.rest = t.rest) : s = t := by
  have hrest := congrArg CometSession.id h
  have hid : s.id = t.id := hrest
  exact db.cometSessions.eq_of_key (k := s.id) hs ht (by simp [cometKeys])
    (by simp [cometKeys, hid])

theorem auth_rest {s t : AuthSession} (hs : s ∈ db.authSessions.rows)
    (ht : t ∈ db.authSessions.rows) (h : s.rest = t.rest) : s = t := by
  have hrest := congrArg AuthSession.id h
  exact db.session_eq_of_id hs ht hrest

theorem renumbered_keeps_comet : KeepsOwners db db.renumbered db.cometSessions.rows
    db.renumbered.cometSessions.rows CometSession.rest CometSession.userID ↔
      ∀ s ∈ db.cometSessions.rows, db.SafeOwner s.userID := by
  refine RenamedInPlace.keeps_iff ⟨fun s hs t ht h => comet_rest hs ht h, ?_, ?_⟩
    (renumbered_users db)
  · intro s hs htaken
    exact ⟨_, mem_renumbered_comet.mpr ⟨⟨s, hs, rfl⟩, htaken⟩, rfl, rfl⟩
  · intro s' hs'
    obtain ⟨⟨s, hs, rfl⟩, htaken⟩ := mem_renumbered_comet.mp hs'
    exact ⟨s, hs, rfl, rfl, htaken⟩

theorem renumbered_keeps_auth : KeepsOwners db db.renumbered db.authSessions.rows
    db.renumbered.authSessions.rows AuthSession.rest AuthSession.userID ↔
      ∀ s ∈ db.authSessions.rows, db.SafeOwner s.userID := by
  refine RenamedInPlace.keeps_iff ⟨fun s hs t ht h => auth_rest hs ht h, ?_, ?_⟩
    (renumbered_users db)
  · intro s hs htaken
    exact ⟨_, mem_renumbered_auth.mpr ⟨⟨s, hs, rfl⟩, htaken⟩, rfl, rfl⟩
  · intro s' hs'
    obtain ⟨⟨s, hs, rfl⟩, htaken⟩ := mem_renumbered_auth.mp hs'
    exact ⟨s, hs, rfl, rfl, htaken⟩

/-- Deleting orphans alone changes no owner. -/
theorem keepsOwners_of_filter {S κ : Type} {db' : Db} {before after : List S} {rest : S → κ}
    {owner : S → ℕ} (husers : db'.users = db.users)
    (hrest : ∀ s ∈ before, ∀ t ∈ before, rest s = rest t → s = t)
    (hafter : ∀ s, s ∈ after ↔ s ∈ before ∧ ∃ u ∈ db.users.rows, u.id = owner s) :
    KeepsOwners db db' before after rest owner := by
  have howns : ∀ {phone id}, db'.Owns phone id ↔ db.Owns phone id := by
    intro phone id
    rw [Db.Owns, Db.Owns, husers]
  constructor
  · rintro s hs phone ⟨u, hu, hphone, hid⟩
    exact ⟨s, (hafter s).mpr ⟨hs, u, hu, hid⟩, rfl, howns.mpr ⟨u, hu, hphone, hid⟩⟩
  · intro s hs hnone s' hs' hsame
    obtain ⟨hold, u, hu, hid⟩ := (hafter s').mp hs'
    rw [hrest s' hold s hs hsame] at hid
    exact hnone u.phone ⟨u, hu, rfl, hid⟩
  · intro s' hs' phone howns'
    exact ⟨s', ((hafter s').mp hs').1, rfl, howns.mp howns'⟩

theorem ownership_of_unified (hunified : db.isUnified = true) : OwnershipKept db := by
  refine ⟨deleteOrphanCometSessions (if db.storedUsers.isEmpty then
    setUserSequence db db.storedUsers else db), ?_, ?_, ?_⟩
  · simp only [migrateUnifiedUserIDs, hunified, if_true]
  · refine keepsOwners_of_filter ?_ (fun s hs t ht h => comet_rest hs ht h) ?_
    · split <;> rfl
    · intro s
      split <;> simp [deleteOrphanCometSessions, setUserSequence, Table.mem_delete]
  · refine keepsOwners_of_filter ?_ (fun s hs t ht h => auth_rest hs ht h) ?_
    · split <;> rfl
    · intro s
      split <;> simp [deleteOrphanCometSessions, setUserSequence, Table.mem_delete]

/-- The migration keeps the owners of all sessions exactly on safe files. -/
theorem renumbering_keeps_owners_iff (db : Db) : OwnershipKept db ↔ RenumberSafe db := by
  cases hunified : db.isUnified with
  | true => exact ⟨fun _ => Or.inl hunified, fun _ => ownership_of_unified hunified⟩
  | false =>
    constructor
    · rintro ⟨db', hok, hcomet, hauth⟩
      rw [migrate_rebuilds hunified] at hok
      cases hok
      exact Or.inr ⟨renumbered_keeps_comet.mp hcomet, renumbered_keeps_auth.mp hauth⟩
    · rintro (hunified' | ⟨hcomet, hauth⟩)
      · rw [hunified] at hunified'
        cases hunified'
      · exact ⟨db.renumbered, migrate_rebuilds hunified, renumbered_keeps_comet.mpr hcomet,
          renumbered_keeps_auth.mpr hauth⟩

end

/-- Two accounts on both sides of the first id, the lower one with a session. -/
def mixedFile : Db :=
  { Db.blank with
    users := ⟨[{ id := 5, phone := "13800000000", createdAt := 0, lastLoginAt := 0 },
      { id := 100000001, phone := "13900000000", createdAt := 0, lastLoginAt := 0 }], by decide⟩
    cometSessions := ⟨[⟨"c", 5, "ct_a", 0⟩], by decide⟩ }

/-- The session of the lower account is renamed twice and ends with the other account. -/
theorem mixed_file_loses_owner : ¬ ∀ db : Db, OwnershipKept db := by
  intro hclaim
  obtain ⟨db', hok, hcomet, -⟩ := hclaim mixedFile
  rw [migrate_rebuilds (by decide)] at hok
  cases hok
  obtain ⟨s', hs', -, u, hu, hphone, hid⟩ := hcomet.kept ⟨"c", 5, "ct_a", 0⟩ (by decide)
    "13800000000" ⟨_, List.mem_cons_self, rfl, rfl⟩
  have hmoved : ∀ s ∈ mixedFile.renumbered.cometSessions.rows, s.userID = 100000002 := by decide
  have hkept : ∀ u ∈ mixedFile.renumbered.users.rows, u.phone = "13800000000" →
      u.id = 100000001 := by decide
  have heq := (hkept u hu hphone).symm.trans (hid.trans (hmoved s' hs'))
  exact absurd heq (by decide)

end PapeSdk
