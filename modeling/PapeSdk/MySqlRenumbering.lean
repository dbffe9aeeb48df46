import PapeSdk.Renumbering

/-!
The renumbering of a legacy MySQL database, in place and without a transaction.
Every account to be renumbered first takes a temporary id far above all others
and then its new one, its sessions with it. Sessions follow their accounts for
every old numbering, which the renumbering of a SQLite file does not achieve;
an orphan that carries a new id is still taken for a session of its account.
-/

namespace PapeSdk

open KeyedTables KeyRenaming

def temporaryBase : ℕ := 4000000000000000000

def duplicateEntry : String := "Error 1062 (23000): Duplicate entry"

/-- The updates of `comet_sessions` and `auth_sessions` for one pair of ids. -/
def moveSessions (db : Db) (oldID newID : ℕ) : Db :=
  { db with
    cometSessions := moveCometSessions db.cometSessions oldID newID
    authSessions := moveAuthSessions db.authSessions oldID newID }

/-- `update users set id = ? where id = ?`. -/
def moveUser (db : Db) (oldID newID : ℕ) : Except String Db :=
  match db.users.update? (fun r => r.id == oldID) fun r => { r with id := newID } with
  | none => .error duplicateEntry
  | some users => .ok { db with users := users }

/-- The accounts to renumber take their temporary ids, the sessions first. -/
def moveAside (db : Db) : List (StoredUser × ℕ) → Db × Except String Unit
  | [] => (db, .ok ())
  | (user, index) :: rest =>
    if user.row.id = user.newID then moveAside db rest
    else
      let db := moveSessions db user.row.id (temporaryBase + index)
      match moveUser db user.row.id (temporaryBase + index) with
      | .error e => (db, .error e)
      | .ok db => moveAside db rest

/-- The accounts take their new ids, their sessions after them. -/
def moveBack (db : Db) : List (StoredUser × ℕ) → Db × Except String Unit
  | [] => (db, .ok ())
  | (user, index) :: rest =>
    if user.row.id = user.newID then moveBack db rest
    else
      match moveUser db (temporaryBase + index) user.newID with
      | .error e => (db, .error e)
      | .ok db => moveBack (moveSessions db (temporaryBase + index) user.newID) rest

/-- What was changed before an error stays changed. -/
def migrateMySQLUsers (db : Db) (users : List StoredUser) : Db × Except String Unit :=
  match moveAside db users.zipIdx with
  | (db, .error e) => (db, .error e)
  | (db, .ok ()) =>
    match moveBack db users.zipIdx with
    | (db, .error e) => (db, .error e)
    | (db, .ok ()) =>
      (setUserSequence { db with hasOpenID := false, hasNID := false } users, .ok ())

/-- `migrateUnifiedUserIDs` with the MySQL driver. -/
def migrateMySQLUserIDs (db : Db) : Db × Except String Unit :=
  let users := db.storedUsers
  if db.isUnified then
    let db := if users.isEmpty then setUserSequence db users else db
    (deleteOrphanCometSessions db, .ok ())
  else if !db.hasOpenID && !db.hasNID && !needsRenumber users then
    (deleteOrphanCometSessions (setUserSequence db users), .ok ())
  else
    match migrateMySQLUsers db users with
    | (db, .error e) => (db, .error e)
    | (db, .ok ()) => (deleteOrphanCometSessions db, .ok ())

/-- All user ids, old and new, lie below the temporary ones. -/
structure Db.Roomy (db : Db) : Prop where
  low : ∀ u ∈ db.users.rows, u.id < temporaryBase
  few : firstUserID + db.users.rows.length ≤ temporaryBase
  comet : ∀ s ∈ db.cometSessions.rows, s.userID < temporaryBase
  auth : ∀ s ∈ db.authSessions.rows, s.userID < temporaryBase

/-- All tables under one renaming of the user ids. -/
structure RenamedBy (f : ℕ → ℕ) (db db' : Db) : Prop where
  users : db'.users.rows = db.users.rows.map fun u => { u with id := f u.id }
  comet : db'.cometSessions.rows =
    db.cometSessions.rows.map fun s => { s with userID := f s.userID }
  auth : db'.authSessions.rows = db.authSessions.rows.map fun s => { s with userID := f s.userID }

section
variable {db db' db'' : Db} {f g : ℕ → ℕ} {oldID newID : ℕ} {entries : List (StoredUser × ℕ)}

theorem RenamedBy.refl (db : Db) : RenamedBy (inTurn []) db db := by
  constructor
  · exact (List.map_id _).symm
  · exact (List.map_id _).symm
  · exact (List.map_id _).symm

theorem RenamedBy.trans (h : RenamedBy f db db') (h' : RenamedBy g db' db'') :
    RenamedBy (fun x => g (f x)) db db'' := by
  constructor
  · rw [h'.users, h.users, List.map_map]
    rfl
  · rw [h'.comet, h.comet, List.map_map]
    rfl
  · rw [h'.auth, h.auth, List.map_map]
    rfl

theorem moveSessions_comet (db : Db) (oldID newID : ℕ) :
    (moveSessions db oldID newID).cometSessions.rows =
      db.cometSessions.rows.map fun s => { s with userID := move oldID newID s.userID } := by
  apply List.map_congr_left
  intro s _
  by_cases h : s.userID = oldID
  · simp [h, move]
  · simp [h, move]

theorem moveSessions_auth (db : Db) (oldID newID : ℕ) :
    (moveSessions db oldID newID).authSessions.rows =
      db.authSessions.rows.map fun s => { s with userID := move oldID newID s.userID } := by
  apply List.map_congr_left
  intro s _
  by_cases h : s.userID = oldID
  · simp [h, move]
  · simp [h, move]

/-- No statement on `users` meets a taken id. -/
theorem moveUser_ok (hfree : newID ∉ db.users.rows.map UserRow.id) :
    ∃ users, moveUser db oldID newID = .ok { db with users := users } ∧
      users.rows = db.users.rows.map fun u => { u with id := move oldID newID u.id } := by
  have hrows : (db.users.rows.map fun u => if u.id == oldID then { u with id := newID } else u) =
      db.users.rows.map fun u => { u with id := move oldID newID u.id } := by
    apply List.map_congr_left
    intro u _
    by_cases h : u.id = oldID
    · simp [h, move]
    · simp [h, move]
  obtain ⟨users, husers⟩ : ∃ users, db.users.update? (fun r => r.id == oldID)
      (fun r => { r with id := newID }) = some users := by
    by_cases hold : ∃ r ∈ db.users.rows, r.id = oldID
    · obtain ⟨r, hr, hid⟩ := hold
      refine Table.update?_some (k := .id r.id) (r := r) (mem_userKeys.mpr (Or.inl rfl)) ?_ ?_
      · intro a ha hmoves
        exact db.user_eq_of_id ha hr ((beq_iff_eq.mp hmoves).trans hid.symm)
      · intro a ha hstays
        have hne : a ≠ r := by
          rintro rfl
          rw [hid, beq_self_eq_true] at hstays
          cases hstays
        intro k hk hk'
        rw [mem_userKeys] at hk hk'
        rcases hk with rfl | hk
        · rcases hk' with hid' | hother | ⟨email, -, -, hother⟩
          · exact hfree (List.mem_map.mpr ⟨a, ha, UserKey.id.inj hid'⟩)
          · cases hother
          · cases hother
        · refine hne (db.users.eq_of_key (k := k) ha hr (mem_userKeys.mpr (Or.inr hk)) ?_)
          rcases hk' with hid' | hk'
          · rcases hk with rfl | ⟨email, -, -, rfl⟩
            · cases hid'
            · cases hid'
          · exact mem_userKeys.mpr (Or.inr hk')
    · refine ⟨db.users, ?_⟩
      have hsame : (db.users.rows.map fun u =>
          if u.id == oldID then { u with id := newID } else u) = db.users.rows := by
        calc (db.users.rows.map fun u => if u.id == oldID then { u with id := newID } else u)
            = db.users.rows.map id := by
              apply List.map_congr_left
              intro u hu
              rw [if_neg fun h => hold ⟨u, hu, beq_iff_eq.mp h⟩]
              rfl
          _ = db.users.rows := List.map_id _
      unfold Table.update?
      rw [hsame]
      exact Table.ofRows?_some db.users.apart
  refine ⟨users, ?_, (Table.update?_rows husers).trans hrows⟩
  rw [moveUser, husers]

/-- The pairs of ids of the first loop. -/
def aside (entries : List (StoredUser × ℕ)) : List (ℕ × ℕ) :=
  (entries.filter fun e => e.1.row.id ≠ e.1.newID).map fun e =>
    (e.1.row.id, temporaryBase + e.2)

/-- The pairs of ids of the second loop. -/
def back (entries : List (StoredUser × ℕ)) : List (ℕ × ℕ) :=
  (entries.filter fun e => e.1.row.id ≠ e.1.newID).map fun e =>
    (temporaryBase + e.2, e.1.newID)

theorem ids_renamed (h : db'.users.rows = db.users.rows.map fun u => { u with id := f u.id }) :
    db'.users.rows.map UserRow.id = (db.users.rows.map UserRow.id).map f := by
  rw [h, List.map_map, List.map_map]
  rfl

theorem moveAside_ok (hfree : Free (db.users.rows.map UserRow.id) (aside entries)) :
    ∃ db', moveAside db entries = (db', .ok ()) ∧ RenamedBy (inTurn (aside entries)) db db' := by
  induction entries generalizing db with
  | nil => exact ⟨db, rfl, RenamedBy.refl db⟩
  | cons e rest ih =>
    obtain ⟨user, index⟩ := e
    by_cases hstays : user.row.id = user.newID
    · have haside : aside ((user, index) :: rest) = aside rest := by
        simp [aside, hstays]
      rw [haside] at hfree ⊢
      rw [moveAside, if_pos hstays]
      exact ih hfree
    · have haside : aside ((user, index) :: rest) =
          (user.row.id, temporaryBase + index) :: aside rest := by
        simp [aside, hstays]
      rw [haside] at hfree ⊢
      obtain ⟨hnew, hrest⟩ := hfree
      obtain ⟨users, hok, hrows⟩ := @moveUser_ok
        (moveSessions db user.row.id (temporaryBase + index)) user.row.id _ hnew
      have hstep : RenamedBy (move user.row.id (temporaryBase + index)) db
          { moveSessions db user.row.id (temporaryBase + index) with users := users } :=
        ⟨hrows, moveSessions_comet db _ _, moveSessions_auth db _ _⟩
      rw [← ids_renamed hstep.users] at hrest
      obtain ⟨db', hloop, hrenamed⟩ := ih hrest
      refine ⟨db', ?_, hstep.trans hrenamed⟩
      simp only [moveAside, if_neg hstays, hok]
      exact hloop

theorem moveBack_ok (hfree : Free (db.users.rows.map UserRow.id) (back entries)) :
    ∃ db', moveBack db entries = (db', .ok ()) ∧ RenamedBy (inTurn (back entries)) db db' := by
  induction entries generalizing db with
  | nil => exact ⟨db, rfl, RenamedBy.refl db⟩
  | cons e rest ih =>
    obtain ⟨user, index⟩ := e
    by_cases hstays : user.row.id = user.newID
    · have hback : back ((user, index) :: rest) = back rest := by
        simp [back, hstays]
      rw [hback] at hfree ⊢
      rw [moveBack, if_pos hstays]
      exact ih hfree
    · have hback : back ((user, index) :: rest) =
          (temporaryBase + index, user.newID) :: back rest := by
        simp [back, hstays]
      rw [hback] at hfree ⊢
      obtain ⟨hnew, hrest⟩ := hfree
      obtain ⟨users, hok, hrows⟩ := @moveUser_ok db (temporaryBase + index) _ hnew
      have hstep : RenamedBy (move (temporaryBase + index) user.newID) db
          (moveSessions { db with users := users } (temporaryBase + index) user.newID) :=
        ⟨hrows, moveSessions_comet _ _ _, moveSessions_auth _ _ _⟩
      rw [← ids_renamed hstep.users] at hrest
      obtain ⟨db', hloop, hrenamed⟩ := ih hrest
      refine ⟨db', ?_, hstep.trans hrenamed⟩
      simp only [moveBack, if_neg hstays, hok]
      exact hloop

end

/-- The id an account has between the two loops. -/
def StoredUser.temporaryID (a : StoredUser) : ℕ := temporaryBase + (a.newID - firstUserID)

/-- What both loops do to a user id. -/
def Db.renaming (db : Db) (id : ℕ) : ℕ :=
  inTurn (back db.storedUsers.zipIdx) (inTurn (aside db.storedUsers.zipIdx) id)

section
variable {db db' : Db} {a b : StoredUser} {i x : ℕ} {p : ℕ × ℕ}

theorem mem_entries : (a, i) ∈ db.storedUsers.zipIdx ↔
    a ∈ db.storedUsers ∧ a.newID = firstUserID + i := by
  rw [List.mem_zipIdx_iff_getElem?]
  simp only [Db.storedUsers, List.mem_mapIdx, List.getElem?_mapIdx, Option.map_eq_some_iff]
  constructor
  · rintro ⟨row, hrow, rfl⟩
    obtain ⟨hi, rfl⟩ := List.getElem?_eq_some_iff.mp hrow
    exact ⟨⟨i, hi, rfl⟩, rfl⟩
  · rintro ⟨⟨j, hj, rfl⟩, hnew⟩
    have hij : j = i := by
      simp only at hnew
      omega
    subst hij
    exact ⟨_, List.getElem?_eq_getElem hj, rfl⟩

theorem entries_pairwise (db : Db) : db.storedUsers.zipIdx.Pairwise fun e e' =>
    e.1.row.id < e'.1.row.id ∧ e.1.newID < e'.1.newID ∧ e.2 < e'.2 := by
  have hstored := storedUsers_pairwise db
  rw [← List.zipIdx_map_fst 0 db.storedUsers, List.pairwise_map] at hstored
  refine hstored.imp_of_mem ?_
  intro e e' he he' h
  have hindex := (mem_entries.mp he).2
  have hindex' := (mem_entries.mp he').2
  have hnew := h.newID
  exact ⟨h.id, hnew, by omega⟩

theorem mem_aside : p ∈ aside db.storedUsers.zipIdx ↔
    ∃ a ∈ db.storedUsers, a.row.id ≠ a.newID ∧ (a.row.id, a.temporaryID) = p := by
  simp only [aside, List.mem_map, List.mem_filter, decide_eq_true_eq]
  constructor
  · rintro ⟨⟨a, i⟩, ⟨he, hmoves⟩, rfl⟩
    obtain ⟨ha, hnew⟩ := mem_entries.mp he
    refine ⟨a, ha, hmoves, ?_⟩
    rw [StoredUser.temporaryID, hnew, Nat.add_sub_cancel_left]
  · rintro ⟨a, ha, hmoves, rfl⟩
    have hlow := (exists_newID_iff.mp ⟨a, ha, rfl⟩).1
    exact ⟨(a, a.newID - firstUserID), ⟨mem_entries.mpr ⟨ha, by omega⟩, hmoves⟩, rfl⟩

theorem mem_back : p ∈ back db.storedUsers.zipIdx ↔
    ∃ a ∈ db.storedUsers, a.row.id ≠ a.newID ∧ (a.temporaryID, a.newID) = p := by
  simp only [back, List.mem_map, List.mem_filter, decide_eq_true_eq]
  constructor
  · rintro ⟨⟨a, i⟩, ⟨he, hmoves⟩, rfl⟩
    obtain ⟨ha, hnew⟩ := mem_entries.mp he
    refine ⟨a, ha, hmoves, ?_⟩
    rw [StoredUser.temporaryID, hnew, Nat.add_sub_cancel_left]
  · rintro ⟨a, ha, hmoves, rfl⟩
    have hlow := (exists_newID_iff.mp ⟨a, ha, rfl⟩).1
    exact ⟨(a, a.newID - firstUserID), ⟨mem_entries.mpr ⟨ha, by omega⟩, hmoves⟩, rfl⟩

theorem nodup_entries {α : Type} (f : StoredUser × ℕ → ℕ × α) (g : ℕ × α → ℕ)
    (hlt : ∀ e e' : StoredUser × ℕ, e.1.row.id < e'.1.row.id ∧ e.1.newID < e'.1.newID ∧
      e.2 < e'.2 → g (f e) < g (f e')) (keep : StoredUser × ℕ → Bool) :
    (((db.storedUsers.zipIdx.filter keep).map f).map g).Nodup := by
  rw [List.map_map, List.Nodup, List.pairwise_map]
  refine ((entries_pairwise db).filter keep).imp ?_
  intro e e' h
  exact Nat.ne_of_lt (hlt e e' h)

theorem newID_lt (hroom : db.Roomy) (ha : a ∈ db.storedUsers) : a.newID < temporaryBase := by
  have hrange := (exists_newID_iff.mp ⟨a, ha, rfl⟩).2
  have hfew := hroom.few
  omega

theorem low_stored (hroom : db.Roomy) (ha : a ∈ db.storedUsers) : a.row.id < temporaryBase :=
  hroom.low a.row (mem_storedUsers.mpr ⟨a, ha, rfl⟩)

theorem temporaryBase_le (a : StoredUser) : temporaryBase ≤ a.temporaryID := Nat.le_add_right _ _

theorem not_mem_aside_sources (hstays : ∀ a ∈ db.storedUsers, a.row.id = x → a.row.id = a.newID) :
    x ∉ (aside db.storedUsers.zipIdx).map Prod.fst := by
  intro hmem
  obtain ⟨p, hp, rfl⟩ := List.mem_map.mp hmem
  obtain ⟨a, ha, hmoves, rfl⟩ := mem_aside.mp hp
  exact hmoves (hstays a ha rfl)

theorem not_mem_back_sources (hlow : x < temporaryBase) :
    x ∉ (back db.storedUsers.zipIdx).map Prod.fst := by
  intro hmem
  obtain ⟨p, hp, rfl⟩ := List.mem_map.mp hmem
  obtain ⟨a, -, -, rfl⟩ := mem_back.mp hp
  exact absurd hlow (Nat.not_lt.mpr (temporaryBase_le a))

/-- After the first loop an account is aside or already in its place. -/
theorem inTurn_aside (hroom : db.Roomy) (ha : a ∈ db.storedUsers) :
    inTurn (aside db.storedUsers.zipIdx) a.row.id =
      if a.row.id = a.newID then a.newID else a.temporaryID := by
  split
  · next hstays =>
    rw [inTurn_of_not_source, hstays]
    apply not_mem_aside_sources
    intro b hb hid
    rw [eq_of_stored_id hb ha hid]
    exact hstays
  · next hmoves =>
    refine inTurn_of_mem ?_ ?_ (mem_aside.mpr ⟨a, ha, hmoves, rfl⟩)
    · exact nodup_entries _ _ (fun e e' h => h.1) _
    · apply not_mem_aside_sources
      intro b hb hid
      have hlow := low_stored hroom hb
      have hhigh := temporaryBase_le a
      omega

theorem renaming_account (hroom : db.Roomy) (ha : a ∈ db.storedUsers) :
    db.renaming a.row.id = a.newID := by
  rw [Db.renaming, inTurn_aside hroom ha]
  split
  · exact inTurn_of_not_source (not_mem_back_sources (newID_lt hroom ha))
  · next hmoves =>
    refine inTurn_of_mem ?_ (not_mem_back_sources (newID_lt hroom ha))
      (mem_back.mpr ⟨a, ha, hmoves, rfl⟩)
    exact nodup_entries _ _ (fun e e' h => Nat.add_lt_add_left h.2.2 _) _

theorem renaming_orphan (h : ∀ u ∈ db.users.rows, u.id ≠ x) (hlow : x < temporaryBase) :
    db.renaming x = x := by
  have haside : inTurn (aside db.storedUsers.zipIdx) x = x := by
    apply inTurn_of_not_source
    apply not_mem_aside_sources
    intro a ha hid
    exact absurd hid (h a.row (mem_storedUsers.mpr ⟨a, ha, rfl⟩))
  rw [Db.renaming, haside, inTurn_of_not_source (not_mem_back_sources hlow)]

theorem free_aside (hroom : db.Roomy) :
    Free (db.users.rows.map UserRow.id) (aside db.storedUsers.zipIdx) := by
  apply free_of_fresh
  · intro p hp hmem
    obtain ⟨a, -, -, rfl⟩ := mem_aside.mp hp
    obtain ⟨u, hu, hid⟩ := List.mem_map.mp hmem
    have hlow := hroom.low u hu
    have hhigh := temporaryBase_le a
    simp only at hid
    omega
  · exact nodup_entries _ _ (fun e e' h => Nat.add_lt_add_left h.2.2 _) _

theorem free_back (hroom : db.Roomy) :
    Free ((db.users.rows.map UserRow.id).map (inTurn (aside db.storedUsers.zipIdx)))
      (back db.storedUsers.zipIdx) := by
  apply free_of_fresh
  · intro p hp hmem
    obtain ⟨a, ha, hmoves, rfl⟩ := mem_back.mp hp
    rw [List.map_map] at hmem
    obtain ⟨u, hu, hid⟩ := List.mem_map.mp hmem
    obtain ⟨b, hb, rfl⟩ := mem_storedUsers.mp hu
    rw [Function.comp_apply, inTurn_aside hroom hb] at hid
    split at hid
    · next hstays =>
      rw [eq_of_stored_newID hb ha hid] at hstays
      exact hmoves hstays
    · have hlow := newID_lt hroom ha
      have hhigh := temporaryBase_le b
      simp only at hid
      omega
  · exact nodup_entries _ _ (fun e e' h => h.2.1) _

/-- No statement of either loop fails, and both loops rename all tables. -/
theorem migrateMySQLUsers_ok (hroom : db.Roomy) :
    ∃ db', migrateMySQLUsers db db.storedUsers = (db', .ok ()) ∧ RenamedBy db.renaming db db' ∧
      db'.hasOpenID = false ∧ db'.hasNID = false ∧
      db'.userSequence = some (lastNewID db.storedUsers) := by
  obtain ⟨db₁, haside, hrenamed⟩ := moveAside_ok (free_aside hroom)
  have hfree := free_back hroom
  rw [← ids_renamed hrenamed.users] at hfree
  obtain ⟨db₂, hback, hrenamed'⟩ := moveBack_ok hfree
  have hboth := hrenamed.trans hrenamed'
  refine ⟨setUserSequence { db₂ with hasOpenID := false, hasNID := false } db.storedUsers, ?_,
    ⟨hboth.users, hboth.comet, hboth.auth⟩, rfl, rfl, rfl⟩
  rw [migrateMySQLUsers, haside]
  simp only [hback]

end

/-- An id in a session row that names no account does not become the id of one. -/
def Db.OrphanApart (db : Db) (id : ℕ) : Prop :=
  (∀ u ∈ db.users.rows, u.id ≠ id) → id < firstUserID ∨ firstUserID + db.users.rows.length ≤ id

/-- One session table under the renaming and the deletion of orphans. -/
structure Renamed {S κ : Type} (db : Db) (before after : List S) (rest : S → κ)
    (owner : S → ℕ) : Prop where
  apart : ∀ s ∈ before, ∀ t ∈ before, rest s = rest t → s = t
  low : ∀ s ∈ before, owner s < temporaryBase
  stays : ∀ s ∈ before, (∃ a ∈ db.storedUsers, a.newID = db.renaming (owner s)) →
    ∃ s' ∈ after, rest s' = rest s ∧ owner s' = db.renaming (owner s)
  stems : ∀ s' ∈ after, ∃ s ∈ before, rest s' = rest s ∧
    owner s' = db.renaming (owner s) ∧ ∃ a ∈ db.storedUsers, a.newID = owner s'

section
variable {db db' : Db}

theorem owns_renamed_iff (hroom : db.Roomy)
    (husers : db'.users.rows = db.users.rows.map fun u => { u with id := db.renaming u.id })
    {phone : String} {id : ℕ} :
    db'.Owns phone id ↔ ∃ a ∈ db.storedUsers, a.row.phone = phone ∧ a.newID = id := by
  unfold Db.Owns
  rw [husers]
  constructor
  · rintro ⟨u', hu', hphone, hid⟩
    obtain ⟨u, hu, rfl⟩ := List.mem_map.mp hu'
    obtain ⟨a, ha, rfl⟩ := mem_storedUsers.mp hu
    exact ⟨a, ha, hphone, (renaming_account hroom ha).symm.trans hid⟩
  · rintro ⟨a, ha, hphone, hnew⟩
    exact ⟨_, List.mem_map.mpr ⟨a.row, mem_storedUsers.mpr ⟨a, ha, rfl⟩, rfl⟩, hphone,
      (renaming_account hroom ha).trans hnew⟩

variable {S κ : Type} {before after : List S} {rest : S → κ} {owner : S → ℕ}

theorem Renamed.apart_of_keeps (h : Renamed db before after rest owner)
    (hkeeps : KeepsOwners db db' before after rest owner) :
    ∀ s ∈ before, db.OrphanApart (owner s) := by
  intro s hs horphan
  by_contra hinside
  obtain ⟨a, ha, hnew⟩ := (@exists_newID_iff db (owner s)).mpr (by omega)
  rw [← renaming_orphan horphan (h.low s hs)] at hnew
  obtain ⟨s', hs', hsame, -⟩ := h.stays s hs ⟨a, ha, hnew⟩
  refine hkeeps.gone s hs ?_ s' hs' hsame
  rintro phone ⟨u, hu, -, hid⟩
  exact horphan u hu hid

theorem Renamed.keeps_of_apart (hroom : db.Roomy) (h : Renamed db before after rest owner)
    (howns : ∀ {phone id}, db'.Owns phone id ↔
      ∃ a ∈ db.storedUsers, a.row.phone = phone ∧ a.newID = id)
    (hapart : ∀ s ∈ before, db.OrphanApart (owner s)) :
    KeepsOwners db db' before after rest owner := by
  have hnone : ∀ s ∈ before, (∀ u ∈ db.users.rows, u.id ≠ owner s) → ∀ a ∈ db.storedUsers,
      a.newID ≠ db.renaming (owner s) := by
    intro s hs horphan a ha hnew
    rw [renaming_orphan horphan (h.low s hs)] at hnew
    have hrange := exists_newID_iff.mp ⟨a, ha, hnew⟩
    have houtside := hapart s hs horphan
    omega
  constructor
  · intro s hs phone howner
    obtain ⟨a, ha, hphone, hid⟩ := owns_iff.mp howner
    have hnew := renaming_account hroom ha
    rw [hid] at hnew
    obtain ⟨s', hs', hsame, howner'⟩ := h.stays s hs ⟨a, ha, hnew.symm⟩
    exact ⟨s', hs', hsame, howns.mpr ⟨a, ha, hphone, hnew.symm.trans howner'.symm⟩⟩
  · intro s hs hfree s' hs' hsame
    obtain ⟨t, ht, hsame', howner, a, ha, hnew⟩ := h.stems s' hs'
    rw [h.apart t ht s hs (hsame'.symm.trans hsame)] at howner
    refine hnone s hs ?_ a ha (hnew.trans howner)
    intro u hu hid
    exact hfree u.phone ⟨u, hu, rfl, hid⟩
  · intro s' hs' phone howner'
    obtain ⟨s, hs, hsame, howner, -⟩ := h.stems s' hs'
    obtain ⟨a, ha, hphone, hnew⟩ := howns.mp howner'
    rw [howner] at hnew
    refine ⟨s, hs, hsame.symm, ?_⟩
    by_cases hnamed : ∃ u ∈ db.users.rows, u.id = owner s
    · obtain ⟨u, hu, hid⟩ := hnamed
      obtain ⟨b, hb, rfl⟩ := mem_storedUsers.mp hu
      have hnew' := renaming_account hroom hb
      rw [hid, ← hnew] at hnew'
      rw [eq_of_stored_newID ha hb hnew'] at hphone
      exact owns_iff.mpr ⟨b, hb, hphone, hid⟩
    · refine absurd hnew (hnone s hs ?_ a ha)
      intro u hu hid
      exact hnamed ⟨u, hu, hid⟩

end

section
variable {db db' : Db}

/-- A database without legacy columns and low ids is not renumbered. -/
theorem migrateMySQL_unified (hunified : db.isUnified = true) :
    migrateMySQLUserIDs db = (deleteOrphanCometSessions (if db.storedUsers.isEmpty then
      setUserSequence db db.storedUsers else db), .ok ()) := by
  simp only [migrateMySQLUserIDs, hunified, if_true]

/-- Every other database is renumbered. -/
theorem migrateMySQL_renames (hroom : db.Roomy) (hunified : db.isUnified = false) :
    ∃ db₁, migrateMySQLUserIDs db = (deleteOrphanCometSessions db₁, .ok ()) ∧
      RenamedBy db.renaming db db₁ ∧ db₁.hasOpenID = false ∧ db₁.hasNID = false ∧
      db₁.userSequence = some (lastNewID db.storedUsers) := by
  obtain ⟨db₁, hok, hrenamed⟩ := migrateMySQLUsers_ok hroom
  refine ⟨db₁, ?_, hrenamed⟩
  have hrenumber : ¬ (!db.hasOpenID && !db.hasNID && !needsRenumber db.storedUsers) = true := by
    intro hkeep
    simp only [Bool.and_eq_true, Bool.not_eq_true'] at hkeep
    have hneeds := needsRenumber_of_low hkeep.1.1 hkeep.1.2 hunified
    rw [hkeep.2] at hneeds
    cases hneeds
  unfold migrateMySQLUserIDs
  simp only [hunified, if_neg hrenumber, hok]
  rfl

theorem exists_renamed_id (hroom : db.Roomy)
    (husers : db'.users.rows = db.users.rows.map fun u => { u with id := db.renaming u.id })
    {id : ℕ} : (∃ u ∈ db'.users.rows, u.id = id) ↔ ∃ a ∈ db.storedUsers, a.newID = id := by
  constructor
  · rintro ⟨u, hu, hid⟩
    obtain ⟨a, ha, -, hnew⟩ := (owns_renamed_iff hroom husers).mp ⟨u, hu, rfl, hid⟩
    exact ⟨a, ha, hnew⟩
  · rintro ⟨a, ha, hnew⟩
    obtain ⟨u, hu, -, hid⟩ := (owns_renamed_iff hroom husers).mpr ⟨a, ha, rfl, hnew⟩
    exact ⟨u, hu, hid⟩

theorem mem_mysql_comet (hroom : db.Roomy) (h : RenamedBy db.renaming db db')
    {s' : CometSession} : s' ∈ (deleteOrphanCometSessions db').cometSessions.rows ↔
      (∃ s ∈ db.cometSessions.rows, { s with userID := db.renaming s.userID } = s') ∧
        ∃ a ∈ db.storedUsers, a.newID = s'.userID := by
  rw [← exists_renamed_id hroom h.users]
  simp [deleteOrphanCometSessions, Table.mem_delete, h.comet]

theorem mem_mysql_auth (hroom : db.Roomy) (h : RenamedBy db.renaming db db')
    {s' : AuthSession} : s' ∈ (deleteOrphanCometSessions db').authSessions.rows ↔
      (∃ s ∈ db.authSessions.rows, { s with userID := db.renaming s.userID } = s') ∧
        ∃ a ∈ db.storedUsers, a.newID = s'.userID := by
  rw [← exists_renamed_id hroom h.users]
  simp [deleteOrphanCometSessions, Table.mem_delete, h.auth]

theorem renamed_comet (hroom : db.Roomy) (h : RenamedBy db.renaming db db') :
    Renamed db db.cometSessions.rows (deleteOrphanCometSessions db').cometSessions.rows
      CometSession.rest CometSession.userID := by
  refine ⟨fun s hs t ht => comet_rest hs ht, hroom.comet, ?_, ?_⟩
  · intro s hs htaken
    exact ⟨_, (mem_mysql_comet hroom h).mpr ⟨⟨s, hs, rfl⟩, htaken⟩, rfl, rfl⟩
  · intro s' hs'
    obtain ⟨⟨s, hs, rfl⟩, htaken⟩ := (mem_mysql_comet hroom h).mp hs'
    exact ⟨s, hs, rfl, rfl, htaken⟩

theorem renamed_auth (hroom : db.Roomy) (h : RenamedBy db.renaming db db') :
    Renamed db db.authSessions.rows (deleteOrphanCometSessions db').authSessions.rows
      AuthSession.rest AuthSession.userID := by
  refine ⟨fun s hs t ht => auth_rest hs ht, hroom.auth, ?_, ?_⟩
  · intro s hs htaken
    exact ⟨_, (mem_mysql_auth hroom h).mpr ⟨⟨s, hs, rfl⟩, htaken⟩, rfl, rfl⟩
  · intro s' hs'
    obtain ⟨⟨s, hs, rfl⟩, htaken⟩ := (mem_mysql_auth hroom h).mp hs'
    exact ⟨s, hs, rfl, rfl, htaken⟩

theorem deleteOrphans_twice (db : Db) :
    deleteOrphanCometSessions (deleteOrphanCometSessions db) = deleteOrphanCometSessions db := by
  have hcomet : (deleteOrphanCometSessions (deleteOrphanCometSessions db)).cometSessions =
      (deleteOrphanCometSessions db).cometSessions := by
    apply Table.ext
    simp [deleteOrphanCometSessions, Table.delete]
  have hauth : (deleteOrphanCometSessions (deleteOrphanCometSessions db)).authSessions =
      (deleteOrphanCometSessions db).authSessions := by
    apply Table.ext
    simp [deleteOrphanCometSessions, Table.delete]
  calc deleteOrphanCometSessions (deleteOrphanCometSessions db)
      = { deleteOrphanCometSessions db with
          cometSessions := (deleteOrphanCometSessions (deleteOrphanCometSessions db)).cometSessions
          authSessions :=
            (deleteOrphanCometSessions (deleteOrphanCometSessions db)).authSessions } := rfl
    _ = deleteOrphanCometSessions db := by rw [hcomet, hauth]

theorem storedUsers_eq_nil : db.storedUsers = [] ↔ db.users.rows = [] := by
  rw [List.eq_nil_iff_forall_not_mem, List.eq_nil_iff_forall_not_mem]
  constructor
  · intro hnone u hu
    obtain ⟨a, ha, -⟩ := mem_storedUsers.mp hu
    exact hnone a ha
  · intro hnone a ha
    exact hnone a.row (mem_storedUsers.mpr ⟨a, ha, rfl⟩)

theorem migrateMySQL_settled (hunified : db.isUnified = true)
    (hsequence : db.users.rows = [] → db.userSequence = some (firstUserID - 1)) :
    migrateMySQLUserIDs (deleteOrphanCometSessions db) =
      (deleteOrphanCometSessions db, .ok ()) := by
  have hunified' : (deleteOrphanCometSessions db).isUnified = true := hunified
  rw [migrateMySQL_unified hunified']
  split
  · next hempty =>
    have hnil : (deleteOrphanCometSessions db).storedUsers = [] := List.isEmpty_iff.mp hempty
    have hrows : db.users.rows = [] := storedUsers_eq_nil.mp hnil
    have hsame : setUserSequence (deleteOrphanCometSessions db) [] =
        deleteOrphanCometSessions db := by
      unfold setUserSequence
      have hkept : (deleteOrphanCometSessions db).userSequence = some (lastNewID []) :=
        hsequence hrows
      rw [← hkept]
    rw [hnil, hsame, deleteOrphans_twice]
  · rw [deleteOrphans_twice]

theorem unified_of_renamed (hroom : db.Roomy) (h : RenamedBy db.renaming db db')
    (hopen : db'.hasOpenID = false) (hnid : db'.hasNID = false) : db'.isUnified = true := by
  have hall : ∀ u ∈ db'.users.rows, firstUserID ≤ u.id := by
    intro u hu
    obtain ⟨a, ha, hnew⟩ := (exists_renamed_id hroom h.users).mp ⟨u, hu, rfl⟩
    exact (exists_newID_iff.mp ⟨a, ha, hnew⟩).1
  simpa [Db.isUnified, hopen, hnid] using hall

/-- Sessions follow their accounts exactly when no orphan carries the new id of an account,
and the next start leaves everything as it is. -/
theorem mysql_renumbering_keeps_owners_iff (hroom : db.Roomy) :
    ∃ db', migrateMySQLUserIDs db = (db', .ok ()) ∧
      (KeepsOwners db db' db.cometSessions.rows db'.cometSessions.rows CometSession.rest
          CometSession.userID ∧
        KeepsOwners db db' db.authSessions.rows db'.authSessions.rows AuthSession.rest
          AuthSession.userID ↔
        db.isUnified = true ∨ (∀ s ∈ db.cometSessions.rows, db.OrphanApart s.userID) ∧
          ∀ s ∈ db.authSessions.rows, db.OrphanApart s.userID) ∧
      migrateMySQLUserIDs db' = (db', .ok ()) := by
  cases hunified : db.isUnified with
  | true =>
    refine ⟨_, migrateMySQL_unified hunified, iff_of_true ?_ (Or.inl rfl), ?_⟩
    · obtain ⟨db', hok, hkept⟩ := ownership_of_unified hunified
      simp only [migrateUnifiedUserIDs, hunified, if_true, Except.ok.injEq] at hok
      rw [hok]
      exact hkept
    · split
      · next hempty =>
        refine migrateMySQL_settled hunified fun _ => ?_
        rw [List.isEmpty_iff.mp hempty]
        rfl
      · next hsome =>
        refine migrateMySQL_settled hunified fun hrows => ?_
        rw [storedUsers_eq_nil.mpr hrows] at hsome
        exact absurd rfl hsome
  | false =>
    obtain ⟨db₁, hok, hrenamed, hopen, hnid, hsequence⟩ := migrateMySQL_renames hroom hunified
    have howns : ∀ {phone id}, (deleteOrphanCometSessions db₁).Owns phone id ↔
        ∃ a ∈ db.storedUsers, a.row.phone = phone ∧ a.newID = id :=
      owns_renamed_iff hroom hrenamed.users
    refine ⟨_, hok, ⟨?_, ?_⟩, ?_⟩
    · rintro ⟨hcomet, hauth⟩
      exact Or.inr ⟨(renamed_comet hroom hrenamed).apart_of_keeps hcomet,
        (renamed_auth hroom hrenamed).apart_of_keeps hauth⟩
    · rintro (hunified' | ⟨hcomet, hauth⟩)
      · cases hunified'
      · exact ⟨(renamed_comet hroom hrenamed).keeps_of_apart hroom howns hcomet,
          (renamed_auth hroom hrenamed).keeps_of_apart hroom howns hauth⟩
    · refine migrateMySQL_settled (unified_of_renamed hroom hrenamed hopen hnid) fun hrows => ?_
      rw [hrenamed.users, List.map_eq_nil_iff] at hrows
      rw [hsequence, storedUsers_eq_nil.mpr hrows]
      rfl

end

/-- No later account has the id that the account of this id is to get. -/
def Db.NotOvertaken (db : Db) (id : ℕ) : Prop :=
  (∃ u ∈ db.users.rows, u.id = id) →
    ∀ v ∈ db.users.rows, id < v.id → v.id ≠ firstUserID + db.rank id

def Db.isNewID (db : Db) (id : ℕ) : Bool := db.storedUsers.any fun a => a.newID == id

section
variable {db db' : Db}

theorem filter_renamed_eq_iff {α : Type} {rows : List α} {F G : α → α} {p : α → Bool}
    (hp : ∀ r ∈ rows, p (F r) = p (G r)) :
    (rows.map F).filter p = (rows.map G).filter p ↔ ∀ r ∈ rows, p (F r) = true → F r = G r := by
  induction rows with
  | nil => simp
  | cons r rest ih =>
    have hrest := ih fun s hs => hp s (List.mem_cons_of_mem _ hs)
    have hr := hp r List.mem_cons_self
    rw [List.map_cons, List.map_cons, List.filter_cons, List.filter_cons, ← hr,
      List.forall_mem_cons, ← hrest]
    cases hF : p (F r) with
    | true => simp
    | false => simp

theorem isNewID_eq (hroom : db.Roomy) (h : RenamedBy db.renaming db db') (id : ℕ) :
    (db'.users.rows.any fun u => u.id == id) = db.isNewID id := by
  rw [Bool.eq_iff_iff]
  simpa [Db.isNewID] using @exists_renamed_id db db' hroom h.users id

theorem isNewID_rebuilt (db : Db) (id : ℕ) :
    (db.renumbered.users.rows.any fun u => u.id == id) = db.isNewID id := by
  rw [Bool.eq_iff_iff]
  simpa [Db.isNewID, renumbered_users] using @exists_rebuilt_id db id

/-- Both ways of renaming give a session of an account the id of some account. -/
theorem isNewID_inTurn (hroom : db.Roomy) {id : ℕ} (hlow : id < temporaryBase) :
    db.isNewID (inTurn db.moves id) = db.isNewID (db.renaming id) := by
  by_cases hnamed : ∃ u ∈ db.users.rows, u.id = id
  · obtain ⟨u, hu, rfl⟩ := hnamed
    obtain ⟨a, ha, rfl⟩ := mem_storedUsers.mp hu
    have hleft : db.isNewID (inTurn db.moves a.row.id) = true := by
      rw [Db.isNewID, List.any_eq_true]
      by_cases hsource : a.row.id ∈ db.moves.map Prod.fst
      · obtain ⟨pair, hpair, htarget⟩ := List.mem_map.mp (inTurn_of_source hsource)
        obtain ⟨b, hb, rfl⟩ := List.mem_map.mp hpair
        exact ⟨b, (List.mem_filter.mp hb).1, beq_iff_eq.mpr htarget⟩
      · rw [inTurn_of_not_source hsource]
        refine ⟨a, ha, beq_iff_eq.mpr ?_⟩
        by_contra hmoves
        exact hsource (mem_sources.mpr ⟨a, ha, rfl, Ne.symm hmoves⟩)
    have hright : db.isNewID (db.renaming a.row.id) = true := by
      rw [Db.isNewID, List.any_eq_true]
      exact ⟨a, ha, beq_iff_eq.mpr (renaming_account hroom ha).symm⟩
    rw [hleft, hright]
  · have horphan : ∀ u ∈ db.users.rows, u.id ≠ id := fun u hu hid => hnamed ⟨u, hu, hid⟩
    rw [inTurn_orphan horphan, renaming_orphan horphan hlow]

theorem same_owner_iff (hroom : db.Roomy) {id : ℕ} (hlow : id < temporaryBase) :
    (db.isNewID (inTurn db.moves id) = true → inTurn db.moves id = db.renaming id) ↔
      db.NotOvertaken id := by
  by_cases hnamed : ∃ u ∈ db.users.rows, u.id = id
  · obtain ⟨u, hu, rfl⟩ := hnamed
    obtain ⟨a, ha, rfl⟩ := mem_storedUsers.mp hu
    have hnew : db.isNewID (inTurn db.moves a.row.id) = true := by
      rw [isNewID_inTurn hroom hlow, renaming_account hroom ha, Db.isNewID, List.any_eq_true]
      exact ⟨a, ha, beq_self_eq_true _⟩
    rw [renaming_account hroom ha, inTurn_account ha, Db.NotOvertaken, newID_eq_rank ha]
    exact ⟨fun h _ => h hnew, fun h _ => h ⟨_, hu, rfl⟩⟩
  · have horphan : ∀ u ∈ db.users.rows, u.id ≠ id := fun u hu hid => hnamed ⟨u, hu, hid⟩
    rw [inTurn_orphan horphan, renaming_orphan horphan hlow]
    exact iff_of_true (fun _ => rfl) fun h => absurd h hnamed

theorem renumbered_comet_rows (db : Db) : db.renumbered.cometSessions.rows =
    (db.cometSessions.rows.map fun s => { s with userID := inTurn db.moves s.userID }).filter
      fun s => db.isNewID s.userID := by
  have hmoved := moveCometSessions_rows db.moved db.cometSessions
  simp only [Db.renumbered, deleteOrphanCometSessions, Table.delete, hmoved, Bool.not_not]
  exact List.filter_congr fun s _ => isNewID_rebuilt db s.userID

theorem renumbered_auth_rows (db : Db) : db.renumbered.authSessions.rows =
    (db.authSessions.rows.map fun s => { s with userID := inTurn db.moves s.userID }).filter
      fun s => db.isNewID s.userID := by
  have hmoved := moveAuthSessions_rows db.moved db.authSessions
  simp only [Db.renumbered, deleteOrphanCometSessions, Table.delete, hmoved, Bool.not_not]
  exact List.filter_congr fun s _ => isNewID_rebuilt db s.userID

theorem same_comet_iff (hroom : db.Roomy) (h : RenamedBy db.renaming db db') :
    db.renumbered.cometSessions = (deleteOrphanCometSessions db').cometSessions ↔
      ∀ s ∈ db.cometSessions.rows, db.NotOvertaken s.userID := by
  have hmysql : (deleteOrphanCometSessions db').cometSessions.rows =
      (db.cometSessions.rows.map fun s => { s with userID := db.renaming s.userID }).filter
        fun s => db.isNewID s.userID := by
    simp only [deleteOrphanCometSessions, Table.delete, Bool.not_not, h.comet]
    exact List.filter_congr fun s _ => isNewID_eq hroom h s.userID
  rw [Table.ext_iff, renumbered_comet_rows, hmysql]
  refine (filter_renamed_eq_iff fun s hs => ?_).trans (forall₂_congr fun s hs => ?_)
  · exact isNewID_inTurn hroom (hroom.comet s hs)
  rw [← same_owner_iff hroom (hroom.comet s hs)]
  refine forall_congr' fun _ => ⟨congrArg CometSession.userID, fun hid => ?_⟩
  rw [hid]

theorem same_auth_iff (hroom : db.Roomy) (h : RenamedBy db.renaming db db') :
    db.renumbered.authSessions = (deleteOrphanCometSessions db').authSessions ↔
      ∀ s ∈ db.authSessions.rows, db.NotOvertaken s.userID := by
  have hmysql : (deleteOrphanCometSessions db').authSessions.rows =
      (db.authSessions.rows.map fun s => { s with userID := db.renaming s.userID }).filter
        fun s => db.isNewID s.userID := by
    simp only [deleteOrphanCometSessions, Table.delete, Bool.not_not, h.auth]
    exact List.filter_congr fun s _ => isNewID_eq hroom h s.userID
  rw [Table.ext_iff, renumbered_auth_rows, hmysql]
  refine (filter_renamed_eq_iff fun s hs => ?_).trans (forall₂_congr fun s hs => ?_)
  · exact isNewID_inTurn hroom (hroom.auth s hs)
  rw [← same_owner_iff hroom (hroom.auth s hs)]
  refine forall_congr' fun _ => ⟨congrArg AuthSession.userID, fun hid => ?_⟩
  rw [hid]

/-- A legacy SQLite file and a legacy MySQL database with the same rows end with the same
accounts. They end with the same sessions exactly when no session belongs to an account that
is overtaken by a later one. -/
theorem back_ends_agree_iff (hroom : db.Roomy) :
    ∃ sqlite mysql, migrateUnifiedUserIDs db = .ok sqlite ∧
      migrateMySQLUserIDs db = (mysql, .ok ()) ∧
      (∀ phone id, sqlite.Owns phone id ↔ mysql.Owns phone id) ∧
      (sqlite.cometSessions = mysql.cometSessions ∧ sqlite.authSessions = mysql.authSessions ↔
        db.isUnified = true ∨ (∀ s ∈ db.cometSessions.rows, db.NotOvertaken s.userID) ∧
          ∀ s ∈ db.authSessions.rows, db.NotOvertaken s.userID) := by
  cases hunified : db.isUnified with
  | true =>
    refine ⟨_, _, ?_, migrateMySQL_unified hunified, fun _ _ => Iff.rfl,
      iff_of_true ⟨rfl, rfl⟩ (Or.inl rfl)⟩
    simp only [migrateUnifiedUserIDs, hunified, if_true]
  | false =>
    obtain ⟨db₁, hok, hrenamed, -⟩ := migrateMySQL_renames hroom hunified
    refine ⟨_, _, migrate_rebuilds hunified, hok, ?_, ?_⟩
    · intro phone id
      rw [owns_rebuilt_iff (renumbered_users db)]
      exact (owns_renamed_iff hroom hrenamed.users).symm
    rw [same_comet_iff hroom hrenamed, same_auth_iff hroom hrenamed]
    exact (or_iff_right Bool.false_ne_true).symm

end

theorem mixedFile_roomy : mixedFile.Roomy :=
  ⟨by decide, by decide, by decide, by decide⟩

theorem mixed_database_keeps_owner :
    ∃ db', migrateMySQLUserIDs mixedFile = (db', .ok ()) ∧
      KeepsOwners mixedFile db' mixedFile.cometSessions.rows db'.cometSessions.rows
        CometSession.rest CometSession.userID := by
  obtain ⟨db', hok, hkeeps, -⟩ := mysql_renumbering_keeps_owners_iff mixedFile_roomy
  refine ⟨db', hok, (hkeeps.mpr (Or.inr ⟨?_, ?_⟩)).1⟩
  · intro s hs horphan
    rw [List.mem_singleton.mp hs] at horphan
    exact absurd rfl (horphan _ List.mem_cons_self)
  · intro s hs
    cases hs

theorem mixed_back_ends_differ :
    ∃ sqlite mysql, migrateUnifiedUserIDs mixedFile = .ok sqlite ∧
      migrateMySQLUserIDs mixedFile = (mysql, .ok ()) ∧
      ¬ (sqlite.cometSessions = mysql.cometSessions ∧
        sqlite.authSessions = mysql.authSessions) := by
  obtain ⟨sqlite, mysql, hsqlite, hmysql, -, hsame⟩ := back_ends_agree_iff mixedFile_roomy
  refine ⟨sqlite, mysql, hsqlite, hmysql, fun heq => ?_⟩
  rcases hsame.mp heq with hunified | ⟨hcomet, -⟩
  · revert hunified
    decide
  · have hlater := hcomet ⟨"c", 5, "ct_a", 0⟩ List.mem_cons_self ⟨_, List.mem_cons_self, rfl⟩
      { id := 100000001, phone := "13900000000", createdAt := 0, lastLoginAt := 0 }
      (List.mem_cons_of_mem _ List.mem_cons_self) (by decide)
    revert hlater
    decide

end PapeSdk
