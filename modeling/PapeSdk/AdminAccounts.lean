import PapeSdk.DeletedAccounts
import PapeSdk.Listings

/-!
The accounts as an administrator sees them: the queries of
`internal/store/admin.go` that read. A listing is a search with a limit and an
offset, newest accounts first. Deleted accounts are listed too, and an account
without a phone number shows the email of its first column.
-/

namespace PapeSdk

open KeyedTables EventRuns Identifiers Listings LetterCase

structure AdminAccount where
  id : ℕ
  openID : String
  phone : String
  email : String
  createdAt : ℕ
  lastLoginAt : ℕ
  cancellation : ℕ
  cancellationAt : ℕ
  deletedAt : ℕ
  securityChangedAt : ℕ
  securityOverride : Option Bool
  isSafe : Bool
  deriving DecidableEq, Repr

def UserRow.adminAccount (r : UserRow) (now : ℕ) : AdminAccount where
  id := r.id
  openID := toString r.id
  phone := if hasAt r.phone then "" else r.phone
  email := if hasAt r.phone then beforeDeletedMark r.phone else r.email.getD ""
  createdAt := r.createdAt
  lastLoginAt := r.lastLoginAt
  cancellation := r.cancellationStatus
  cancellationAt := r.cancellationAt.getD 0
  deletedAt := r.deletedAt.getD 0
  securityChangedAt := r.securityChangedAt
  securityOverride := r.securityOverride.map (· != 0)
  isSafe := applySecurityStatus r.securityChangedAt r.securityOverride now

def adminAccountByID (w : World) (id : ℕ) : Option AdminAccount :=
  (w.db.users.first? fun r => r.id == id).map fun r => r.adminAccount w.now

/-- SQLite reads both sides of `like` up to the first NUL. -/
def beforeNul (text : String) : List Char := text.toList.takeWhile (· != '\x00')

/-- `? = '' or phone like ? or email like ? or cast(id as char) like ?`. -/
def UserRow.isFound (query : String) (r : UserRow) : Bool :=
  let pattern := beforeNul ("%" ++ query ++ "%")
  query == "" || like pattern (beforeNul r.phone) ||
    r.email.any (fun email => like pattern (beforeNul email)) ||
    like pattern (beforeNul (toString r.id))

/-- `order by id desc`. -/
def newest (rows : List UserRow) : List UserRow := rows.insertionSort fun a b => b.id ≤ a.id

def maxLikePattern : ℕ := 50000

def adminAccounts (w : World) (query : String) (limit offset : ℤ) :
    Except String (List AdminAccount) :=
  let limit := if limit ≤ 0 ∨ 200 < limit then 50 else limit
  let offset := if offset < 0 then 0 else offset
  let query := trimSpace query
  if query ≠ "" ∧ w.db.users.rows ≠ [] ∧ maxLikePattern < ("%" ++ query ++ "%").utf8ByteSize then
    .error "LIKE or GLOB pattern too complex"
  else
    .ok <| (((newest (w.db.users.rows.filter (UserRow.isFound query))).drop offset.toNat).take
      limit.toNat).map fun r => r.adminAccount w.now

section
variable {env : Externals} {w w' w'' : World} {query : String} {n i : ℕ}

theorem newest_sorted (rows : List UserRow) :
    (newest rows).Pairwise fun a b => b.id ≤ a.id := by
  have htotal : Std.Total fun a b : UserRow => b.id ≤ a.id := ⟨fun a b => Nat.le_total b.id a.id⟩
  have htrans : IsTrans UserRow fun a b => b.id ≤ a.id := ⟨fun a b c hab hbc => le_trans hbc hab⟩
  exact List.pairwise_insertionSort _ rows

theorem adminAccounts_page {accounts : List AdminAccount} (hn : 0 < n) (hmax : n ≤ 200)
    (h : adminAccounts w query n ((i * n : ℕ) : ℤ) = .ok accounts) :
    accounts = (page n i (newest (w.db.users.rows.filter (UserRow.isFound (trimSpace query))))).map
      fun r => r.adminAccount w.now := by
  unfold adminAccounts at h
  simp only at h
  split at h
  · cases h
  · rw [if_neg (by omega), if_neg (by omega), Int.toNat_natCast, Int.toNat_natCast] at h
    exact (Except.ok.inj h).symm

theorem mem_newest {rows : List UserRow} {r : UserRow} : r ∈ newest rows ↔ r ∈ rows :=
  List.mem_insertionSort _

theorem newest_distinct (w : World) (p : UserRow → Bool) :
    (newest (w.db.users.rows.filter p)).Pairwise fun a b => b.id < a.id := by
  have hnodup : (newest (w.db.users.rows.filter p)).Nodup := by
    refine (List.perm_insertionSort _ _).nodup_iff.mpr (List.Nodup.filter p ?_)
    refine w.db.users.apart.imp ?_
    rintro a b hapart rfl
    exact hapart (.id a.id) (by simp [userKeys]) (by simp [userKeys])
  have hboth := (newest_sorted (w.db.users.rows.filter p)).and hnodup
  refine hboth.imp_of_mem ?_
  intro a b ha hb hab
  have hne : a.id ≠ b.id := by
    intro hid
    exact hab.2 (w.db.user_eq_of_id (List.mem_of_mem_filter (mem_newest.mp ha))
      (List.mem_of_mem_filter (mem_newest.mp hb)) hid)
  have := hab.1
  omega

/-- The text contains the other one, up to the case of ASCII letters. -/
def ContainsText (text q : String) : Prop :=
  q.toList.map Char.toLower <:+: (beforeNul text).map Char.toLower

theorem beforeNul_pattern {query : String} (hnul : '\x00' ∉ query.toList) :
    beforeNul ("%" ++ query ++ "%") = '%' :: (query.toList ++ ['%']) := by
  have htext : ("%" ++ query ++ "%").toList = '%' :: (query.toList ++ ['%']) := by simp
  rw [beforeNul, htext, List.takeWhile_eq_self_iff]
  intro c hc
  simp only [List.mem_cons, List.mem_append, List.not_mem_nil, or_false] at hc
  rcases hc with rfl | hc | rfl
  · decide
  · simp only [bne_iff_ne]
    rintro rfl
    exact hnul hc
  · decide

theorem isFound_iff {r : UserRow} (hliteral : Literal query.toList) (hnul : '\x00' ∉ query.toList) :
    r.isFound query = true ↔ ContainsText r.phone query ∨
      (∃ email, r.email = some email ∧ ContainsText email query) ∨
      ContainsText (toString r.id) query := by
  have hlike : ∀ text : String,
      like ('%' :: (query.toList ++ ['%'])) (beforeNul text) = true ↔ ContainsText text query :=
    fun text => like_contains hliteral
  have hempty : query = "" → ContainsText r.phone query := by
    rintro rfl
    exact List.nil_infix
  simp only [UserRow.isFound, beforeNul_pattern hnul, Bool.or_eq_true, beq_iff_eq,
    Option.any_eq_true, hlike]
  rw [or_iff_right_of_imp hempty, or_assoc]

/-- Read page by page until a page is not full, a search lists every account it finds once. -/
theorem search_lists_each_account_once {k : ℕ} {pages : ℕ → List AdminAccount} (hn : 0 < n)
    (hmax : n ≤ 200) (hliteral : Literal (trimSpace query).toList)
    (hnul : '\x00' ∉ (trimSpace query).toList)
    (hpages : ∀ i ≤ k, adminAccounts w query n ((i * n : ℕ) : ℤ) = .ok (pages i))
    (hlast : (pages k).length < n) :
    let all := (List.range (k + 1)).flatMap pages
    all.Pairwise (fun a b => b.id < a.id) ∧
      ∀ a, a ∈ all ↔ ∃ r ∈ w.db.users.rows, a = r.adminAccount w.now ∧
        (ContainsText r.phone (trimSpace query) ∨
          (∃ email, r.email = some email ∧ ContainsText email (trimSpace query)) ∨
          ContainsText (toString r.id) (trimSpace query)) := by
  have hlist : ∀ i ≤ k, pages i =
      page n i ((newest (w.db.users.rows.filter (UserRow.isFound (trimSpace query)))).map
        fun r => r.adminAccount w.now) := by
    intro i hi
    rw [page_map]
    exact adminAccounts_page hn hmax (hpages i hi)
  have hall := pages_exhaust hlist hlast
  intro all
  have hsame : all = _ := hall
  rw [hsame]
  constructor
  · rw [List.pairwise_map]
    exact newest_distinct w _
  · intro a
    simp only [List.mem_map, mem_newest, List.mem_filter, isFound_iff hliteral hnul]
    constructor
    · rintro ⟨r, ⟨hr, hfound⟩, rfl⟩
      exact ⟨r, hr, rfl, hfound⟩
    · rintro ⟨r, hr, rfl, hfound⟩
      exact ⟨r, ⟨hr, hfound⟩, rfl⟩

def World.accountIDs (w : World) : List ℕ := w.db.users.rows.map UserRow.id

/-- The accounts stay, and new ones have greater ids. -/
def IdsExtend (w w' : World) : Prop :=
  ∃ new, w'.accountIDs = w.accountIDs ++ new ∧ ∀ a ∈ w.accountIDs, ∀ b ∈ new, a < b

theorem IdsExtend.refl (w : World) : IdsExtend w w := ⟨[], by simp, by simp⟩

theorem IdsExtend.trans (h : IdsExtend w w') (h' : IdsExtend w' w'') : IdsExtend w w'' := by
  obtain ⟨new, hids, hless⟩ := h
  obtain ⟨new', hids', hless'⟩ := h'
  refine ⟨new ++ new', by rw [hids', hids, List.append_assoc], ?_⟩
  intro a ha b hb
  rcases List.mem_append.mp hb with hb | hb
  · exact hless a ha b hb
  · exact hless' a (hids ▸ List.mem_append_left new ha) b hb

theorem IdsExtend.of_updated {p : UserRow → Bool} {f : UserRow → UserRow}
    (hrows : w'.db.users.rows = w.db.users.rows.map fun r => if p r then f r else r)
    (hid : ∀ r, (f r).id = r.id) : IdsExtend w w' := by
  refine ⟨[], ?_, by simp⟩
  rw [World.accountIDs, World.accountIDs, hrows, List.map_map, List.append_nil]
  refine List.map_congr_left ?_
  intro r _
  rw [Function.comp_apply]
  split
  · exact hid r
  · rfl

theorem IdsExtend.of_same (h : w'.db.users = w.db.users) : IdsExtend w w' := by
  refine ⟨[], ?_, by simp⟩
  rw [World.accountIDs, World.accountIDs, h, List.append_nil]

theorem IdsExtend.inserted {row : UserRow} {users : Table userKeys} {now draws : ℕ} {db : Db}
    (husers : w.db.users.insert? { row with id := w.db.nextUserID } = some users)
    (hdb : db.users = users) : IdsExtend w { db := db, now := now, draws := draws } := by
  refine ⟨[w.db.nextUserID], ?_, ?_⟩
  · rw [World.accountIDs, hdb, Table.insert?_rows husers, List.map_append]
    rfl
  · intro a ha b hb
    obtain ⟨r, hr, rfl⟩ := List.mem_map.mp ha
    rw [List.mem_singleton.mp hb]
    exact Db.lt_nextUserID hr

theorem Change.idsExtend {k : Effect} (h : Change env w k w') (hsoft : ∀ id, k ≠ .hardDelete id) :
    IdsExtend w w' := by
  cases h with
  | draw | comet | revokeSession => exact IdsExtend.of_same rfl
  | touch t => exact IdsExtend.of_updated rfl fun r => (t.quiet w.now r).id
  | login | refresh | revokeTokens => exact IdsExtend.of_updated rfl fun _ => rfl
  | create row users husers hblank => exact IdsExtend.inserted husers rfl
  | rebind row phone email users hrow hlive hbound husers =>
    exact IdsExtend.of_updated (Table.update?_rows husers) fun _ => rfl
  | delete p userID now users hp husers =>
    exact IdsExtend.of_updated (Table.update?_rows husers) fun _ => rfl
  | restore id phone users hphone husers =>
    exact IdsExtend.of_updated (Table.update?_rows husers) fun _ => rfl
  | hardDelete id => exact absurd rfl (hsoft id)

/-- Only a hard deletion takes an account out of the table. -/
theorem exec_idsExtend (hinv : StoreInv env w) {op : Op} (hop : ∀ id, op ≠ .hardDeleteUser id) :
    IdsExtend w (exec env w op).1 := by
  have hperforms := exec_performs env w op
  generalize (exec env w op).1 = w', (exec env w op).2 = o at hperforms ⊢
  cases hperforms with
  | fails | waits => exact IdsExtend.of_same rfl
  | succeeds k w' o hk ho hchange =>
    refine hchange.idsExtend ?_
    rintro id rfl
    exact hop id (Op.effect_of hk)
  | logsIn id w' o hnone hlogs hlogin => exact hlogin.idsExtend (by simp)
  | registers v w' o hnone hcreate hlogin =>
    have hnew : IdsExtend w v := hcreate.idsExtend (by simp)
    rcases hlogin with ⟨n, -, rfl⟩ | hlogin
    · exact hnew
    · exact hnew.trans (hlogin.idsExtend (by simp))
  | cancellation => exact IdsExtend.of_updated rfl fun _ => rfl
  | codes w' o hcode hstep =>
    obtain ⟨rows, events, sequence, -, rfl⟩ := hstep
    exact IdsExtend.of_same rfl
  | reopens =>
    rw [openStore_of_inv hinv]
    exact IdsExtend.of_same rfl

theorem newest_ids_sorted (w : World) :
    ((newest w.db.users.rows).map UserRow.id).Pairwise (· > ·) := by
  have hall : w.db.users.rows.filter (fun _ => true) = w.db.users.rows :=
    List.filter_eq_self.mpr (by simp)
  have hsorted := newest_distinct w fun _ => true
  rw [hall] at hsorted
  rw [List.pairwise_map]
  exact hsorted

theorem newest_ids_perm (w : World) : ((newest w.db.users.rows).map UserRow.id).Perm w.accountIDs :=
  (List.perm_insertionSort _ _).map _

/-- New accounts come in front of all accounts listed before. -/
theorem IdsExtend.suffix (h : IdsExtend w w') :
    (newest w.db.users.rows).map UserRow.id <:+ (newest w'.db.users.rows).map UserRow.id := by
  obtain ⟨new, hids, hless⟩ := h
  have hperm := newest_ids_perm w'
  rw [hids] at hperm
  -- the ids in front are those of the new accounts, in falling order
  obtain ⟨front, hfront, hsorted⟩ : ∃ front : List ℕ, front.Perm new ∧ front.Pairwise (· > ·) := by
    have hnew : new.Sublist w'.accountIDs := hids ▸ List.sublist_append_right _ _
    have hnodup : new.Nodup := by
      have hsorted := newest_ids_sorted w'
      have hdistinct : ((newest w'.db.users.rows).map UserRow.id).Nodup :=
        hsorted.imp fun hab => (Nat.ne_of_lt hab).symm
      exact ((newest_ids_perm w').nodup_iff.mp hdistinct).sublist hnew
    refine ⟨new.insertionSort (· ≥ ·), List.perm_insertionSort _ _, ?_⟩
    have hweak := List.pairwise_insertionSort (r := fun a b : ℕ => a ≥ b) new
    have hstrict := hweak.and ((List.perm_insertionSort (· ≥ ·) new).nodup_iff.mpr hnodup)
    refine hstrict.imp ?_
    intro a b hab
    have hle : b ≤ a := hab.1
    have hne : a ≠ b := hab.2
    omega
  have hjoined : (front ++ (newest w.db.users.rows).map UserRow.id).Pairwise (· > ·) := by
    rw [List.pairwise_append]
    refine ⟨hsorted, newest_ids_sorted w, ?_⟩
    intro a ha b hb
    exact hless b ((newest_ids_perm w).mem_iff.mp hb) a (hfront.mem_iff.mp ha)
  refine ⟨front, ?_⟩
  refine List.Perm.eq_of_pairwise ?_ hjoined (newest_ids_sorted w') ?_
  · intro a b _ _ hab hba
    have hab : b < a := hab
    have hba : a < b := hba
    omega
  · exact ((hfront.append (newest_ids_perm w)).trans List.perm_append_comm).trans hperm.symm

theorem StoreRun.idsExtend {log : List Event} (hrun : StoreRun env w log w') (hinv : StoreInv env w)
    (hsoft : ∀ e ∈ log, ∀ id, e.op ≠ .hardDeleteUser id) : StoreInv env w' ∧ IdsExtend w w' := by
  have hlaw : StoreInv env w' ∧
      ((∀ e ∈ log, ∀ id, e.op ≠ .hardDeleteUser id) → IdsExtend w w') := by
    refine Run.history (P := fun log v => StoreInv env v ∧
      ((∀ e ∈ log, ∀ id, e.op ≠ .hardDeleteUser id) → IdsExtend w v)) ?_ hrun
      ⟨hinv, fun _ => IdsExtend.refl w⟩
    rintro before v e v' - ⟨hv, hextend⟩ hstep
    refine ⟨hv.step hstep, ?_⟩
    intro hsoft
    have hbefore : IdsExtend w v := hextend fun e he => hsoft e (List.mem_append_left _ he)
    have hthis := exec_idsExtend hv (hsoft e (by simp))
    rw [hstep.2] at hthis
    exact hbefore.trans hthis
  exact ⟨hlaw.1, hlaw.2 hsoft⟩

/-- A listing read page by page misses no account, whatever the store does between two pages
short of a hard deletion. -/
theorem listing_misses_no_account {k start : ℕ} {states : ℕ → World} {logs : ℕ → List Event}
    {before : List Event} {pages : ℕ → List AdminAccount} (hn : 0 < n) (hmax : n ≤ 200)
    (hquery : trimSpace query = "")
    (hbefore : StoreRun env (World.fresh env start) before (states 0))
    (hruns : ∀ i < k, StoreRun env (states i) (logs i) (states (i + 1)))
    (hsoft : ∀ i < k, ∀ e ∈ logs i, ∀ id, e.op ≠ .hardDeleteUser id)
    (hpages : ∀ i ≤ k, adminAccounts (states i) query n ((i * n : ℕ) : ℤ) = .ok (pages i))
    (hlast : (pages k).length < n) :
    ∀ r ∈ (states 0).db.users.rows, ∃ i ≤ k, ∃ r' ∈ (states i).db.users.rows, r'.id = r.id ∧
      r'.adminAccount (states i).now ∈ pages i := by
  have hinv : ∀ i ≤ k, StoreInv env (states i) := by
    intro i
    induction i with
    | zero => exact fun _ => StoreInv.run hbefore
    | succ i ih =>
      intro hi
      exact (StoreRun.idsExtend (hruns i hi) (ih (by omega)) (hsoft i hi)).1
  have hlist : ∀ i ≤ k, pages i =
      (page n i (newest (states i).db.users.rows)).map fun r => r.adminAccount (states i).now := by
    intro i hi
    have hpage := adminAccounts_page hn hmax (hpages i hi)
    have hall : (states i).db.users.rows.filter (UserRow.isFound (trimSpace query)) =
        (states i).db.users.rows := by
      refine List.filter_eq_self.mpr ?_
      intro r _
      simp [UserRow.isFound, hquery]
    rw [hall] at hpage
    exact hpage
  intro r hr
  have hfirst : r.id ∈ (newest (states 0).db.users.rows).map UserRow.id :=
    List.mem_map_of_mem (mem_newest.mpr hr)
  let ids (i : ℕ) : List ℕ := (newest (states i).db.users.rows).map UserRow.id
  have hgrow : ∀ i < k, ids i <:+ ids (i + 1) :=
    fun i hi => (StoreRun.idsExtend (hruns i hi) (hinv i (by omega)) (hsoft i hi)).2.suffix
  have hend : (page n k (ids k)).length < n := by
    rw [page_map, List.length_map]
    rw [hlist k (le_refl k), List.length_map] at hlast
    exact hlast
  obtain ⟨i, hi, hpage⟩ := mem_some_page hgrow hend hfirst
  rw [page_map] at hpage
  obtain ⟨r', hr', hid⟩ := List.mem_map.mp hpage
  refine ⟨i, hi, r', ?_, hid, ?_⟩
  · exact mem_newest.mp (List.mem_of_mem_drop (List.mem_of_mem_take hr'))
  · rw [hlist i hi]
    exact List.mem_map_of_mem hr'

end

/-- One account, and a second one that comes while the first page is read. -/
def worldListed : World :=
  (execAll .unary (World.fresh .unary 0) [.createAccount "13800000000" "" ""]).2

def worldGrown : World := (execAll .unary worldListed [.createAccount "13900000000" "" ""]).2

def pageFound (i : ℕ) : List AdminAccount :=
  (adminAccounts worldGrown " 138" 1 i).toOption.getD []

theorem first_account_found :
    (∀ i : ℕ, i ≤ 1 → adminAccounts worldGrown " 138" 1 i = .ok (pageFound i)) ∧
      ∃ a ∈ (List.range (1 + 1) : List ℕ).flatMap pageFound, a.id = 100000001 := by
  have hpages : ∀ i ≤ 1, adminAccounts worldGrown " 138" ((1 : ℕ) : ℤ) ((i * 1 : ℕ) : ℤ) =
      .ok (pageFound i) := by decide
  have hlaw := search_lists_each_account_once (n := 1) (k := 1) (by decide) (by decide)
    (by decide) (by decide) hpages (by decide)
  obtain ⟨r, hr, hid, hphone⟩ : ∃ r ∈ worldGrown.db.users.rows, r.id = 100000001 ∧
      r.phone = "13800000000" := by decide
  refine ⟨by decide, r.adminAccount worldGrown.now, (hlaw.2 _).mpr ⟨r, hr, rfl, Or.inl ?_⟩, hid⟩
  rw [hphone]
  exact ⟨[], "00000000".toList, by decide⟩

def worldAt (i : ℕ) : World := if i = 0 then worldListed else worldGrown

def pageAt (i : ℕ) : List AdminAccount := (adminAccounts (worldAt i) "" 1 i).toOption.getD []

theorem first_account_not_missed :
    ∃ i : ℕ, i ≤ 2 ∧ ∃ a, adminAccounts (worldAt i) "" 1 i = .ok [a] ∧ a.id = 100000001 := by
  have hfirst := execAll_run .unary (World.fresh .unary 0) [.createAccount "13800000000" "" ""]
  have hsecond := execAll_run .unary worldListed [.createAccount "13900000000" "" ""]
  let log (i : ℕ) : List Event :=
    if i = 0 then (execAll .unary worldListed [.createAccount "13900000000" "" ""]).1 else []
  have hruns : ∀ i < 2, StoreRun .unary (worldAt i) (log i) (worldAt (i + 1)) := by
    intro i hi
    by_cases hzero : i = 0
    · subst hzero
      exact hsecond
    · simp only [log, worldAt, hzero, if_false, Nat.succ_ne_zero]
      exact Run.refl _
  have hsoft : ∀ i < 2, ∀ e ∈ log i, ∀ id, e.op ≠ .hardDeleteUser id := by
    intro i hi e he id
    have hcreates : ∀ i < 2, ∀ e ∈ log i, e.op = .createAccount "13900000000" "" "" := by decide
    rw [hcreates i hi e he]
    exact Op.noConfusion
  have hpages : ∀ i ≤ 2, adminAccounts (worldAt i) "" ((1 : ℕ) : ℤ) ((i * 1 : ℕ) : ℤ) =
      .ok (pageAt i) := by decide
  have hlaw := @listing_misses_no_account .unary "" 1 2 0 worldAt log _ pageAt (by decide)
    (by decide) (by decide) hfirst hruns hsoft hpages (by decide)
  obtain ⟨r, hr, hid⟩ : ∃ r ∈ worldListed.db.users.rows, r.id = 100000001 := by decide
  obtain ⟨i, hi, r', -, hid', hpage⟩ := hlaw r hr
  have hone : ∀ i : ℕ, i ≤ 2 → ∀ a ∈ pageAt i, adminAccounts (worldAt i) "" 1 i = .ok [a] := by
    decide
  exact ⟨i, hi, _, hone i hi _ hpage, hid'.trans hid⟩

end PapeSdk
