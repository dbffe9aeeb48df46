import PapeSdk.CancellationProgress

/-!
Whether passes of the finalizer reach every account. A pass lists a hundred
accounts and lists those again whose unbind fails, so a hundred of them at the
head of the list keep all others waiting. Where fewer come first, as many passes
as there are accounts due delete every account whose unbind succeeds.
-/

namespace PapeSdk

open KeyedTables Identifiers BatchedPasses

/-- Every account that was due and whose unbind succeeds was deleted in one of the passes; an
account whose unbind fails, and one that was due in no pass, stands as before. -/
structure Finalized (unbind : String → Except String Unit) (w : World) (times : List ℕ)
    (w' : World) : Prop where
  deleted : ∀ r ∈ w.db.users.rows, r.isDue w.now = true → r.failsUnbind unbind = false →
    ∃ t ∈ times, r.softDelete t ∈ w'.db.users.rows
  unchanged : ∀ r ∈ w.db.users.rows,
    (r.failsUnbind unbind = true ∨ ∀ t ∈ times, r.isDue t = false) →
      w'.db.accountRows r.id = w.db.accountRows r.id

/-- As many passes as there are accounts due, at any of the allowed times. -/
def PassesFinalize (unbind : String → Except String Unit) (w : World) (allowed : Set ℕ) : Prop :=
  ∀ times : List ℕ, times.length = w.db.users.affected (UserRow.isDue w.now) →
    (∀ t ∈ times, t ∈ allowed) → Finalized unbind w times (finalizePasses unbind w times)

/-- The times at which the same accounts are due as now. -/
def World.sameDue (w : World) : Set ℕ :=
  {t | ∀ r ∈ w.db.users.rows, r.isDue t = r.isDue w.now}

/-- How many due accounts whose unbind fails come before an account. -/
def World.stuckAhead (w : World) (unbind : String → Except String Unit) (r : UserRow) : ℕ :=
  w.db.users.rows.countP fun a =>
    a.isDue w.now && a.failsUnbind unbind && !decide (dueBefore r a)

/-- Fewer than a hundred such accounts come before any that is due and whose unbind succeeds. -/
def FewStuck (unbind : String → Except String Unit) (w : World) : Prop :=
  ∀ r ∈ w.db.users.rows, r.isDue w.now = true → r.failsUnbind unbind = false →
    w.stuckAhead unbind r < 100

/-- From now on nobody else holds a text that marks a due account as deleted. -/
def World.MarksFree (w : World) : Prop :=
  ∀ r ∈ w.db.users.rows, r.isDue w.now = true → ∀ a ∈ w.db.users.rows, ∀ t, w.now ≤ t →
    a.phone ≠ markDeleted r.phone t

/-- No due account whose unbind succeeds stands in a set that is held. -/
def NoneHeld (unbind : String → Except String Unit) (w : World) : Prop :=
  ∀ t ∈ w.sameDue, ∀ set : UserRow → Bool, (cancellationLine unbind w).Held t set →
    ∀ r ∈ w.db.users.rows, (r.isDue w.now && !r.failsUnbind unbind) = true → set r = false

section
variable {unbind : String → Except String Unit} {w : World}

theorem served_of_softDeleted {served : UserRow → Option ℕ} {w' : World} {r : UserRow} {t : ℕ}
    (h : Settled w served w') (hr : r ∈ w.db.users.rows) (hlive : r.deletedAt = none)
    (hdeleted : r.softDelete t ∈ w'.db.users.rows) : ∃ j, served r = some j := by
  cases hserved : served r with
  | some j => exact ⟨j, rfl⟩
  | none =>
    have hrow := h.mem_waiting hr hserved
    have hsame : r = r.softDelete t := w'.db.user_eq_of_id hrow hdeleted rfl
    rw [hsame] at hlive
    cases hlive

/-- Accounts whose unbind fails and accounts that are never due are never served. -/
theorem never_served (times : List ℕ) {r : UserRow} (hr : r ∈ w.db.users.rows)
    (h : r.failsUnbind unbind = true ∨ ∀ t ∈ times, r.isDue t = false) :
    (cancellationLine unbind w).passes (fun _ => none) times r = none := by
  have hheld : ∀ t ∈ times, (cancellationLine unbind w).Held t fun a =>
      a.failsUnbind unbind || times.all fun t => !a.isDue t := by
    intro t ht a ha hset hdue
    have hdue : a.isDue t = true := hdue
    have hfails : a.failsUnbind unbind = true := by
      rw [Bool.or_eq_true, List.all_eq_true] at hset
      refine hset.resolve_right fun hnever => ?_
      have hfalse := hnever t ht
      rw [hdue] at hfalse
      cases hfalse
    right
    rw [cancellationLine_refused, hfails, Bool.true_or]
  refine Line.passes_held hheld (fun _ _ _ => rfl) r hr ?_
  rw [Bool.or_eq_true, List.all_eq_true]
  refine h.imp id fun hnever t ht => ?_
  rw [hnever t ht, Bool.not_false]

/-- The accounts are finalized when the passes serve all that they ought to. -/
theorem finalized_iff (times : List ℕ) :
    Finalized unbind w times (finalizePasses unbind w times) ↔
      ∀ r ∈ w.db.users.rows, (r.isDue w.now && !r.failsUnbind unbind) = true →
        ∃ j, (cancellationLine unbind w).passes (fun _ => none) times r = some j := by
  have hsettled := (Settled.start w).passes unbind times
  constructor
  · intro h r hr hwanted
    rw [Bool.and_eq_true, Bool.not_eq_true'] at hwanted
    obtain ⟨t, -, hdeleted⟩ := h.deleted r hr hwanted.1 hwanted.2
    exact served_of_softDeleted hsettled hr (UserRow.isDue_iff.mp hwanted.1).2.2 hdeleted
  · intro h
    refine ⟨fun r hr hdue hfails => ?_, fun r hr hnever => ?_⟩
    · obtain ⟨j, hj⟩ := h r hr (by rw [hdue, hfails, Bool.not_false, Bool.and_true])
      have hrow := hsettled.mem_row hr
      rw [settle_served hj] at hrow
      refine ⟨j, ?_, hrow⟩
      rcases (cancellationLine unbind w).passes_new (fun _ => none) r times with
        hsame | ⟨t, ht, hnew⟩
      · rw [hj] at hsame
        cases hsame
      · rw [hj] at hnew
        cases hnew
        exact ht
    · refine hsettled.others r.id fun a ha hid => ?_
      rw [w.db.user_eq_of_id ha hr hid]
      exact never_served times hr hnever

theorem countP_wanted_le :
    w.db.users.rows.countP (fun r => r.isDue w.now && !r.failsUnbind unbind) ≤
      w.db.users.affected (UserRow.isDue w.now) := countP_and_le w.db.users.rows _ _

/-- A hundred accounts whose unbind fails hold up whoever comes after them. -/
theorem held_of_stuck (unbind : String → Except String Unit) (w : World) :
    (cancellationLine unbind w).Held w.now fun r => r.failsUnbind unbind ||
      decide (100 ≤ w.stuckAhead unbind r) := by
  intro r hr hset hdue
  rw [Bool.or_eq_true, decide_eq_true_eq] at hset
  rcases hset with hfails | hmany
  · right
    rw [cancellationLine_refused, hfails, Bool.true_or]
  · left
    rw [cancellationLine_ahead]
    refine le_trans hmany (List.countP_mono_left fun a _ ha => ?_)
    simp only [Bool.and_eq_true] at ha ⊢
    exact ⟨⟨ha.1.1, by rw [ha.1.2, Bool.true_or]⟩, ha.2⟩

/-- So many passes at one time leave such an account waiting. -/
theorem waits_behind_stuck {r : UserRow} (hr : r ∈ w.db.users.rows)
    (hmany : 100 ≤ w.stuckAhead unbind r) (n : ℕ) :
    (cancellationLine unbind w).passes (fun _ => none) (List.replicate n w.now) r = none := by
  have hheld : ∀ t ∈ List.replicate n w.now, (cancellationLine unbind w).Held t fun a =>
      a.failsUnbind unbind || decide (100 ≤ w.stuckAhead unbind a) := by
    intro t ht
    rw [List.eq_of_mem_replicate ht]
    exact held_of_stuck unbind w
  refine Line.passes_held hheld (fun _ _ _ => rfl) r hr ?_
  rw [Bool.or_eq_true, decide_eq_true_eq]
  exact Or.inr hmany

theorem fewStuck_of_passesFinalize {allowed : Set ℕ} (hnow : w.now ∈ allowed)
    (h : PassesFinalize unbind w allowed) : FewStuck unbind w := by
  intro r hr hdue hfails
  by_contra hmany
  rw [not_lt] at hmany
  have hfinal := h (List.replicate _ w.now) List.length_replicate
    (fun t ht => by rwa [List.eq_of_mem_replicate ht])
  obtain ⟨j, hj⟩ := (finalized_iff _).mp hfinal r hr
    (by rw [hdue, hfails, Bool.not_false, Bool.and_true])
  rw [waits_behind_stuck hr hmany] at hj
  cases hj

theorem passesFinalize_of_fewStuck (hfree : w.MarksFree) (h : FewStuck unbind w) :
    PassesFinalize unbind w {t | w.now ≤ t} := by
  intro times hlength htimes
  apply (finalized_iff times).mpr
  have hlater : ∀ {a : UserRow} {t : ℕ}, w.now ≤ t → a.isDue w.now = true →
      a.isDue t = true := by
    intro a t ht hdue
    obtain ⟨hstatus, ⟨deadline, hat, hle⟩, hlive⟩ := UserRow.isDue_iff.mp hdue
    exact UserRow.isDue_iff.mpr ⟨hstatus, ⟨deadline, hat, le_trans hle ht⟩, hlive⟩
  refine Line.passes_all_of_few (l := cancellationLine unbind w) (fun t ht a ha hwanted => ?_)
    (fun t ht a ha hwanted set => ?_) (fun t ht a ha hwanted => ?_) ?_
  · rw [Bool.and_eq_true] at hwanted
    exact hlater (htimes t ht) hwanted.1
  · rw [Bool.and_eq_true, Bool.not_eq_true'] at hwanted
    have hnot : w.markTaken t set a = false := by
      by_contra htaken
      rw [Bool.not_eq_false] at htaken
      obtain ⟨b, hb, -, hphone⟩ := World.markTaken_iff.mp htaken
      exact hfree a ha hwanted.1 b hb t (htimes t ht) hphone
    rw [cancellationLine_refused, hwanted.2, hnot, Bool.or_false]
  · rw [Bool.and_eq_true, Bool.not_eq_true'] at hwanted
    rw [cancellationLine_ahead]
    refine lt_of_le_of_lt (List.countP_mono_left fun b hb hcounted => ?_)
      (h a ha hwanted.1 hwanted.2)
    simp only [Bool.and_eq_true, Bool.not_eq_true', Bool.and_eq_false_iff,
      Bool.not_eq_false', decide_eq_false_iff_not] at hcounted ⊢
    obtain ⟨⟨hdue, hset⟩, hahead⟩ := hcounted
    -- a row ahead of one that is due now is due now as well
    have hnow : b.isDue w.now = true := by
      obtain ⟨-, ⟨deadline, hat, hle⟩, -⟩ := UserRow.isDue_iff.mp hwanted.1
      obtain ⟨hstatus, ⟨deadline', hat', -⟩, hlive⟩ := UserRow.isDue_iff.mp hdue
      refine UserRow.isDue_iff.mpr ⟨hstatus, ⟨deadline', hat', ?_⟩, hlive⟩
      have hearlier := (dueBefore_total a b).resolve_left hahead
      unfold dueBefore at hearlier
      rw [hat, hat', Option.getD_some, Option.getD_some] at hearlier
      omega
    refine ⟨⟨hnow, ?_⟩, hahead⟩
    rw [hnow] at hset
    exact hset.resolve_left (by simp)
  · rw [hlength]
    exact countP_wanted_le

/-- As many passes as there are accounts due finalize the accounts, whenever they start,
exactly when no account is held up; where the marks are free, exactly when fewer than a
hundred accounts whose unbind fails come before any other. -/
theorem due_accounts_finalized_iff (unbind : String → Except String Unit) (w : World) :
    (PassesFinalize unbind w w.sameDue ↔ NoneHeld unbind w) ∧
      (w.MarksFree → (PassesFinalize unbind w {t | w.now ≤ t} ↔ FewStuck unbind w)) := by
  refine ⟨?_, fun hfree => ⟨fewStuck_of_passesFinalize (by simp),
    passesFinalize_of_fewStuck hfree⟩⟩
  have hwanted : ∀ t ∈ w.sameDue, ∀ a ∈ w.db.users.rows, ∀ set : UserRow → Bool,
      (cancellationLine unbind w).due t a = true →
      (cancellationLine unbind w).refused t set a = false →
      (a.isDue w.now && !a.failsUnbind unbind) = true := by
    intro t ht a ha set hdue hpassed
    have hdue : a.isDue t = true := hdue
    rw [cancellationLine_refused, Bool.or_eq_false_iff] at hpassed
    rw [← ht a ha, hdue, hpassed.1, Bool.not_false, Bool.and_self]
  have hline := Line.passes_all_iff (l := cancellationLine unbind w) hwanted countP_wanted_le
  refine Iff.trans ?_ hline
  constructor
  · intro h times hlength htimes
    exact (finalized_iff times).mp (h times hlength htimes)
  · intro h times hlength htimes
    exact (finalized_iff times).mpr (h times hlength htimes)

end

def dueRow (i : ℕ) : UserRow where
  id := firstUserID + i
  phone := toString (13800000000 + i)
  cancellationStatus := 2
  cancellationAt := some 1
  createdAt := 0
  lastLoginAt := 0

theorem mem_userKeys_dueRow {i : ℕ} {k : UserKey} (h : k ∈ userKeys (dueRow i)) :
    k = .id (firstUserID + i) ∨ k = .phone (toString (13800000000 + i)) := by
  simpa [mem_userKeys, dueRow] using h

theorem dueRow_apart {i j : ℕ} (hlt : i < j) : Apart userKeys (dueRow i) (dueRow j) := by
  intro k hi hj
  rcases mem_userKeys_dueRow hi with rfl | rfl
  · rcases mem_userKeys_dueRow hj with hid | hphone
    · have hsame := UserKey.id.inj hid
      omega
    · cases hphone
  · rcases mem_userKeys_dueRow hj with hid | hphone
    · cases hid
    · have hsame := toString_injective (UserKey.phone.inj hphone)
      omega

/-- A store with `n` accounts, all of them due. -/
def dueWorld (n : ℕ) : World where
  db := { Db.blank with
    users := ⟨(List.range n).map dueRow,
      List.pairwise_map.mpr (List.pairwise_lt_range.imp dueRow_apart)⟩
    userSequence := some (firstUserID + n) }
  now := 1
  draws := 0

/-- The unbind succeeds for one account only. -/
def unbindsOnly (i : ℕ) (openID : String) : Except String Unit :=
  if openID = toString (firstUserID + i) then .ok () else .error "503 Service Unavailable"

theorem dueWorld_marksFree (n : ℕ) : (dueWorld n).MarksFree := by
  intro r hr hdue a ha t ht hphone
  obtain ⟨i, -, rfl⟩ := List.mem_map.mp ha
  apply hash_not_mem_toString (13800000000 + i)
  have hmark := hash_mem_markDeleted r.phone t
  rwa [← hphone] at hmark

/-- Of two accounts one cannot be unbound; the other is deleted. -/
theorem second_account_finalized : FewStuck (unbindsOnly 1) (dueWorld 2) ∧
    Finalized (unbindsOnly 1) (dueWorld 2) [1, 61]
      (finalizePasses (unbindsOnly 1) (dueWorld 2) [1, 61]) := by
  have hfew : FewStuck (unbindsOnly 1) (dueWorld 2) := by
    intro r hr hdue hfails
    refine lt_of_le_of_lt List.countP_le_length ?_
    show 2 < 100
    omega
  refine ⟨hfew, ?_⟩
  refine ((due_accounts_finalized_iff _ _).2 (dueWorld_marksFree 2)).mpr hfew [1, 61] rfl ?_
  intro t ht
  have hcases : t = 1 ∨ t = 61 := by simpa using ht
  show 1 ≤ t
  omega

/-- A hundred accounts that cannot be unbound come first, and the last one waits for ever. -/
theorem last_account_starves : ¬ PassesFinalize (unbindsOnly 100) (dueWorld 101)
      (dueWorld 101).sameDue ∧
    ¬ PassesFinalize (unbindsOnly 100) (dueWorld 101) {t | (dueWorld 101).now ≤ t} ∧
    ∀ n, dueRow 100 ∈ (finalizePasses (unbindsOnly 100) (dueWorld 101)
      (List.replicate n 1)).db.users.rows := by
  have hr : dueRow 100 ∈ (dueWorld 101).db.users.rows :=
    List.mem_map_of_mem (List.mem_range.mpr (by omega))
  have hmany : 100 ≤ (dueWorld 101).stuckAhead (unbindsOnly 100) (dueRow 100) := by
    decide +kernel
  have hnot : ¬ FewStuck (unbindsOnly 100) (dueWorld 101) := by
    intro hfew
    have hless := hfew (dueRow 100) hr (by decide) (by decide +kernel)
    omega
  have hsame : (dueWorld 101).now ∈ (dueWorld 101).sameDue := fun _ _ => rfl
  refine ⟨fun h => hnot (fewStuck_of_passesFinalize hsame h),
    fun h => hnot (fewStuck_of_passesFinalize (by simp) h), fun n => ?_⟩
  have hsettled := (Settled.start (dueWorld 101)).passes (unbindsOnly 100) (List.replicate n 1)
  exact hsettled.mem_waiting hr (waits_behind_stuck hr hmany n)

end PapeSdk
