import PapeSdk.BatchedPasses
import PapeSdk.DeletedAccounts
import PapeSdk.DeletionSafety
import PapeSdk.JoinedPairs

/-!
Passes of `finalizeDueCancellations` with nothing else in between. What the
passes have deleted is what the passes of a line serve: the users in the order
of their deadlines, a hundred to a pass, an account turned away when its unbind
fails or when another row still holds the text that marks it as deleted.
-/

namespace PapeSdk

open KeyedTables Identifiers BatchedPasses

/-- The loop of `finalizeDueCancellations`; `unbind` is what `UnbindRoles` returns for an
open id. -/
def finalizeItems (unbind : String → Except String Unit) (now : ℕ) (w : World)
    (items : List DueCancellation) : World :=
  items.foldl (fun w' item =>
    ((DeletionKind.finalizer now).finish w' item.userID (unbind item.openID)).1) w

def finalizeDueCancellations (unbind : String → Except String Unit) (w : World) : World :=
  finalizeItems unbind w.now w (dueCancellations w w.now 100)

/-- Passes that start at the given times. -/
def finalizePasses (unbind : String → Except String Unit) (w : World) (times : List ℕ) : World :=
  times.foldl (fun w' now => finalizeDueCancellations unbind { w' with now := now }) w

/-- The unbind of the account fails. -/
def UserRow.failsUnbind (unbind : String → Except String Unit) (r : UserRow) : Bool :=
  match unbind (toString r.id) with
  | .error _ => true
  | .ok () => false

section
variable {unbind : String → Except String Unit} {w w' : World} {r : UserRow} {t : ℕ}

theorem dueBefore_total (a b : UserRow) : dueBefore a b ∨ dueBefore b a := by
  unfold dueBefore
  omega

theorem dueBefore_trans (a b c : UserRow) (hab : dueBefore a b) (hbc : dueBefore b c) :
    dueBefore a c := by
  unfold dueBefore at hab hbc ⊢
  omega

theorem id_eq_of_dueBefore {a b : UserRow} (hab : dueBefore a b) (hba : dueBefore b a) :
    a.id = b.id := by
  unfold dueBefore at hab hba
  omega

theorem Db.users_nodup (db : Db) : db.users.rows.Nodup := by
  refine db.users.apart.imp ?_
  intro a b hapart heq
  exact hapart (.id a.id) (by simp [userKeys]) (by simp [userKeys, heq])

/-- Another row that is still to be served holds the text that would mark `r` as deleted. -/
def World.markTaken (w : World) (now : ℕ) (waits : UserRow → Bool) (r : UserRow) : Bool :=
  w.db.users.rows.any fun a => waits a && a.phone == markDeleted r.phone now

theorem World.markTaken_iff {waits : UserRow → Bool} :
    w.markTaken t waits r = true ↔
      ∃ a ∈ w.db.users.rows, waits a = true ∧ a.phone = markDeleted r.phone t := by
  simp [markTaken, List.any_eq_true]

/-- The users as the passes call them. -/
def cancellationLine (unbind : String → Except String Unit) (w : World) : Line UserRow ℕ where
  rows := w.db.users.rows
  nodup := w.db.users_nodup
  before := dueBefore
  decidable := inferInstance
  total := dueBefore_total
  trans := dueBefore_trans
  antisymm a ha b hb hab hba := w.db.user_eq_of_id ha hb (id_eq_of_dueBefore hab hba)
  due now r := r.isDue now
  refused now waits r := r.failsUnbind unbind || w.markTaken now waits r
  refused_mono hsub hrefused := by
    rw [Bool.or_eq_true, World.markTaken_iff] at hrefused ⊢
    rcases hrefused with hfails | ⟨a, ha, hwaits, hphone⟩
    · exact Or.inl hfails
    · exact Or.inr ⟨a, ha, hsub a ha hwaits, hphone⟩
  room := 100

theorem cancellationLine_refused (waits : UserRow → Bool) :
    (cancellationLine unbind w).refused t waits r =
      (r.failsUnbind unbind || w.markTaken t waits r) := rfl

theorem cancellationLine_ahead (set : UserRow → Bool) :
    (cancellationLine unbind w).ahead t set r =
      w.db.users.rows.countP fun a => a.isDue t && set a && !decide (dueBefore r a) := rfl

theorem hash_not_mem_toString (n : ℕ) : '#' ∉ (toString n).toList := by
  intro h
  rw [Nat.toString_eq_ofList_toDigits, String.toList_ofList] at h
  have hdigit := Nat.isDigit_of_mem_toDigits (by omega) (by omega) h
  exact absurd hdigit (by decide)

/-- Two identifiers never get the same mark. -/
theorem phone_eq_of_markDeleted {p q : String} {s t : ℕ}
    (h : markDeleted p s = markDeleted q t) : p = q := by
  have hlist := congrArg (fun text => text.toList.reverse) h
  have hcut : ∀ (text : String) (n : ℕ), (markDeleted text n).toList.reverse =
      (toString n).toList.reverse ++ '#' :: ("#deleted".toList.reverse ++ text.toList.reverse) := by
    intro text n
    rw [markDeleted_toList, List.reverse_append, List.reverse_append]
    rfl
  simp only [hcut] at hlist
  have hdigits : ∀ n : ℕ, '#' ∉ (toString n).toList.reverse := by
    intro n hn
    exact hash_not_mem_toString n (List.mem_reverse.mp hn)
  have hrest := (JoinedPairs.cut_unique (hdigits s) (hdigits t) hlist).2
  have hphones := List.append_cancel_left hrest
  exact String.toList_injective (List.reverse_injective hphones)

theorem markDeleted_ne (p : String) (t : ℕ) : p ≠ markDeleted p t := by
  intro h
  have hlength := congrArg (fun text => text.toList.length) h
  simp only [markDeleted_toList, List.length_append] at hlength
  have hmark : deletedMark.toList.length = 9 := rfl
  omega

theorem completeCancellation_none {id : ℕ}
    (h : ∀ a ∈ w.db.users.rows, a.id = id → a.isDue t = false) :
    (completeCancellation w id t).1 = w := by
  unfold completeCancellation
  dsimp only
  split
  · rfl
  next users husers =>
  have hzero : w.db.users.affected (fun a => a.id == id && a.isDue t) = 0 := by
    apply Table.affected_eq_zero.mpr
    intro a ha hmatch
    rw [Bool.and_eq_true, beq_iff_eq] at hmatch
    rw [h a ha hmatch.1] at hmatch
    exact Bool.false_ne_true hmatch.2
  rw [if_pos hzero]

/-- The write fails when another row holds the mark already. -/
theorem completeCancellation_taken {a : UserRow} (hr : r ∈ w.db.users.rows)
    (hdue : r.isDue t = true) (ha : a ∈ w.db.users.rows)
    (hphone : a.phone = markDeleted r.phone t) :
    (completeCancellation w r.id t).1 = w := by
  have hne : a.id ≠ r.id := by
    intro hid
    rw [w.db.user_eq_of_id ha hr hid] at hphone
    exact markDeleted_ne r.phone t hphone
  unfold completeCancellation
  dsimp only
  split
  · rfl
  next users husers =>
  have hrow : r.softDelete t ∈ users.rows := by
    refine (Table.mem_update? husers).mpr ⟨r, hr, ?_⟩
    simp [hdue]
  have hother : a ∈ users.rows := by
    refine (Table.mem_update? husers).mpr ⟨a, ha, ?_⟩
    simp [hne]
  have hsame : a = r.softDelete t :=
    users.eq_of_key (k := .phone a.phone) hother hrow (by simp [userKeys])
      (by simp [userKeys, UserRow.softDelete, hphone])
  rw [hsame] at hne
  exact absurd rfl hne

/-- Otherwise it deletes the account. -/
theorem completeCancellation_free (hr : r ∈ w.db.users.rows) (hdue : r.isDue t = true)
    (hfree : ∀ a ∈ w.db.users.rows, a ≠ r → a.phone ≠ markDeleted r.phone t) :
    (completeCancellation w r.id t).1.db.users.rows =
      w.db.users.rows.map fun a => if a.id == r.id && a.isDue t then a.softDelete t else a := by
  have hunique : ∀ a ∈ w.db.users.rows, (a.id == r.id && a.isDue t) = true → a = r := by
    intro a ha hmatch
    rw [Bool.and_eq_true, beq_iff_eq] at hmatch
    exact w.db.user_eq_of_id ha hr hmatch.1
  have hkey : UserKey.id r.id ∈ userKeys r := by simp [userKeys]
  have hmatch : (r.id == r.id && r.isDue t) = true := by simp [hdue]
  obtain ⟨users, husers⟩ : ∃ users, w.db.users.update? (fun a => a.id == r.id && a.isDue t)
      (fun a => a.softDelete t) = some users := by
    refine Table.update?_some hkey hunique fun a ha hpa => ?_
    have hne : a ≠ r := by
      intro heq
      rw [heq, hmatch] at hpa
      cases hpa
    apply Apart.symm
    intro k hk hka
    have hk : k = .id r.id ∨ k = .phone (markDeleted r.phone t) := by
      simpa [userKeys, emailKeys, UserRow.softDelete] using hk
    rcases hk with rfl | rfl
    · exact hne (w.db.users.eq_of_key ha hr hka hkey)
    · have hphone : markDeleted r.phone t = a.phone := by simpa [mem_userKeys] using hka
      exact hfree a ha hne hphone.symm
  unfold completeCancellation
  dsimp only
  rw [husers]
  have hone := Table.affected_eq_one hr hkey hmatch hunique
  dsimp only
  rw [if_neg (by omega)]
  exact Table.update?_rows husers

/-- What the finalizer does with an account once its unbind has returned. -/
theorem finish_finalizer (r : UserRow) (t : ℕ) :
    ((DeletionKind.finalizer t).finish w r.id (unbind (toString r.id))).1 =
      if r.failsUnbind unbind then w else (completeCancellation w r.id t).1 := by
  unfold DeletionKind.finish UserRow.failsUnbind
  cases unbind (toString r.id) with
  | error e => rfl
  | ok =>
    dsimp only
    rw [if_neg Bool.false_ne_true]
    split
    · next heq => rw [heq]
    · next heq => rw [heq]

/-- The row as the passes that served it have left it. -/
def settle (served : UserRow → Option ℕ) (r : UserRow) : UserRow :=
  match served r with
  | none => r
  | some now => r.softDelete now

theorem settle_waiting {served : UserRow → Option ℕ} (h : served r = none) :
    settle served r = r := by
  rw [settle, h]

theorem settle_served {served : UserRow → Option ℕ} (h : served r = some t) :
    settle served r = r.softDelete t := by
  rw [settle, h]

theorem settle_id (served : UserRow → Option ℕ) (r : UserRow) : (settle served r).id = r.id := by
  unfold settle
  split
  · rfl
  · rfl

theorem settle_isDue {served : UserRow → Option ℕ} :
    (settle served r).isDue t = (r.isDue t && waits served r) := by
  cases h : served r with
  | none => rw [settle_waiting h, waits_iff.mpr h, Bool.and_true]
  | some now =>
    have hfalse : waits served r = false := by simp [waits, h]
    rw [settle_served h, hfalse, Bool.and_false]
    simp [UserRow.isDue, UserRow.softDelete]

/-- `w'` is `w` with the rows deleted that have been served, and no other account touched. -/
structure Settled (w : World) (served : UserRow → Option ℕ) (w' : World) : Prop where
  rows : w'.db.users.rows = w.db.users.rows.map (settle served)
  others : ∀ id, (∀ r ∈ w.db.users.rows, r.id = id → served r = none) →
    w'.db.accountRows id = w.db.accountRows id

section
variable {served : UserRow → Option ℕ}

theorem Settled.start (w : World) : Settled w (fun _ => none) w where
  rows := (List.map_id _).symm
  others _ _ := rfl

theorem Settled.mem_row (h : Settled w served w') (hr : r ∈ w.db.users.rows) :
    settle served r ∈ w'.db.users.rows := by
  rw [h.rows]
  exact List.mem_map_of_mem hr

theorem Settled.mem_waiting (h : Settled w served w') (hr : r ∈ w.db.users.rows)
    (hwaits : served r = none) : r ∈ w'.db.users.rows := by
  have hrow := h.mem_row hr
  rwa [settle_waiting hwaits] at hrow

/-- Only a row that waits can hold a mark that a pass is about to write. -/
theorem Settled.phone_ne (h : Settled w served w') (hr : r ∈ w.db.users.rows)
    (hwaits : served r = none) (hfree : w.markTaken t (waits served) r = false) :
    ∀ a ∈ w'.db.users.rows, a ≠ r → a.phone ≠ markDeleted r.phone t := by
  intro a ha hne hphone
  rw [h.rows] at ha
  obtain ⟨b, hb, rfl⟩ := List.mem_map.mp ha
  cases hserved : served b with
  | none =>
    rw [settle_waiting hserved] at hphone
    have htaken := World.markTaken_iff.mpr ⟨b, hb, waits_iff.mpr hserved, hphone⟩
    rw [hfree] at htaken
    cases htaken
  | some now =>
    rw [settle_served hserved] at hphone
    have hbr : b = r := w.db.user_eq_of_phone hb hr (phone_eq_of_markDeleted hphone)
    rw [hbr, hwaits] at hserved
    cases hserved

/-- The write for a row that waits and whose mark is free. -/
theorem Settled.delete (h : Settled w served w') (hr : r ∈ w.db.users.rows)
    (hdue : r.isDue t = true) (hwaits : served r = none)
    (hfree : w.markTaken t (waits served) r = false) :
    Settled w (Function.update served r (some t)) (completeCancellation w' r.id t).1 := by
  refine ⟨?_, fun id hid => ?_⟩
  · have hrow := h.mem_waiting hr hwaits
    rw [completeCancellation_free hrow hdue (h.phone_ne hr hwaits hfree), h.rows, List.map_map]
    refine List.map_congr_left fun a ha => ?_
    rw [Function.comp_apply, settle_id, settle_isDue]
    by_cases har : a = r
    · subst har
      rw [settle_served (Function.update_self ..), settle_waiting hwaits]
      simp [hdue, waits_iff.mpr hwaits]
    · have hne : a.id ≠ r.id := fun hid => har (w.db.user_eq_of_id ha hr hid)
      have hsame : settle (Function.update served r (some t)) a = settle served a := by
        unfold settle
        rw [Function.update_of_ne har]
      rw [hsame, if_neg (by simp [hne])]
  · have hne : id ≠ r.id := by
      intro heq
      have hnone := hid r hr heq.symm
      rw [Function.update_self] at hnone
      cases hnone
    rw [completeCancellation_others w' t hne]
    refine h.others id fun a ha haid => ?_
    have har : a ≠ r := by
      intro heq
      exact hne (by rw [← haid, heq])
    rw [← Function.update_of_ne har (some t) served]
    exact hid a ha haid

/-- What a pass does with one item of its batch. -/
theorem Settled.finish (h : Settled w served w') (hr : r ∈ w.db.users.rows)
    (hdue : r.isDue t = true) :
    Settled w ((cancellationLine unbind w).serve t served r)
      ((DeletionKind.finalizer t).finish w' r.id (unbind (toString r.id))).1 := by
  rw [finish_finalizer]
  unfold Line.serve
  rw [cancellationLine_refused]
  by_cases hfails : r.failsUnbind unbind = true
  · rw [if_pos hfails, hfails, if_neg (by simp)]
    exact h
  rw [if_neg hfails]
  rw [Bool.not_eq_true] at hfails
  rw [hfails, Bool.false_or]
  by_cases hwaiting : waits served r = true
  · have hwaits := waits_iff.mp hwaiting
    have hrow := h.mem_waiting hr hwaits
    rw [hwaiting, Bool.true_and]
    cases htaken : w.markTaken t (waits served) r with
    | true =>
      obtain ⟨a, ha, hawaits, hphone⟩ := World.markTaken_iff.mp htaken
      have ha := h.mem_waiting ha (waits_iff.mp hawaits)
      rw [completeCancellation_taken hrow hdue ha hphone, if_neg (by simp)]
      exact h
    | false =>
      rw [if_pos (by simp)]
      exact h.delete hr hdue hwaits htaken
  · rw [Bool.not_eq_true] at hwaiting
    have hsame : (completeCancellation w' r.id t).1 = w' := by
      refine completeCancellation_none fun a ha hid => ?_
      rw [h.rows] at ha
      obtain ⟨b, hb, rfl⟩ := List.mem_map.mp ha
      rw [settle_id] at hid
      rw [w.db.user_eq_of_id hb hr hid, settle_isDue, hwaiting, Bool.and_false]
    rw [hsame, hwaiting, Bool.false_and, if_neg (by simp)]
    exact h

/-- The batch that a pass lists. -/
theorem Settled.dueCancellations (h : Settled w served w')
    (unbind : String → Except String Unit) :
    dueCancellations { w' with now := t } t 100 =
      ((cancellationLine unbind w).batch t served).map fun r => ⟨r.id, toString r.id⟩ := by
  have hdue : w'.db.users.rows.filter (UserRow.isDue t) =
      w.db.users.rows.filter fun r => r.isDue t && waits served r := by
    have hpick : (fun r => (settle served r).isDue t) =
        fun r => r.isDue t && waits served r := funext fun r => settle_isDue
    rw [h.rows, List.filter_map, Function.comp_def, hpick]
    refine (List.map_congr_left fun r hr => ?_).trans (List.map_id _)
    have hwaits := (Bool.and_eq_true_iff.mp (List.mem_filter.mp hr).2).2
    rw [settle_waiting (waits_iff.mp hwaits), id_eq]
  unfold PapeSdk.dueCancellations
  dsimp only
  rw [hdue]
  rfl

theorem Settled.items {items : List UserRow} (h : Settled w served w')
    (hitems : ∀ r ∈ items, r ∈ w.db.users.rows ∧ r.isDue t = true) :
    Settled w (items.foldl ((cancellationLine unbind w).serve t) served)
      (finalizeItems unbind t w' (items.map fun r => ⟨r.id, toString r.id⟩)) := by
  induction items generalizing served w' with
  | nil => exact h
  | cons r rest ih =>
    obtain ⟨hr, hdue⟩ := hitems r List.mem_cons_self
    exact ih (h.finish hr hdue) fun a ha => hitems a (List.mem_cons_of_mem _ ha)

/-- A pass of the finalizer serves what a pass of the line serves. -/
theorem Settled.pass (h : Settled w served w') (t : ℕ) :
    Settled w ((cancellationLine unbind w).pass served t)
      (finalizeDueCancellations unbind { w' with now := t }) := by
  unfold finalizeDueCancellations
  dsimp only
  rw [h.dueCancellations unbind]
  have hclock : Settled w served { w' with now := t } := ⟨h.rows, h.others⟩
  refine hclock.items fun r hr => ?_
  obtain ⟨hrow, hdue, -⟩ := Line.mem_batch.mp hr
  exact ⟨hrow, hdue⟩

theorem Settled.passes (h : Settled w served w') (unbind : String → Except String Unit)
    (times : List ℕ) : Settled w ((cancellationLine unbind w).passes served times)
      (finalizePasses unbind w' times) := by
  induction times generalizing served w' with
  | nil => exact h
  | cons t rest ih => exact ih (h.pass t)

end

/-- What `Pool.UnbindRoles` returns when every server gives its answer for the open id. -/
def Pool.unbindResult (pool : Pool) (answers : UInt32 → String → UnbindResponse) (openID : String) :
    Except String Unit :=
  pool.unbindRoles (pool.clients.map fun p => (p.1, p.2.unbindRoles (answers p.1 openID)))

/-- A step of deletion `k`; a server that is asked gives its answer for the open id. -/
def DeletionEvent.OfPass (k : ℕ) (answers : UInt32 → String → UnbindResponse)
    (e : DeletionEvent) : Prop :=
  e.label = .proceed k ∨ ∃ server openID call,
    e.label = .answer k server (answers server openID) ∧ e.effect = .returned openID call

/-- The results of the calls for an open id come from the answers to them. -/
def ResultsOf (pool : Pool) (answers : UInt32 → String → UnbindResponse) (openID : String)
    (results : UnbindResults) : Prop :=
  ∀ q ∈ results, ∃ c, (q.1, c) ∈ pool.clients ∧ q.2 = c.unbindRoles (answers q.1 openID)

/-- How far a pass has come that began with `w`. -/
def Deletion.Reached (pool : Pool) (answers : UInt32 → String → UnbindResponse) (w : World)
    (t : ℕ) (d : Deletion) (w' : World) : Prop :=
  d.kind = .finalizer t ∧
  match d.stage with
  | .starting => w' = w
  | .idle => ∃ done, done ++ d.todo = dueCancellations w t 100 ∧
      w' = finalizeItems (pool.unbindResult answers) t w done
  | .calling item results => ∃ done, done ++ item :: d.todo = dueCancellations w t 100 ∧
      w' = finalizeItems (pool.unbindResult answers) t w done ∧
        ResultsOf pool answers item.openID results

section
variable {pool : Pool} {answers : UInt32 → String → UnbindResponse}

theorem Pool.unbindRoles_eq_ok {results : UnbindResults} : pool.unbindRoles results = .ok () ↔
    pool.clients ≠ [] ∧ ∀ q ∈ results, ∃ n, q.2 = .ok n := by
  refine ⟨Pool.unbindRoles_ok, fun ⟨hne, hall⟩ => ?_⟩
  have hnone : results.filterMap unbindFailure = [] := by
    apply List.filterMap_eq_nil_iff.mpr
    intro q hq
    obtain ⟨n, hn⟩ := hall q hq
    obtain ⟨server, value⟩ := q
    have hn : value = .ok n := hn
    rw [hn]
    rfl
  unfold Pool.unbindRoles
  rw [if_neg hne]
  dsimp only
  rw [if_pos hnone]

/-- The order in which the answers arrive makes no difference. -/
theorem ResultsOf.unbindRoles_ok {openID : String} {results : UnbindResults}
    (h : ResultsOf pool answers openID results) (hall : pool.allReturned results = true) :
    pool.unbindRoles results = .ok () ↔ pool.unbindResult answers openID = .ok () := by
  rw [Pool.unbindResult, Pool.unbindRoles_eq_ok, Pool.unbindRoles_eq_ok]
  refine and_congr_right fun _ => ⟨fun hok p hp => ?_, fun hok q hq => ?_⟩
  · obtain ⟨client, hclient, rfl⟩ := List.mem_map.mp hp
    have hreturned := of_decide_eq_true (List.all_eq_true.mp hall client hclient)
    obtain ⟨q, hq, hserver⟩ := List.mem_map.mp hreturned
    obtain ⟨c, hc, hvalue⟩ := h q hq
    obtain ⟨n, hn⟩ := hok q hq
    refine ⟨n, ?_⟩
    have hsame : c = client.2 := by
      have hleft := pool.lookup_eq hc
      have hright : pool.clients.lookup client.1 = some client.2 := pool.lookup_eq hclient
      rw [hserver, hright] at hleft
      exact (Option.some.inj hleft).symm
    rw [← hn, hvalue, hserver, hsame]
  · obtain ⟨c, hc, hvalue⟩ := h q hq
    obtain ⟨n, hn⟩ := hok _ (List.mem_map.mpr ⟨(q.1, c), hc, rfl⟩)
    exact ⟨n, hvalue.trans hn⟩

theorem finish_congr {id : ℕ} {result result' : Except String Unit}
    (h : result = .ok () ↔ result' = .ok ()) :
    ((DeletionKind.finalizer t).finish w id result).1 =
      ((DeletionKind.finalizer t).finish w id result').1 := by
  cases result with
  | ok =>
    rw [h.mp rfl]
  | error e =>
    cases result' with
    | ok => exact absurd (h.mpr rfl) (by simp)
    | error e' => rfl

theorem finalizeItems_concat (w : World) (t : ℕ) (done : List DueCancellation)
    (item : DueCancellation) :
    finalizeItems unbind t w (done ++ [item]) =
      ((DeletionKind.finalizer t).finish (finalizeItems unbind t w done) item.userID
        (unbind item.openID)).1 := by
  unfold finalizeItems
  rw [List.foldl_append]
  rfl

theorem Deletion.Reached.proceed {d d' : Deletion} {w₀ v : World} {effect : DeletionEffect}
    (h : d.Reached pool answers w₀ t w) (hstep : d.proceed pool w = some (v, d', effect)) :
    d'.Reached pool answers w₀ t v := by
  obtain ⟨kind, todo, stage⟩ := d
  obtain ⟨hkind, h⟩ := h
  have hkind : kind = .finalizer t := hkind
  subst hkind
  cases stage with
  | starting =>
    cases hstep
    exact ⟨rfl, [], by rw [List.nil_append, show w = w₀ from h], h⟩
  | idle =>
    cases todo with
    | nil => cases hstep
    | cons item rest =>
      cases hstep
      obtain ⟨done, hitems, hworld⟩ := h
      exact ⟨rfl, done, hitems, hworld, fun q hq => (by cases hq)⟩
  | calling item results =>
    obtain ⟨done, hitems, hworld, hresults⟩ := h
    unfold Deletion.proceed at hstep
    dsimp only at hstep
    split at hstep
    · next hall =>
      cases hstep
      refine ⟨rfl, done ++ [item], ?_, ?_⟩
      · rw [List.append_assoc]
        exact hitems
      · rw [finalizeItems_concat, ← hworld]
        exact finish_congr (hresults.unbindRoles_ok hall)
    · cases hstep

theorem Deletion.Reached.answer {d d' : Deletion} {w₀ : World} {server : UInt32}
    {openID : String} {call : Option UnbindCall} (h : d.Reached pool answers w₀ t w)
    (hstep : d.answer pool server (answers server openID) =
      some (d', .returned openID call)) : d'.Reached pool answers w₀ t w := by
  obtain ⟨kind, todo, stage⟩ := d
  obtain ⟨hkind, h⟩ := h
  cases stage with
  | starting => cases hstep
  | idle => cases hstep
  | calling item results =>
    obtain ⟨done, hitems, hworld, hresults⟩ := h
    unfold Deletion.answer at hstep
    dsimp only at hstep
    split at hstep
    · next item' results' c hstage hlookup =>
      cases hstage
      split at hstep
      · cases hstep
      cases hstep
      refine ⟨hkind, done, hitems, hworld, fun q hq => ?_⟩
      rcases List.mem_append.mp hq with hq | hq
      · exact hresults q hq
      · rw [List.mem_singleton.mp hq]
        obtain ⟨before, after, hclients, -⟩ := List.lookup_eq_some_iff.mp hlookup
        exact ⟨c, by simp [hclients], rfl⟩
    · cases hstep

theorem Reached.run {env : Externals} {log : List DeletionEvent} {s s' : DeletionState}
    {w₀ : World} {k : ℕ} (hrun : DeletionRun env pool s log s')
    (hlog : ∀ e ∈ log, e.OfPass k answers)
    (h : ∃ d, s.deletions[k]? = some d ∧ d.Reached pool answers w₀ t s.world) :
    ∃ d, s'.deletions[k]? = some d ∧ d.Reached pool answers w₀ t s'.world := by
  induction hrun with
  | refl => exact h
  | tail hprev hstep ih =>
    next u s' log e =>
    obtain ⟨d, hd, hreached⟩ := ih fun e' he' => hlog e' (List.mem_append_left _ he')
    have hlt := (List.getElem?_eq_some_iff.mp hd).1
    have hof := hlog e (List.mem_append_right _ List.mem_cons_self)
    have hmove := hstep.move
    obtain ⟨label, effect⟩ := e
    rcases hof with hlabel | ⟨server, openID, call, hlabel, heffect⟩
    · dsimp only at hlabel hmove
      subst hlabel
      cases hmove with
      | proceed _ d₁ d' v _ hd₁ hproceed =>
        rw [hd] at hd₁
        cases hd₁
        exact ⟨d', List.getElem?_set_self hlt, hreached.proceed hproceed⟩
    · dsimp only at hlabel heffect hmove
      subst hlabel heffect
      cases hmove with
      | answer _ _ _ d₁ d' _ hd₁ hanswer =>
        rw [hd] at hd₁
        cases hd₁
        exact ⟨d', List.getElem?_set_self hlt, hreached.answer hanswer⟩

/-- A pass between whose steps nothing else runs does what `finalizeDueCancellations` does. -/
theorem pass_alone {env : Externals} {log : List DeletionEvent} {s s' : DeletionState} {k : ℕ}
    (hstart : s.deletions[k]? = some ⟨.finalizer s.world.now, [], .starting⟩)
    (hrun : DeletionRun env pool s log s') (hlog : ∀ e ∈ log, e.OfPass k answers)
    (hend : s'.deletions[k]? = some ⟨.finalizer s.world.now, [], .idle⟩) :
    s'.world = finalizeDueCancellations (pool.unbindResult answers) s.world := by
  obtain ⟨d, hd, -, hreached⟩ := Reached.run (t := s.world.now) hrun hlog
    ⟨_, hstart, rfl, rfl⟩
  rw [hend] at hd
  cases hd
  obtain ⟨done, hitems, hworld⟩ := hreached
  rw [List.append_nil] at hitems
  rw [hworld, hitems]
  rfl

end

end

end PapeSdk
