import PapeSdk.AccountBindings

/-!
What a restore brings back. A deletion leaves one identifier of the account, in
front of a mark, and empties the email column. A restore without an argument cuts
the text at the first mark, so it finds the identifiers of an account again exactly
when there was only one and no mark comes up earlier than the one of the deletion.
-/

namespace PapeSdk

open KeyedTables Identifiers EventRuns

section
variable {mark p s : List Char}

theorem mark_not_prefix (h : ¬ mark <:+: p ++ mark.dropLast) (hp : p ≠ []) :
    mark.isPrefixOf (p ++ mark ++ s) = false := by
  rw [Bool.eq_false_iff]
  intro hprefix
  apply h
  have hwhole : mark <+: p ++ mark.dropLast ++ (mark.drop (mark.length - 1) ++ s) := by
    have hsplit : p ++ mark.dropLast ++ (mark.drop (mark.length - 1) ++ s) = p ++ mark ++ s := by
      rw [List.dropLast_eq_take, List.append_assoc, ← List.append_assoc (mark.take _),
        List.take_append_drop, ← List.append_assoc]
    rw [hsplit]
    exact List.isPrefixOf_iff_prefix.mp hprefix
  have hlength : mark.length ≤ (p ++ mark.dropLast).length := by
    have hpos : 0 < p.length := List.length_pos_iff.mpr hp
    rw [List.length_append, List.length_dropLast]
    omega
  exact (List.prefix_of_prefix_length_le hwhole (List.prefix_append _ _) hlength).isInfix

/-- Without an earlier mark, the text in front of the mark comes back. -/
theorem cutBefore_append (hmark : mark ≠ []) (h : ¬ mark <:+: p ++ mark.dropLast) :
    cutBefore mark (p ++ mark ++ s) = p := by
  induction p with
  | nil =>
    obtain ⟨c, rest, rfl⟩ := List.exists_cons_of_ne_nil hmark
    have hprefix : (c :: rest).isPrefixOf ((c :: rest) ++ s) = true :=
      List.isPrefixOf_iff_prefix.mpr (List.prefix_append _ _)
    exact if_pos hprefix
  | cons c p ih =>
    have hrest : ¬ mark <:+: p ++ mark.dropLast :=
      fun hwithin => h (hwithin.trans (List.suffix_cons c _).isInfix)
    have hnot := mark_not_prefix (s := s) h (List.cons_ne_nil c p)
    rw [List.cons_append, List.cons_append] at hnot ⊢
    rw [cutBefore, if_neg (by rw [hnot]; decide), ih hrest]

/-- An earlier mark cuts the text short. -/
theorem cutBefore_shorter (h : mark <:+: p ++ mark.dropLast) (hmark : mark ≠ []) :
    (cutBefore mark (p ++ mark ++ s)).length < p.length := by
  induction p with
  | nil =>
    have hlength := h.length_le
    have hpos : 0 < mark.length := List.length_pos_iff.mpr hmark
    rw [List.nil_append, List.length_dropLast] at hlength
    omega
  | cons c p ih =>
    rw [List.cons_append, List.cons_append, cutBefore]
    split
    · exact Nat.succ_pos _
    · next hnot =>
      have hrest : mark <:+: p ++ mark.dropLast := by
        rcases List.infix_cons_iff.mp h with hprefix | hwithin
        · have hwhole : mark <+: c :: (p ++ mark ++ s) := by
            have hdrop : mark.dropLast <+: mark ++ s :=
              (List.dropLast_prefix mark).trans (List.prefix_append _ _)
            have hlonger : c :: (p ++ mark.dropLast) <+: c :: (p ++ mark ++ s) := by
              rw [List.append_assoc]
              exact (List.prefix_append_right_inj (c :: p)).mpr hdrop
            exact hprefix.trans hlonger
          exact absurd (List.isPrefixOf_iff_prefix.mpr hwhole) hnot
        · exact hwithin
      exact Nat.succ_lt_succ (ih hrest)

end

theorem length_trimSpace (s : String) :
    (LetterCase.trimSpace s).toList.length ≤ s.toList.length := by
  rw [LetterCase.trimSpace, String.toList_ofList]
  exact le_trans (List.rdropWhile_prefix _ _).length_le (List.dropWhile_suffix _).length_le

/-- Normalizing never makes an identifier longer. -/
theorem normalizeAccount_length {env : Externals} {value x : String}
    (h : normalizeAccount env value = .ok x) : x.toList.length ≤ value.toList.length := by
  unfold normalizeAccount at h
  dsimp only at h
  split at h
  · split at h
    · rw [← Except.ok.inj h, LetterCase.toLower, String.toList_ofList, List.length_map]
      exact length_trimSpace value
    · cases h
  · split at h
    · rw [← Except.ok.inj h]
      exact length_trimSpace value
    · cases h

/-- A deleted row holds the mark in the first column and nothing in the email column. -/
def UserRow.Marked (r : UserRow) : Prop :=
  r.deletedAt ≠ none → deletedMark.toList <:+: r.phone.toList ∧ r.email = none

def MarkedRows (w : World) : Prop := ∀ r ∈ w.db.users.rows, r.Marked

section
variable {env : Externals} {w w' : World} {op : Op}

theorem markDeleted_toList (phone : String) (now : ℕ) :
    (markDeleted phone now).toList =
      phone.toList ++ deletedMark.toList ++ (toString now).toList := by
  simp only [markDeleted, String.toList_append]

theorem marked_softDelete (r : UserRow) (now : ℕ) : (r.softDelete now).Marked := by
  intro _
  refine ⟨?_, rfl⟩
  rw [UserRow.softDelete, markDeleted_toList]
  exact ⟨r.phone.toList, (toString now).toList, rfl⟩

theorem UserRow.Marked.of_same {r r' : UserRow} (h : r.Marked)
    (hdeleted : r'.deletedAt = r.deletedAt)
    (hphone : r'.phone = r.phone) (hemail : r'.email = r.email) : r'.Marked := by
  unfold UserRow.Marked at h ⊢
  rw [hdeleted, hphone, hemail]
  exact h

theorem MarkedRows.of_updated (h : MarkedRows w) {p : UserRow → Bool} {f : UserRow → UserRow}
    (hrows : w'.db.users.rows = w.db.users.rows.map fun r => if p r then f r else r)
    (hf : ∀ r ∈ w.db.users.rows, p r = true → r.Marked → (f r).Marked) : MarkedRows w' := by
  intro u hu
  rw [hrows] at hu
  rcases Table.of_mem_updated hu with ⟨a, ha, hp, rfl⟩ | ⟨ha, -⟩
  · exact hf a ha hp (h a ha)
  · exact h u ha

theorem MarkedRows.change (h : MarkedRows w) {k : Effect}
    (hchange : Change env w k w') : MarkedRows w' := by
  cases hchange with
  | draw | comet | revokeSession => exact h
  | touch t =>
    have hquiet := t.quiet w.now
    exact h.of_updated rfl fun r _ _ hr =>
      hr.of_same (hquiet r).deletedAt (hquiet r).phone (hquiet r).email
  | login | refresh | revokeTokens =>
    exact h.of_updated rfl fun r _ _ hr => hr.of_same rfl rfl rfl
  | create row users husers hblank =>
    intro u hu hdeleted
    rcases (Table.mem_insert? husers).mp hu with hold | rfl
    · exact h u hold hdeleted
    · exact absurd hblank.deletedAt hdeleted
  | rebind row phone email users hrow hlive hbound husers =>
    refine h.of_updated (Table.update?_rows husers) ?_
    intro r hr hid _ hdeleted
    rw [w.db.user_eq_of_id hr hrow (by simpa using hid)] at hdeleted
    exact absurd hlive hdeleted
  | delete p userID now users hp husers =>
    exact h.of_updated (Table.update?_rows husers) fun r _ _ _ => marked_softDelete r now
  | restore id phone users hphone husers =>
    refine h.of_updated (Table.update?_rows husers) ?_
    intro r _ _ _ hdeleted
    exact absurd rfl hdeleted
  | hardDelete id =>
    intro u hu
    exact h u (Table.mem_delete.mp hu).1

theorem MarkedRows.changes (h : MarkedRows w) (hchanges : Changes env w w') : MarkedRows w' := by
  induction hchanges with
  | refl => exact h
  | tail _ hchange ih =>
    obtain ⟨k, hchange⟩ := hchange
    exact ih.change hchange

theorem MarkedRows.exec (h : MarkedRows w) (hinv : StoreInv env w) (op : Op) :
    MarkedRows (exec env w op).1 := by
  refine exec_cases (fun _ => h.changes) (fun userID status cancelAt _ => ?_)
    (fun _ _ _ _ => h) (fun _ => ?_) (fun _ _ => h)
  · exact h.of_updated rfl fun r _ _ hr => hr.of_same rfl rfl rfl
  · rw [openStore_of_inv hinv]
    exact h

theorem MarkedRows.run {start : ℕ} {log : List Event}
    (h : StoreRun env (World.fresh env start) log w) : StoreInv env w ∧ MarkedRows w := by
  refine h.invariant (P := fun v => StoreInv env v ∧ MarkedRows v) ?_ ⟨StoreInv.fresh start, ?_⟩
  · intro v e v' hv hstep
    have hmarked := hv.2.exec hv.1 e.op
    rw [hstep.2] at hmarked
    exact ⟨hv.1.step hstep, hmarked⟩
  · rw [fresh_eq]
    intro r hr
    cases hr

/-- `UserByPhone` answers this argument with the account. -/
def ResolvesTo (env : Externals) (w : World) (value : String) (id : ℕ) : Prop :=
  ∃ u, userByPhone env w value = .ok (some u) ∧ u.id = id

theorem resolvesTo_iff (hinv : BindingInv env w) {r : UserRow} (hr : r ∈ w.db.users.rows)
    (value : String) : ResolvesTo env w value r.id ↔
      ∃ x, normalizeAccount env value = .ok x ∧ r.answersTo x = true := by
  constructor
  · rintro ⟨u, hu, hid⟩
    cases hx : normalizeAccount env value with
    | error e =>
      rw [userByPhone, hx] at hu
      cases hu
    | ok x =>
      obtain ⟨a, ha, hanswers, rfl⟩ := (hinv.userByPhone_iff hx).mp hu
      have har : a = r := w.db.user_eq_of_id ha hr hid
      exact ⟨x, rfl, har ▸ hanswers⟩
  · rintro ⟨x, hx, hanswers⟩
    exact ⟨r.scan, (hinv.userByPhone_iff hx).mpr ⟨r, hr, hanswers, rfl⟩, rfl⟩

/-- A deletion of the account that has taken place. -/
def SoftDeletes (w : World) (id : ℕ) (w' : World) : Prop :=
  deleteUser w id = (w', .ok ()) ∨ ∃ now, completeCancellation w id now = (w', .ok true)

/-- One identifier, which a cut at the first mark leaves whole. -/
def UserRow.Restorable (r : UserRow) : Prop :=
  (r.email = none ∨ r.email = some r.phone) ∧
    ¬ deletedMark.toList <:+: r.phone.toList ++ deletedMark.toList.dropLast

theorem softDeletes_row {r : UserRow} (hr : r ∈ w.db.users.rows) (hlive : r.deletedAt = none)
    (h : SoftDeletes w r.id w') : ∃ now, r.softDelete now ∈ w'.db.users.rows := by
  rcases h with h | ⟨now, h⟩
  · unfold deleteUser at h
    split at h
    · cases h
    next users husers =>
    cases h
    have hmem : (if r.isLive r.id then r.softDelete w.now else r) ∈ users.rows :=
      (Table.mem_update? husers).mpr ⟨r, hr, rfl⟩
    rw [if_pos (UserRow.isLive_iff.mpr ⟨rfl, hlive⟩)] at hmem
    exact ⟨w.now, hmem⟩
  · unfold completeCancellation at h
    dsimp only at h
    split at h
    · cases h
    next users husers =>
    split at h
    · cases h
    next hsome =>
    cases h
    obtain ⟨a, ha, hdue⟩ := Table.exists_of_affected hsome
    have hid : a.id = r.id := by
      simp only [Bool.and_eq_true, beq_iff_eq] at hdue
      exact hdue.1
    have har : a = r := w.db.user_eq_of_id ha hr hid
    subst har
    have hmem : (if (a.id == a.id && a.isDue now) = true then a.softDelete now else a) ∈
        users.rows := (Table.mem_update? husers).mpr ⟨a, hr, rfl⟩
    rw [if_pos hdue] at hmem
    exact ⟨now, hmem⟩

theorem answersTo_restored {r : UserRow} {x y : String} {now : ℕ} :
    (r.restored y now).answersTo x = true ↔ x = y := by
  rw [UserRow.answersTo_iff]
  simp only [UserRow.restored, and_true]
  constructor
  · rintro (hphone | hemail)
    · exact hphone.symm
    · split at hemail
      · exact (Option.some.inj hemail).symm
      · cases hemail
  · intro hxy
    exact Or.inl hxy.symm

/-- The row of a restore that succeeds. -/
theorem restoreUser_ok {d : UserRow} (hd : d ∈ w.db.users.rows) {phone : String}
    (h : (restoreUser env w d.id phone).2 = .ok ()) :
    ∃ x, restoreSelect env w d.id phone = .ok x ∧
      d.restored x w.now ∈ (restoreUser env w d.id phone).1.db.users.rows := by
  unfold restoreUser at h ⊢
  cases hselect : restoreSelect env w d.id phone with
  | error e =>
    rw [hselect] at h
    cases h
  | ok x =>
    rw [hselect] at h
    refine ⟨x, rfl, ?_⟩
    dsimp only at h ⊢
    unfold restoreUpdate at h ⊢
    split at h
    · cases h
    next users husers =>
    split at h
    · cases h
    next hone =>
    rw [if_neg hone]
    have hmem : (if (d.id == d.id) = true then d.restored x w.now else d) ∈ users.rows :=
      (Table.mem_update? husers).mpr ⟨d, hd, rfl⟩
    rw [if_pos (beq_self_eq_true d.id)] at hmem
    exact hmem

theorem restoreSelect_empty {d : UserRow} (hd : d ∈ w.db.users.rows) :
    restoreSelect env w d.id "" = normalizeAccount env (beforeDeletedMark d.phone) := by
  have hfirst : w.db.users.first? (fun r => r.id == d.id) = some d :=
    Table.first?_eq_of_unique hd (beq_self_eq_true d.id)
      fun a ha hid => w.db.user_eq_of_id ha hd (beq_iff_eq.mp hid)
  unfold restoreSelect
  rw [hfirst]
  dsimp only
  rw [trimSpace_empty, if_pos rfl]

/-- A marked row, or a live one without the identifier, is in nobody's way. -/
theorem apart_restored {a d : UserRow} {x : String} {now : ℕ} (hmarked : a.Marked)
    (hmark : ¬ deletedMark.toList <:+: x.toList) (hid : a.id ≠ d.id)
    (hlive : a.deletedAt = none → a.answersTo x = false) : Apart userKeys a (d.restored x now) := by
  have hfree : ¬ (a.phone = x ∨ a.email = some x) := by
    intro hsame
    by_cases hdeleted : a.deletedAt = none
    · have hanswers : a.answersTo x = true := UserRow.answersTo_iff.mpr ⟨hsame, hdeleted⟩
      rw [hlive hdeleted] at hanswers
      cases hanswers
    · obtain ⟨hwithin, hempty⟩ := hmarked hdeleted
      rcases hsame with hphone | hemail
      · exact hmark (hphone ▸ hwithin)
      · rw [hempty] at hemail
        cases hemail
  intro k hka hkd
  rcases mem_userKeys.mp hkd with rfl | rfl | ⟨email, hx, -, rfl⟩
  · rcases mem_userKeys.mp hka with h | h | ⟨_, _, _, h⟩
    · exact hid (UserKey.id.inj h).symm
    · cases h
    · cases h
  · rcases mem_userKeys.mp hka with h | h | ⟨_, _, _, h⟩
    · cases h
    · exact hfree (Or.inl (UserKey.phone.inj h).symm)
    · cases h
  · have hxe : email = x := by
      simp only [UserRow.restored] at hx
      split at hx
      · exact (Option.some.inj hx).symm
      · cases hx
    rcases mem_userKeys.mp hka with h | h | ⟨_, hsame, _, h⟩
    · cases h
    · cases h
    · rw [← UserKey.email.inj h, hxe] at hsame
      exact hfree (Or.inr hsame)

/-- Nobody else has the identifier, so the restore of it succeeds. -/
theorem restoreUser_succeeds {d : UserRow} (hd : d ∈ w.db.users.rows) {phone x : String}
    (hselect : restoreSelect env w d.id phone = .ok x) (hmarked : MarkedRows w)
    (hmark : ¬ deletedMark.toList <:+: x.toList)
    (hfree : ∀ a ∈ w.db.users.rows, a.deletedAt = none → a.id ≠ d.id → a.answersTo x = false) :
    (restoreUser env w d.id phone).2 = .ok () := by
  have hunique : ∀ a ∈ w.db.users.rows, (a.id == d.id) = true → a = d :=
    fun a ha hid => w.db.user_eq_of_id ha hd (beq_iff_eq.mp hid)
  have hkey : UserKey.id d.id ∈ userKeys d := mem_userKeys.mpr (Or.inl rfl)
  have hapart : ∀ a ∈ w.db.users.rows, (a.id == d.id) = false →
      Apart userKeys a (d.restored x w.now) := by
    intro a ha hid
    exact apart_restored (hmarked a ha) hmark (by simpa using hid)
      fun hlive => hfree a ha hlive (by simpa using hid)
  obtain ⟨users, husers⟩ :=
    Table.update?_some (f := fun a => a.restored x w.now) hkey hunique hapart
  have hone := Table.affected_eq_one hd hkey (beq_self_eq_true d.id) hunique
  unfold restoreUser
  rw [hselect]
  dsimp only
  unfold restoreUpdate
  rw [husers]
  dsimp only
  rw [if_neg (fun hne => hne hone)]

theorem SoftDeletes.exec {id : ℕ} (h : SoftDeletes w id w') (env : Externals) :
    ∃ op, (exec env w op).1 = w' := by
  rcases h with h | ⟨now, h⟩
  · refine ⟨.deleteUser id, ?_⟩
    rw [PapeSdk.exec, report_fst, h]
  · refine ⟨.completeCancellation id now, ?_⟩
    rw [PapeSdk.exec, report_fst, h]

/-- The cut text is the identifier, or is shorter than the identifier. -/
theorem beforeDeletedMark_markDeleted {p : String} {now : ℕ}
    (h : ¬ deletedMark.toList <:+: p.toList ++ deletedMark.toList.dropLast) :
    beforeDeletedMark (markDeleted p now) = p := by
  rw [beforeDeletedMark, markDeleted_toList, cutBefore_append (by decide) h, String.ofList_toList]

theorem beforeDeletedMark_shorter {p : String} {now : ℕ}
    (h : deletedMark.toList <:+: p.toList ++ deletedMark.toList.dropLast) :
    (beforeDeletedMark (markDeleted p now)).toList.length < p.toList.length := by
  rw [beforeDeletedMark, markDeleted_toList, String.toList_ofList]
  exact cutBefore_shorter h (by decide)

/-- The identifiers of a bound row are the ones that normalize to a given one exactly
when it has no second one. -/
theorem UserRow.Bound.same_identifiers_iff {r : UserRow} (h : r.Bound env)
    (hlive : r.deletedAt = none) {x : String} :
    (∀ value, (∃ y, normalizeAccount env value = .ok y ∧ y = x) ↔
      ∃ y, normalizeAccount env value = .ok y ∧ r.answersTo y = true) ↔
      r.phone = x ∧ (r.email = none ∨ r.email = some x) := by
  constructor
  · intro hsame
    have hidentifier : ∀ y, IsIdentifier env y → r.phone = y ∨ r.email = some y → y = x := by
      intro y hy hanswers
      have hanswers : r.answersTo y = true := UserRow.answersTo_iff.mpr ⟨hanswers, hlive⟩
      obtain ⟨z, hz, hzx⟩ := (hsame y).mpr ⟨y, hy.normalize, hanswers⟩
      rw [hy.normalize] at hz
      exact (Except.ok.inj hz).trans hzx
    have hphone : r.phone = x := by
      rcases h.primary with hp | ⟨he, -⟩
      · exact hidentifier r.phone (Or.inl hp) (Or.inl rfl)
      · exact hidentifier r.phone (Or.inr he) (Or.inl rfl)
    refine ⟨hphone, ?_⟩
    cases hemail : r.email with
    | none => exact Or.inl rfl
    | some email =>
      have hwell : IsIdentifier env email := by
        rcases h with ⟨-, hwell⟩ | ⟨hwell, hself⟩
        · exact Or.inr (hwell email hemail)
        · rw [hself] at hemail
          exact Or.inr (Option.some.inj hemail ▸ hwell)
      rw [hidentifier email hwell (Or.inr hemail)]
      exact Or.inr rfl
  · rintro ⟨hphone, hemail⟩ value
    refine exists_congr fun y => and_congr_right fun _ => ?_
    rw [UserRow.answersTo_iff]
    constructor
    · intro hyx
      exact ⟨Or.inl (hphone.trans hyx.symm), hlive⟩
    · rintro ⟨hanswers | hanswers, -⟩
      · exact hanswers.symm.trans hphone
      · rcases hemail with hnone | hsome
        · rw [hnone] at hanswers
          cases hanswers
        · rw [hsome] at hanswers
          exact (Option.some.inj hanswers).symm

theorem UserRow.Bound.normalize_phone {r : UserRow} (h : r.Bound env) :
    normalizeAccount env r.phone = .ok r.phone := by
  rcases h.primary with hphone | ⟨hemail, -⟩
  · exact normalizeAccount_phone hphone
  · exact hemail.2

/-- After the restore, the old identifiers lead to the account again if the restored one
is all there was. -/
theorem restored_resolves_iff {r d : UserRow} {x : String} (hinv : BindingInv env w)
    (hr : r ∈ w.db.users.rows) (hlive : r.deletedAt = none) (hinv' : StoreInv env w')
    (hd : d ∈ w'.db.users.rows) (hid : d.id = r.id) (hx : restoreSelect env w' r.id "" = .ok x)
    (hok : (restoreUser env w' r.id "").2 = .ok ()) :
    (∀ value, ResolvesTo env (restoreUser env w' r.id "").1 value r.id ↔
      ResolvesTo env w value r.id) ↔ r.phone = x ∧ (r.email = none ∨ r.email = some x) := by
  have hrestored : StoreInv env (restoreUser env w' r.id "").1 := by
    have hexec := hinv'.exec (.restoreUser r.id "")
    rwa [PapeSdk.exec, report_fst] at hexec
  have hrow : ∃ now, d.restored x now ∈ (restoreUser env w' r.id "").1.db.users.rows := by
    rw [← hid] at hx hok ⊢
    obtain ⟨y, hy, hmem⟩ := restoreUser_ok hd hok
    rw [hx] at hy
    cases hy
    exact ⟨w'.now, hmem⟩
  obtain ⟨now, hmem⟩ := hrow
  have hnew : ∀ value, ResolvesTo env (restoreUser env w' r.id "").1 value r.id ↔
      ∃ y, normalizeAccount env value = .ok y ∧ y = x := by
    intro value
    have hiff := resolvesTo_iff hrestored.bindings hmem value
    rw [show (d.restored x now).id = r.id from hid] at hiff
    simpa only [answersTo_restored] using hiff
  simp only [hnew, resolvesTo_iff hinv hr]
  exact (hinv.bound r hr hlive).same_identifiers_iff hlive

end

/-- A restore without an argument undoes a deletion exactly for an account with one
identifier, in which no mark begins. -/
theorem restore_undoes_deletion_iff {env : Externals} {start : ℕ} {log log' : List Event}
    {w w₁ w₂ : World} {r : UserRow} (hrun : StoreRun env (World.fresh env start) log w)
    (hr : r ∈ w.db.users.rows) (hlive : r.deletedAt = none) (hdelete : SoftDeletes w r.id w₁)
    (hafter : StoreRun env w₁ log' w₂)
    (hrow : ∀ d ∈ w₁.db.users.rows, d.id = r.id →
      ∃ d' ∈ w₂.db.users.rows, d'.id = d.id ∧ d'.phone = d.phone)
    (hfree : ∀ a ∈ w₂.db.users.rows, a.id ≠ r.id →
      ∀ x, r.answersTo x = true → a.answersTo x = false) :
    ((restoreUser env w₂ r.id "").2 = .ok () ∧
      ∀ value, ResolvesTo env (restoreUser env w₂ r.id "").1 value r.id ↔
        ResolvesTo env w value r.id) ↔ r.Restorable := by
  obtain ⟨hinv, hmarked⟩ := MarkedRows.run hrun
  have hbound := hinv.bindings.bound r hr hlive
  obtain ⟨op, hop⟩ := hdelete.exec env
  have hpair : StoreInv env w₂ ∧ MarkedRows w₂ := by
    refine hafter.invariant (P := fun v => StoreInv env v ∧ MarkedRows v) ?_
      ⟨hop ▸ hinv.exec op, hop ▸ hmarked.exec hinv op⟩
    intro v e v' hv hstep
    have hkept := hv.2.exec hv.1 e.op
    rw [hstep.2] at hkept
    exact ⟨hv.1.step hstep, hkept⟩
  obtain ⟨hinv₂, hmarked₂⟩ := hpair
  obtain ⟨now, hdeleted⟩ := softDeletes_row hr hlive hdelete
  obtain ⟨d, hd, hid, hphone⟩ := hrow _ hdeleted rfl
  have hid : d.id = r.id := hid
  have hphone : d.phone = markDeleted r.phone now := hphone
  have hselect : restoreSelect env w₂ r.id "" =
      normalizeAccount env (beforeDeletedMark (markDeleted r.phone now)) := by
    rw [← hid, restoreSelect_empty hd, hphone]
  have hfind : ∀ x, normalizeAccount env (beforeDeletedMark (markDeleted r.phone now)) = .ok x →
      (restoreUser env w₂ r.id "").2 = .ok () →
      ((∀ value, ResolvesTo env (restoreUser env w₂ r.id "").1 value r.id ↔
        ResolvesTo env w value r.id) ↔ r.phone = x ∧ (r.email = none ∨ r.email = some x)) :=
    fun x hx hok => restored_resolves_iff hinv.bindings hr hlive hinv₂ hd hid (hselect.trans hx) hok
  constructor
  · rintro ⟨hok, hsame⟩
    rw [← hid] at hok
    obtain ⟨x, hx, -⟩ := restoreUser_ok hd hok
    rw [hid] at hok hx
    rw [hselect] at hx
    obtain ⟨rfl, hemail⟩ := (hfind x hx hok).mp hsame
    refine ⟨hemail, fun hwithin => ?_⟩
    have hshorter : (beforeDeletedMark (markDeleted r.phone now)).toList.length <
        r.phone.toList.length := beforeDeletedMark_shorter hwithin
    have hlength := normalizeAccount_length hx
    omega
  · rintro ⟨hemail, hmark⟩
    have hnormal : normalizeAccount env (beforeDeletedMark (markDeleted r.phone now)) =
        .ok r.phone := by
      rw [beforeDeletedMark_markDeleted hmark]
      exact hbound.normalize_phone
    have hwhole : ¬ deletedMark.toList <:+: r.phone.toList :=
      fun hwithin => hmark (hwithin.trans (List.prefix_append _ _).isInfix)
    have hok : (restoreUser env w₂ r.id "").2 = .ok () := by
      rw [← hid] at hselect ⊢
      refine restoreUser_succeeds hd (hselect.trans hnormal) hmarked₂ hwhole ?_
      intro a ha _ hne
      exact hfree a ha (hid ▸ hne) r.phone (UserRow.answersTo_iff.mpr ⟨Or.inl rfl, hlive⟩)
    exact ⟨hok, (hfind r.phone hnormal hok).mpr ⟨rfl, hemail⟩⟩

/-- The account of the store test, with a phone number and an email. -/
def twoBindings : World :=
  (execAll .unary (World.fresh .unary 0) [.createAccount "13800000000" "a@b.c" ""]).2

/-- The restored account answers to the phone number only. -/
theorem restore_loses_email :
    (∃ log, StoreRun .unary (World.fresh .unary 0) log twoBindings) ∧
    (∃ r ∈ twoBindings.db.users.rows, r.id = firstUserID ∧ r.deletedAt = none) ∧
    (∀ a ∈ (deleteUser twoBindings firstUserID).1.db.users.rows, a.id = firstUserID) ∧
    SoftDeletes twoBindings firstUserID (deleteUser twoBindings firstUserID).1 ∧
    ResolvesTo .unary twoBindings "a@b.c" firstUserID ∧
    (restoreUser .unary (deleteUser twoBindings firstUserID).1 firstUserID "").2 = .ok () ∧
    ¬ ResolvesTo .unary (restoreUser .unary (deleteUser twoBindings firstUserID).1
      firstUserID "").1 "a@b.c" firstUserID := by
  refine ⟨⟨_, execAll_run _ _ _⟩, by decide +kernel, by decide +kernel, ?_, ?_,
    by decide +kernel, ?_⟩
  · have hok : (deleteUser twoBindings firstUserID).2 = .ok () := by decide +kernel
    exact Or.inl (Prod.ext rfl hok)
  · have hfound : (userByPhone .unary twoBindings "a@b.c").map (Option.map User.id) =
        .ok (some firstUserID) := by decide +kernel
    cases hanswer : userByPhone .unary twoBindings "a@b.c" with
    | error e =>
      rw [hanswer] at hfound
      cases hfound
    | ok found =>
      rw [hanswer] at hfound
      obtain ⟨u, rfl, hid⟩ := Option.map_eq_some_iff.mp (Except.ok.inj hfound)
      exact ⟨u, hanswer, hid⟩
  · rintro ⟨u, hu, -⟩
    have hnobody : userByPhone .unary (restoreUser .unary (deleteUser twoBindings firstUserID).1
        firstUserID "").1 "a@b.c" = .ok none := by decide +kernel
    rw [hu] at hnobody
    cases hnobody

def phoneOnly : World :=
  (execAll .unary (World.fresh .unary 0) [.createAccount "13800000000" "" ""]).2

theorem phone_account_restored :
    (restoreUser .unary (deleteUser phoneOnly firstUserID).1 firstUserID "").2 = .ok () ∧
    ∀ value, ResolvesTo .unary (restoreUser .unary (deleteUser phoneOnly firstUserID).1
      firstUserID "").1 value firstUserID ↔ ResolvesTo .unary phoneOnly value firstUserID := by
  have hrow : ∃ r ∈ phoneOnly.db.users.rows, r.id = firstUserID ∧ r.deletedAt = none ∧
      (r.email = none ∨ r.email = some r.phone) ∧
      ¬ deletedMark.toList <:+: r.phone.toList ++ deletedMark.toList.dropLast := by
    decide +kernel
  obtain ⟨r, hr, hid, hlive, hone⟩ := hrow
  have hdelete : SoftDeletes phoneOnly r.id (deleteUser phoneOnly firstUserID).1 := by
    have hok : (deleteUser phoneOnly firstUserID).2 = .ok () := by decide +kernel
    rw [hid]
    exact Or.inl (Prod.ext rfl hok)
  have halone : ∀ a ∈ (deleteUser phoneOnly firstUserID).1.db.users.rows, a.id = firstUserID := by
    decide +kernel
  have hrow : ∀ d ∈ (deleteUser phoneOnly firstUserID).1.db.users.rows, d.id = r.id →
      ∃ d' ∈ (deleteUser phoneOnly firstUserID).1.db.users.rows,
        d'.id = d.id ∧ d'.phone = d.phone :=
    fun d hd _ => ⟨d, hd, rfl, rfl⟩
  have hrestore := (restore_undoes_deletion_iff (execAll_run _ _ _) hr hlive hdelete
    (Run.refl _) hrow fun a ha hne => absurd ((halone a ha).trans hid.symm) hne).mpr hone
  rwa [hid] at hrestore

end PapeSdk
