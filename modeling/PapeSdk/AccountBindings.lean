import PapeSdk.StoreInvariant

/-!
The identifiers of live accounts. No single constraint covers the two columns
an identifier may stand in; the shape of bound rows makes up for it: a phone
number stands in the first column only, and an email in the first column
stands in the second one as well, where the partial index sees it.
-/

namespace PapeSdk

open KeyedTables Identifiers EventRuns

section
variable {env : Externals} {w w' : World} {r : UserRow}

theorem UserRow.Bound.primary (h : r.Bound env) :
    IsPhone r.phone ∨ IsEmail env r.phone ∧ r.email = some r.phone := by
  rcases h with ⟨hphone, -⟩ | hemail
  · exact Or.inl hphone
  · exact Or.inr hemail

/-- Decoding the columns of a bound row gives an identifier in one place at least. -/
theorem UserRow.Bound.currentBindings_ne (h : r.Bound env) :
    (currentBindings r).1 ≠ "" ∨ (currentBindings r).2 ≠ "" := by
  rcases h.primary with hphone | ⟨hemail, -⟩
  · apply Or.inl
    simpa [currentBindings, hasAt_of_phone hphone] using ne_empty_of_phone hphone
  · apply Or.inr
    simpa [currentBindings, hemail.1] using ne_empty_of_email hemail

/-- A phone number bound to a row stands in its first column. -/
theorem UserRow.Bound.phone_of_answers (h : r.Bound env) {x : String} (hx : IsPhone x)
    (hanswer : r.phone = x ∨ r.email = some x) : r.phone = x := by
  rcases hanswer with hphone | hemail
  · exact hphone
  · rcases h with ⟨-, hwell⟩ | ⟨hwell, hsame⟩
    · exact absurd rfl (phone_ne_email hx (hwell x hemail))
    · rw [hemail] at hsame
      exact (Option.some.inj hsame).symm

/-- An email bound to a row stands in its second column. -/
theorem UserRow.Bound.email_of_answers (h : r.Bound env) {x : String} (hx : IsEmail env x)
    (hanswer : r.phone = x ∨ r.email = some x) : r.email = some x := by
  rcases hanswer with hphone | hemail
  · rcases h with ⟨hwell, -⟩ | ⟨-, hsame⟩
    · exact absurd hphone (phone_ne_email hwell hx)
    · rw [hsame, hphone]
  · exact hemail

/-- An identifier is bound to at most one live account. -/
theorem BindingInv.answers_unique (h : BindingInv env w) {x : String} (hx : IsIdentifier env x)
    {a b : UserRow} (ha : a ∈ w.db.users.rows) (hb : b ∈ w.db.users.rows)
    (hax : a.answersTo x = true) (hbx : b.answersTo x = true) : a = b := by
  obtain ⟨hax, halive⟩ := UserRow.answersTo_iff.mp hax
  obtain ⟨hbx, hblive⟩ := UserRow.answersTo_iff.mp hbx
  have habound := h.bound a ha halive
  have hbbound := h.bound b hb hblive
  rcases hx with hphone | hemail
  · exact w.db.user_eq_of_phone ha hb ((habound.phone_of_answers hphone hax).trans
      (hbbound.phone_of_answers hphone hbx).symm)
  · exact w.db.user_eq_of_email ha hb (ne_empty_of_email hemail)
      (habound.email_of_answers hemail hax) (hbbound.email_of_answers hemail hbx)

/-- The lookup by an identifier finds the only account there is to find. -/
theorem BindingInv.userByPhone_iff (h : BindingInv env w) {value x : String}
    (hx : normalizeAccount env value = .ok x) {u : User} :
    userByPhone env w value = .ok (some u) ↔
      ∃ r ∈ w.db.users.rows, r.answersTo x = true ∧ u = r.scan := by
  have hidentifier := isIdentifier_of_normalize hx
  simp only [userByPhone, hx, userByPhoneRow, Except.ok.injEq]
  constructor
  · intro hfound
    obtain ⟨r, hr, hscan⟩ := Option.map_eq_some_iff.mp hfound
    exact ⟨r, Table.mem_of_first? hr, Table.first?_holds hr, hscan.symm⟩
  · rintro ⟨r, hr, hanswers, rfl⟩
    rw [Table.first?_eq_of_unique hr hanswers fun a ha hax =>
      h.answers_unique hidentifier ha hr hax hanswers]
    rfl

theorem createAccount_error {phone email hash e : String}
    (h : (createAccount env w phone email hash).2 = .error e) :
    (createAccount env w phone email hash).1 = w := by
  rcases hcall : createAccount env w phone email hash with ⟨w', result⟩
  rcases createAccount_cases hcall with ⟨_, -, rfl⟩ | ⟨row, users, -, -, -, hok⟩
  · rfl
  · rw [hcall, hok] at h
    cases h

theorem updateBindingsTx_error {id : ℕ} {phone email : Option String} {kind retained e : String}
    (h : (updateBindingsTx env w id phone email kind retained).2 = .error e) :
    (updateBindingsTx env w id phone email kind retained).1 = w := by
  rcases hcall : updateBindingsTx env w id phone email kind retained with ⟨w', result⟩
  rcases updateBindingsTx_cases hcall with ⟨_, -, rfl⟩ | ⟨_, _, _, _, -, -, -, -, hok, -⟩
  · rfl
  · rw [hcall, hok] at h
    cases h

theorem unbindVerified_error {id : ℕ} {kind retained e : String}
    (h : (unbindVerified env w id kind retained).2 = .error e) :
    (unbindVerified env w id kind retained).1 = w := by
  unfold unbindVerified at h ⊢
  split at h
  · next hkind =>
    rw [if_pos hkind]
    exact updateBindingsTx_error h
  split at h
  · next hphone hemail =>
    rw [if_neg hphone, if_pos hemail]
    exact updateBindingsTx_error h
  · next hphone hemail => rw [if_neg hphone, if_neg hemail]

theorem restoreUpdate_error {id : ℕ} {phone e : String}
    (h : (restoreUpdate w id phone).2 = .error e) : (restoreUpdate w id phone).1 = w := by
  unfold restoreUpdate at h ⊢
  split
  · rfl
  next users husers =>
  rw [husers] at h
  simp only at h
  split
  · rfl
  · next hone =>
    rw [if_neg hone] at h
    cases h

theorem restoreUser_error {id : ℕ} {phone e : String}
    (h : (restoreUser env w id phone).2 = .error e) : (restoreUser env w id phone).1 = w := by
  unfold restoreUser at h ⊢
  split
  · rfl
  next x hx =>
  rw [hx] at h
  exact restoreUpdate_error h

/-- The laws of bindings in every state a fresh store can reach. -/
theorem bindings_stay_in_order {start : ℕ} {log : List Event}
    (hrun : StoreRun env (World.fresh env start) log w) :
    (∀ r ∈ w.db.users.rows, r.deletedAt = none →
      ((currentBindings r).1 ≠ "" ∨ (currentBindings r).2 ≠ "") ∧
      (IsPhone r.phone ∨ IsEmail env r.phone ∧ r.email = some r.phone)) ∧
    (∀ value x, normalizeAccount env value = .ok x →
      (∀ a ∈ w.db.users.rows, ∀ b ∈ w.db.users.rows, a.deletedAt = none → b.deletedAt = none →
        (a.phone = x ∨ a.email = some x) → (b.phone = x ∨ b.email = some x) → a = b) ∧
      ∀ u, userByPhone env w value = .ok (some u) ↔
        ∃ r ∈ w.db.users.rows, r.answersTo x = true ∧ u = r.scan) ∧
    (∀ phone email hash e, (createAccount env w phone email hash).2 = .error e →
      (createAccount env w phone email hash).1.db = w.db) ∧
    (∀ id phone email e, (updateBindings env w id phone email).2 = .error e →
      (updateBindings env w id phone email).1.db = w.db) ∧
    (∀ id kind retained e, (unbindVerified env w id kind retained).2 = .error e →
      (unbindVerified env w id kind retained).1.db = w.db) ∧
    (∀ id phone e, (restoreUser env w id phone).2 = .error e →
      (restoreUser env w id phone).1.db = w.db) := by
  have hinv : BindingInv env w := (StoreInv.run hrun).bindings
  refine ⟨?_, ?_, ?_, ?_, ?_, ?_⟩
  · intro r hr hlive
    have hbound := hinv.bound r hr hlive
    exact ⟨hbound.currentBindings_ne, hbound.primary⟩
  · intro value x hx
    refine ⟨?_, fun u => hinv.userByPhone_iff hx⟩
    intro a ha b hb halive hblive hax hbx
    exact hinv.answers_unique (isIdentifier_of_normalize hx) ha hb
      (UserRow.answersTo_iff.mpr ⟨hax, halive⟩) (UserRow.answersTo_iff.mpr ⟨hbx, hblive⟩)
  · intro phone email hash e h
    rw [createAccount_error h]
  · intro id phone email e h
    rw [updateBindings, updateBindingsTx_error h]
  · intro id kind retained e h
    rw [unbindVerified_error h]
  · intro id phone e h
    rw [restoreUser_error h]

end

/-- A second account for a bound email is refused without a trace. -/
theorem refused_account_leaves_no_trace :
    (createAccount .unary (execAll .unary (World.fresh .unary 0)
      [.createAccount "13800000000" "a@b.c" ""]).2 "13900000000" " A@B.C" "").1.db =
    (execAll .unary (World.fresh .unary 0) [.createAccount "13800000000" "a@b.c" ""]).2.db :=
  (bindings_stay_in_order (execAll_run _ _ [.createAccount "13800000000" "a@b.c" ""])).2.2.1 _ _ _
    "手机号或邮箱已被其他账号绑定" (by decide +kernel)

end PapeSdk
