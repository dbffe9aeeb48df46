import PapeSdk.SendLimits
import PapeSdk.StoreInvariant

/-!
The safe status of an account against its history. The store keeps the time of the
last change and an override; the reference keeps every change and every override
since the account was created. The two agree at any time, except that a change at
time zero counts for none.
-/

namespace PapeSdk

open KeyedTables Identifiers EventRuns

inductive Mark where
  | change (time : ℕ)
  | override (safe : Bool)
  deriving DecidableEq, Repr

/-- The account is there and has a password that is not empty. -/
def World.hasPassword (w : World) (id : ℕ) : Bool :=
  w.db.users.rows.any fun r => r.id == id && r.passwordHash.getD "" != ""

def World.hasAccount (w : World) (id : ℕ) : Bool := w.db.users.rows.any fun r => r.id == id

/-- What an event is in the history of an account, in the state before it. -/
def World.mark (w : World) (id : ℕ) (e : Event) : Option Mark :=
  match e.op with
  | .setPasswordHash userID _ =>
    if userID = id ∧ w.hasPassword id = true then some (.change e.at') else none
  | .updateBindings userID _ _ | .updatePhone userID _ | .unbindVerified userID _ _
  | .restoreUser userID _ =>
    if userID = id ∧ e.outcome = .done then some (.change e.at') else none
  | .setSecurityOverride userID safe =>
    if userID = id ∧ e.outcome = .done then some (.override safe) else none
  | _ => none

/-- The history after an event; an account that is gone has none. -/
def record (w w' : World) (id : ℕ) (e : Event) (marks : List Mark) : List Mark :=
  if w'.hasAccount id then marks ++ (w.mark id e).toList else []

/-- The history of an account over a log, from a state and the marks up to it. -/
def history (env : Externals) (id : ℕ) (w : World) (marks : List Mark) : List Event → List Mark
  | [] => marks
  | e :: rest =>
    let w' := (exec env w e.op).1
    history env id w' (record w w' id e marks) rest

/-- The override that no change came after. -/
def lastOverride (marks : List Mark) : Option Bool :=
  match marks.getLast? with
  | some (.override safe) => some safe
  | _ => none

/-- The status that the history asks for. -/
def SafeBy (marks : List Mark) (now : ℕ) : Prop :=
  match lastOverride marks with
  | some safe => safe = true
  | none => ∀ t, .change t ∈ marks → t = 0 ∨ t + accountSecurityWindow ≤ now

/-- The security columns of a row after a mark. -/
def UserRow.Follows (r r' : UserRow) : Option Mark → Prop
  | none => r'.securityChangedAt = r.securityChangedAt ∧ r'.securityOverride = r.securityOverride
  | some (.change t) => r'.securityChangedAt = t ∧ r'.securityOverride = none
  | some (.override safe) => r'.securityChangedAt = r.securityChangedAt ∧
      r'.securityOverride = some (if safe then 1 else 0)

/-- Every row was there before and has the same security columns. -/
def SecurityKept (w w' : World) : Prop :=
  ∀ r' ∈ w'.db.users.rows, ∃ r ∈ w.db.users.rows, r.id = r'.id ∧ r.Follows r' none

/-- The row of the account follows the mark, or is new and there is none. -/
def SecurityMarked (w w' : World) (id : ℕ) (m : Option Mark) : Prop :=
  ∀ r' ∈ w'.db.users.rows, r'.id = id →
    (∃ r ∈ w.db.users.rows, r.id = id ∧ r.Follows r' m) ∨
      m = none ∧ (∀ r ∈ w.db.users.rows, r.id ≠ id) ∧ r'.securityChangedAt = 0 ∧
        r'.securityOverride = none

/-- The mark that a change leaves in the history of an account. -/
def Effect.mark (w : World) (id : ℕ) : Effect → Option Mark
  | .touch (.password userID _) =>
    if userID = id ∧ w.hasPassword id = true then some (.change w.now) else none
  | .touch (.override userID safe) => if userID = id then some (.override safe) else none
  | .rebind userID | .restore userID => if userID = id then some (.change w.now) else none
  | _ => none

section
variable {env : Externals} {w w' w'' : World}

theorem SecurityKept.of_same (h : w'.db.users = w.db.users) : SecurityKept w w' := by
  intro r hr
  rw [h] at hr
  exact ⟨r, hr, rfl, rfl, rfl⟩

theorem SecurityKept.of_updated {p : UserRow → Bool} {f : UserRow → UserRow}
    (hrows : w'.db.users.rows = w.db.users.rows.map fun r => if p r then f r else r)
    (hf : ∀ r, (f r).id = r.id ∧ r.Follows (f r) none) : SecurityKept w w' := by
  intro r' hr'
  rw [hrows] at hr'
  rcases Table.of_mem_updated hr' with ⟨r, hr, -, rfl⟩ | ⟨hr, -⟩
  · exact ⟨r, hr, (hf r).1.symm, (hf r).2⟩
  · exact ⟨r', hr, rfl, rfl, rfl⟩

theorem SecurityKept.marked (h : SecurityKept w w') (id : ℕ) : SecurityMarked w w' id none := by
  rintro r' hr' rfl
  exact Or.inl (h r' hr')

theorem SecurityMarked.then {id : ℕ} (h : SecurityMarked w w' id none) (h' : SecurityKept w' w'') :
    SecurityMarked w w'' id none := by
  intro r'' hr'' hid''
  obtain ⟨r', hr', hid', hchanged', hoverride'⟩ := h' r'' hr''
  rcases h r' hr' (hid'.trans hid'') with ⟨r, hr, hid, hchanged, hoverride⟩ |
    ⟨hnone, hnew, hchanged, hoverride⟩
  · exact Or.inl ⟨r, hr, hid, hchanged'.trans hchanged, hoverride'.trans hoverride⟩
  · exact Or.inr ⟨hnone, hnew, hchanged'.trans hchanged, hoverride'.trans hoverride⟩

/-- An update of one account, which another one sees nothing of. -/
theorem SecurityMarked.of_updated {userID id : ℕ} {f : UserRow → UserRow} {m : Option Mark}
    (hrows : w'.db.users.rows = w.db.users.rows.map fun r => if r.id == userID then f r else r)
    (hid : ∀ r, (f r).id = r.id) (hother : userID ≠ id → m = none)
    (hf : ∀ r ∈ w.db.users.rows, r.id = id → userID = id → r.Follows (f r) m) :
    SecurityMarked w w' id m := by
  rintro r' hr' hr'id
  rw [hrows] at hr'
  rcases Table.of_mem_updated hr' with ⟨r, hr, hp, rfl⟩ | ⟨hr, hnot⟩
  · rw [hid] at hr'id
    exact Or.inl ⟨r, hr, hr'id, hf r hr hr'id ((beq_iff_eq.mp hp).symm.trans hr'id)⟩
  · have hne : userID ≠ id := by
      intro hsame
      rw [hr'id, hsame] at hnot
      simp at hnot
    rw [hother hne]
    exact Or.inl ⟨r', hr, hr'id, rfl, rfl⟩

theorem hasPassword_iff {r : UserRow} (hr : r ∈ w.db.users.rows) :
    w.hasPassword r.id = true ↔ r.passwordHash.getD "" ≠ "" := by
  rw [World.hasPassword, List.any_eq_true]
  constructor
  · rintro ⟨a, ha, hboth⟩
    simp only [Bool.and_eq_true, beq_iff_eq, bne_iff_ne] at hboth
    rw [← w.db.user_eq_of_id ha hr hboth.1]
    exact hboth.2
  · intro hset
    refine ⟨r, hr, ?_⟩
    simp only [Bool.and_eq_true, beq_iff_eq, bne_iff_ne]
    exact ⟨trivial, hset⟩

theorem Change.marked {k : Effect} (h : Change env w k w') (id : ℕ) :
    SecurityMarked w w' id (k.mark w id) := by
  cases h with
  | draw | comet | revokeSession => exact (SecurityKept.of_same rfl).marked id
  | login | refresh | revokeTokens =>
    refine (SecurityKept.of_updated rfl ?_).marked id
    exact fun r => ⟨rfl, rfl, rfl⟩
  | delete p userID now users hp husers =>
    refine (SecurityKept.of_updated (Table.update?_rows husers) ?_).marked id
    exact fun r => ⟨rfl, rfl, rfl⟩
  | hardDelete userID =>
    intro r' hr' hid
    exact Or.inl ⟨r', (Table.mem_delete.mp hr').1, hid, rfl, rfl⟩
  | create row users husers hblank =>
    rintro r' hr' rfl
    rcases (Table.mem_insert? husers).mp hr' with hold | rfl
    · exact Or.inl ⟨r', hold, rfl, rfl, rfl⟩
    · exact Or.inr ⟨rfl, fun r hr => (Db.lt_nextUserID hr).ne, hblank.securityChangedAt,
        hblank.securityOverride⟩
  | rebind row phone email users hrow hlive hbound husers =>
    refine SecurityMarked.of_updated (Table.update?_rows husers) (fun _ => rfl) ?_ ?_
    · exact fun hne => if_neg hne
    · intro r _ _ hsame
      have hmark : (Effect.rebind row.id).mark w id = some (.change w.now) := if_pos hsame
      rw [hmark]
      exact ⟨rfl, rfl⟩
  | restore userID phone users hphone husers =>
    refine SecurityMarked.of_updated (Table.update?_rows husers) (fun _ => rfl) ?_ ?_
    · exact fun hne => if_neg hne
    · intro r _ _ hsame
      have hmark : (Effect.restore userID).mark w id = some (.change w.now) := if_pos hsame
      rw [hmark]
      exact ⟨rfl, rfl⟩
  | touch t =>
    cases t with
    | longToken userID token =>
      refine (SecurityKept.of_updated rfl ?_).marked id
      exact fun r => ⟨rfl, rfl, rfl⟩
    | override userID safe =>
      refine SecurityMarked.of_updated rfl (fun _ => rfl) ?_ ?_
      · exact fun hne => if_neg hne
      · intro r _ _ hsame
        have hmark : (Effect.touch (.override userID safe)).mark w id = some (.override safe) :=
          if_pos hsame
        rw [hmark]
        exact ⟨rfl, rfl⟩
    | password userID hash =>
      refine SecurityMarked.of_updated rfl (fun _ => rfl) ?_ ?_
      · exact fun hne => if_neg fun hboth => hne hboth.1
      · rintro r hr rfl hsame
        by_cases hset : r.passwordHash.getD "" = ""
        · have hmark : (Effect.touch (.password userID hash)).mark w r.id = none :=
            if_neg fun hboth => (hasPassword_iff hr).mp hboth.2 hset
          rw [hmark]
          exact ⟨if_pos hset, if_pos hset⟩
        · have hmark : (Effect.touch (.password userID hash)).mark w r.id =
              some (.change w.now) := if_pos ⟨hsame, (hasPassword_iff hr).mpr hset⟩
          rw [hmark]
          exact ⟨if_neg hset, if_neg hset⟩

theorem Change.login_keeps_security {userID : ℕ} (h : Change env w (.login userID) w') :
    SecurityKept w w' := by
  cases h with
  | login => exact SecurityKept.of_updated rfl fun r => ⟨rfl, rfl, rfl⟩

section
variable {op : Op} {o : Outcome}

theorem mark_of_effect {k : Effect} (hk : op.effect = some k) (ho : op.Granted o) (id : ℕ) :
    w.mark id ⟨w.now, op, o⟩ = k.mark w id := by
  cases op with
  | updateBindings | updatePhone | unbindVerified | restoreUser | setSecurityOverride =>
    cases hk
    cases ho
    simp only [World.mark, Effect.mark, and_true]
  | _ => cases hk <;> rfl

theorem mark_of_no_effect (hnone : op.effect = none) (id time : ℕ) :
    w.mark id ⟨time, op, o⟩ = none := by
  cases op with
  | setPasswordHash | updateBindings | updatePhone | unbindVerified | restoreUser
  | setSecurityOverride => cases hnone
  | _ => rfl

theorem mark_of_failed (ho : ∀ k, op.effect = some k → ¬ op.Granted o)
    (hset : ¬ ∃ userID hash, op = .setPasswordHash userID hash) (id time : ℕ) :
    w.mark id ⟨time, op, o⟩ = none := by
  cases op with
  | setPasswordHash userID hash => exact absurd ⟨userID, hash, rfl⟩ hset
  | updateBindings | updatePhone | unbindVerified | restoreUser | setSecurityOverride =>
    exact if_neg fun hdone => ho _ rfl hdone.2
  | _ => rfl

end

/-- Every operation leaves the columns of an account as its mark says. -/
theorem exec_marked (hinv : StoreInv env w) (op : Op) (id : ℕ) :
    SecurityMarked w (exec env w op).1 id (w.mark id ⟨w.now, op, (exec env w op).2⟩) := by
  by_cases hset : ∃ userID hash, op = .setPasswordHash userID hash
  · obtain ⟨userID, hash, rfl⟩ := hset
    have hchange : Change env w (.touch (.password userID hash))
        (setPasswordHash w userID hash).1 := Change.touch w _
    exact hchange.marked id
  have hperforms := exec_performs env w op
  generalize (exec env w op).1 = w', (exec env w op).2 = o at hperforms ⊢
  cases hperforms with
  | fails n o hn ho =>
    rw [mark_of_failed ho hset]
    exact (SecurityKept.of_same rfl).marked id
  | succeeds k w' o hk ho hchange =>
    rw [mark_of_effect hk ho]
    exact hchange.marked id
  | logsIn userID w' o hnone hop hlogin =>
    rw [mark_of_no_effect hnone]
    exact hlogin.marked id
  | registers v w' o hnone hcreate hlogin =>
    have hcreated : SecurityMarked w v id none := hcreate.marked id
    rw [mark_of_no_effect hnone]
    rcases hlogin with ⟨n, -, rfl⟩ | hlogin
    · exact hcreated
    · exact hcreated.then hlogin.login_keeps_security
  | cancellation userID status cancelAt o hop =>
    rw [hop]
    refine (SecurityKept.of_updated rfl ?_).marked id
    exact fun r => ⟨rfl, rfl, rfl⟩
  | codes w' o hop hstep =>
    obtain ⟨rows, events, sequence, -, rfl⟩ := hstep
    rw [mark_of_no_effect (Op.effect_of_not_isCall hop)]
    exact (SecurityKept.of_same rfl).marked id
  | reopens o hop =>
    rw [hop, openStore_of_inv hinv]
    exact (SecurityKept.of_same rfl).marked id
  | waits seconds o hop =>
    rw [hop]
    exact (SecurityKept.of_same rfl).marked id

theorem of_ite_some {c : Prop} [Decidable c] {m m' : Mark}
    (h : (if c then some m else none) = some m') : m = m' := by
  split at h
  · exact Option.some.inj h
  · cases h

/-- A change is recorded at the time of its event. -/
theorem mark_change {id t : ℕ} {e : Event} (h : w.mark id e = some (.change t)) : t = e.at' := by
  unfold World.mark at h
  split at h
  · exact (Mark.change.inj (of_ite_some h)).symm
  · exact (Mark.change.inj (of_ite_some h)).symm
  · exact (Mark.change.inj (of_ite_some h)).symm
  · exact (Mark.change.inj (of_ite_some h)).symm
  · exact (Mark.change.inj (of_ite_some h)).symm
  · cases of_ite_some h
  · cases h

theorem hasAccount_iff {id : ℕ} : w.hasAccount id = true ↔ ∃ r ∈ w.db.users.rows, r.id = id := by
  rw [World.hasAccount, List.any_eq_true]
  constructor
  · rintro ⟨r, hr, hid⟩
    exact ⟨r, hr, beq_iff_eq.mp hid⟩
  · rintro ⟨r, hr, hid⟩
    exact ⟨r, hr, beq_iff_eq.mpr hid⟩

/-- What the columns of a row keep of a history. -/
structure Shown (marks : List Mark) (r : UserRow) (now : ℕ) : Prop where
  override : r.securityOverride = (lastOverride marks).map fun safe => if safe then 1 else 0
  before : ∀ t, .change t ∈ marks → t ≤ r.securityChangedAt
  last : r.securityChangedAt = 0 ∨ .change r.securityChangedAt ∈ marks
  past : r.securityChangedAt ≤ now

theorem lastOverride_override (marks : List Mark) (safe : Bool) :
    lastOverride (marks ++ [.override safe]) = some safe := by
  unfold lastOverride
  rw [List.getLast?_concat]

theorem lastOverride_change (marks : List Mark) (t : ℕ) :
    lastOverride (marks ++ [.change t]) = none := by
  unfold lastOverride
  rw [List.getLast?_concat]

theorem Shown.nil {r : UserRow} {now : ℕ} (hchanged : r.securityChangedAt = 0)
    (hoverride : r.securityOverride = none) : Shown [] r now := by
  refine ⟨hoverride, ?_, Or.inl hchanged, hchanged ▸ Nat.zero_le now⟩
  intro t ht
  cases ht

/-- One mark, made now, and time that passes. -/
theorem Shown.append {marks : List Mark} {r r' : UserRow} {now now' : ℕ} {m : Option Mark}
    (h : Shown marks r now) (hfollows : r.Follows r' m)
    (hnow : ∀ t, m = some (.change t) → t = now) (hlater : now ≤ now') :
    Shown (marks ++ m.toList) r' now' := by
  match m, hfollows with
  | none, ⟨hchanged, hoverride⟩ =>
    rw [Option.toList_none, List.append_nil]
    refine ⟨hoverride.trans h.override, ?_, ?_, ?_⟩
    · rw [hchanged]
      exact h.before
    · rw [hchanged]
      exact h.last
    · rw [hchanged]
      exact h.past.trans hlater
  | some (.change t), ⟨hchanged, hoverride⟩ =>
    have ht : t = now := hnow t rfl
    rw [Option.toList_some]
    refine ⟨?_, ?_, ?_, ?_⟩
    · rw [lastOverride_change]
      exact hoverride
    · intro t' ht'
      rw [hchanged]
      rcases List.mem_append.mp ht' with hold | hnew
      · calc t' ≤ r.securityChangedAt := h.before t' hold
          _ ≤ now := h.past
          _ = t := ht.symm
      · cases List.mem_singleton.mp hnew
        exact le_refl t
    · rw [hchanged]
      exact Or.inr (List.mem_append.mpr (Or.inr (List.mem_singleton.mpr rfl)))
    · rw [hchanged, ht]
      exact hlater
  | some (.override safe), ⟨hchanged, hoverride⟩ =>
    rw [Option.toList_some]
    refine ⟨?_, ?_, ?_, ?_⟩
    · rw [lastOverride_override]
      exact hoverride
    · intro t ht
      rw [hchanged]
      rcases List.mem_append.mp ht with hold | hnew
      · exact h.before t hold
      · cases List.mem_singleton.mp hnew
    · rw [hchanged]
      exact h.last.imp_right fun hmem => List.mem_append.mpr (Or.inl hmem)
    · rw [hchanged]
      exact h.past.trans hlater

structure SecurityInv (id : ℕ) (w : World) (marks : List Mark) : Prop where
  rows : ∀ r ∈ w.db.users.rows, r.id = id → Shown marks r w.now
  gone : (∀ r ∈ w.db.users.rows, r.id ≠ id) → marks = []

theorem SecurityInv.fresh (env : Externals) (start id : ℕ) :
    SecurityInv id (World.fresh env start) [] := by
  rw [fresh_eq]
  refine ⟨?_, fun _ => rfl⟩
  intro r hr
  cases hr

theorem SecurityInv.exec {id : ℕ} {marks : List Mark} (h : SecurityInv id w marks)
    (hinv : StoreInv env w) (op : Op) :
    SecurityInv id (exec env w op).1
      (record w (exec env w op).1 id ⟨w.now, op, (exec env w op).2⟩ marks) := by
  have hmarked := exec_marked hinv op id
  have hlater : w.now ≤ (PapeSdk.exec env w op).1.now := (exec_grows w op).1
  constructor
  · intro r' hr' hid
    rw [record, if_pos (hasAccount_iff.mpr ⟨r', hr', hid⟩)]
    rcases hmarked r' hr' hid with ⟨r, hr, hrid, hfollows⟩ | ⟨hm, hnew, hchanged, hoverride⟩
    · exact (h.rows r hr hrid).append hfollows (fun t ht => mark_change ht) hlater
    · rw [hm, h.gone hnew]
      exact Shown.nil hchanged hoverride
  · intro hgone
    refine if_neg fun hsome => ?_
    obtain ⟨r, hr, hid⟩ := hasAccount_iff.mp hsome
    exact hgone r hr hid

theorem history_append {id : ℕ} {marks : List Mark} {log : List Event} {e : Event}
    (h : StoreRun env w log w') :
    history env id w marks (log ++ [e]) =
      record w' (exec env w' e.op).1 id e (history env id w marks log) := by
  induction log generalizing w marks with
  | nil =>
    cases h.of_nil
    rfl
  | cons first rest ih =>
    obtain ⟨v, hstep, hrest⟩ := h.of_cons
    rw [List.cons_append, history, history, hstep.2]
    exact ih hrest

theorem SecurityInv.run {start : ℕ} {log : List Event} (id : ℕ)
    (h : StoreRun env (World.fresh env start) log w) :
    StoreInv env w ∧ SecurityInv id w (history env id (World.fresh env start) [] log) := by
  refine h.history (P := fun log v => StoreInv env v ∧
    SecurityInv id v (history env id (World.fresh env start) [] log)) ?_
      ⟨StoreInv.fresh start, SecurityInv.fresh env start id⟩
  intro before v e v' hbefore hv hstep
  have hexec := hv.2.exec hv.1 e.op
  refine ⟨hv.1.step hstep, ?_⟩
  obtain ⟨time, op, outcome⟩ := e
  obtain ⟨rfl, hcall⟩ := hstep
  rw [history_append hbefore]
  dsimp only at hcall hexec ⊢
  rw [hcall] at hexec ⊢
  exact hexec

/-- The two columns answer as the history does. -/
theorem Shown.safe_iff {marks : List Mark} {r : UserRow} {now : ℕ} (h : Shown marks r now) :
    applySecurityStatus r.securityChangedAt r.securityOverride now = true ↔ SafeBy marks now := by
  have hoverride := h.override
  unfold SafeBy
  cases hlast : lastOverride marks with
  | some safe =>
    rw [hlast] at hoverride
    rw [hoverride]
    cases safe with
    | false => exact Iff.rfl
    | true => exact Iff.rfl
  | none =>
    rw [hlast] at hoverride
    rw [hoverride]
    simp only [applySecurityStatus, Option.map_none, Bool.or_eq_true, beq_iff_eq, decide_eq_true_eq]
    constructor
    · intro hcolumn t ht
      have hle := h.before t ht
      omega
    · intro hall
      rcases h.last with hzero | hmem
      · exact Or.inl hzero
      · exact hall _ hmem

/-- The safe status of a live account is the one its history asks for. -/
theorem safeStatus_iff_history {start : ℕ} {log : List Event} {r : UserRow}
    (h : StoreRun env (World.fresh env start) log w) (hr : r ∈ w.db.users.rows)
    (hlive : r.deletedAt = none) :
    ∃ safe, userSafeStatus w r.id = .ok safe ∧
      (safe = true ↔ SafeBy (history env r.id (World.fresh env start) [] log) w.now) := by
  have hshown : Shown (history env r.id (World.fresh env start) [] log) r w.now :=
    (SecurityInv.run r.id h).2.rows r hr rfl
  have hfirst : w.db.users.first? (UserRow.isLive r.id) = some r :=
    Table.first?_eq_of_unique hr (UserRow.isLive_iff.mpr ⟨rfl, hlive⟩)
      fun a ha hlivea => w.db.user_eq_of_id ha hr (UserRow.isLive_iff.mp hlivea).1
  refine ⟨applySecurityStatus r.securityChangedAt r.securityOverride w.now, ?_, hshown.safe_iff⟩
  unfold userSafeStatus
  rw [hfirst]

end

def repassworded (start : ℕ) : List Event × World :=
  execAll .unary (World.fresh .unary start)
    [.createAccount "13800000000" "" "first", .setPasswordHash firstUserID "second"]

theorem repassworded_status :
    ∃ safe, userSafeStatus (repassworded 5).2 firstUserID = .ok safe ∧
      (safe = true ↔ SafeBy (history .unary firstUserID (World.fresh .unary 5) []
        (repassworded 5).1) (repassworded 5).2.now) := by
  have hrow : ∃ r ∈ (repassworded 5).2.db.users.rows, r.id = firstUserID ∧ r.deletedAt = none := by
    decide +kernel
  obtain ⟨r, hr, hid, hlive⟩ := hrow
  have hstatus := safeStatus_iff_history (execAll_run .unary (World.fresh .unary 5)
    [.createAccount "13800000000" "" "first", .setPasswordHash firstUserID "second"]) hr hlive
  rw [hid] at hstatus
  exact hstatus

/-- A password replaced at time zero leaves the account safe at once. -/
theorem change_at_zero_safe :
    StoreRun .unary (World.fresh .unary 0) (repassworded 0).1 (repassworded 0).2 ∧
    (∃ r ∈ (repassworded 0).2.db.users.rows, r.id = firstUserID ∧ r.deletedAt = none) ∧
    history .unary firstUserID (World.fresh .unary 0) [] (repassworded 0).1 = [.change 0] ∧
    (repassworded 0).2.now < 0 + accountSecurityWindow ∧
    userSafeStatus (repassworded 0).2 firstUserID = .ok true :=
  ⟨execAll_run _ _ _, by decide +kernel, by decide +kernel, by decide +kernel, by decide +kernel⟩

end PapeSdk
