import PapeSdk.StoreInvariant

/-!
Account ids over the life of a store file. The next id follows the sequence
value, which only grows, except at a restart that finds no account: the
sequence then starts again, and ids that deleted accounts had are handed out a
second time. Ids grow for good in every history without such a restart.
-/

namespace PapeSdk

open KeyedTables EventRuns

def Db.sequence (db : Db) : ℕ := db.userSequence.getD 0

/-- Some account had this id at some point of the history. -/
def GivenOut (env : Externals) (start : ℕ) (log : List Event) (id : ℕ) : Prop :=
  ∃ before after w, log = before ++ after ∧ StoreRun env (World.fresh env start) before w ∧
    ∃ r ∈ w.db.users.rows, r.id = id

/-- Every account that is new in `w'` has a greater id than any account before it. -/
def NewIdsGrow (env : Externals) (start : ℕ) (log : List Event) (w w' : World) : Prop :=
  ∀ r ∈ w'.db.users.rows, (∀ a ∈ w.db.users.rows, a.id ≠ r.id) →
    ∀ id, GivenOut env start log id → id < r.id

/-- A restart meets an account, or a sequence from which no id was taken yet. -/
def KeepsSequence (w : World) (e : Event) : Prop :=
  e.op = .reopen → w.db.users.rows ≠ [] ∨ w.db.sequence < firstUserID

/-- A step whose restart, if it is one, keeps the sequence. -/
def CarefulStep (env : Externals) (w : World) (e : Event) (w' : World) : Prop :=
  StoreStep env w e w' ∧ KeepsSequence w e

/-- What an operation does to ids: rows keep theirs, new rows go beyond the old sequence. -/
structure IdStep (w w' : World) : Prop where
  sequence : w.db.sequence ≤ w'.db.sequence
  rows : ∀ r' ∈ w'.db.users.rows, (∃ r ∈ w.db.users.rows, r.id = r'.id) ∨
    w.db.sequence < r'.id ∧ r'.id ≤ w'.db.sequence

section
variable {env : Externals} {w w' w'' : World}

theorem IdStep.trans (h : IdStep w w') (h' : IdStep w' w'') : IdStep w w'' := by
  refine ⟨le_trans h.sequence h'.sequence, ?_⟩
  intro r'' hr''
  have hseq := h.sequence
  have hseq' := h'.sequence
  rcases h'.rows r'' hr'' with ⟨r', hr', hid'⟩ | ⟨hlow, hhigh⟩
  · rcases h.rows r' hr' with ⟨r, hr, hid⟩ | ⟨hlow, hhigh⟩
    · exact Or.inl ⟨r, hr, hid.trans hid'⟩
    · exact Or.inr ⟨by omega, by omega⟩
  · exact Or.inr ⟨by omega, hhigh⟩

theorem IdStep.of_sub (hsequence : w'.db.userSequence = w.db.userSequence)
    (hrows : ∀ r' ∈ w'.db.users.rows, ∃ r ∈ w.db.users.rows, r.id = r'.id) : IdStep w w' := by
  refine ⟨?_, fun r' hr' => Or.inl (hrows r' hr')⟩
  rw [Db.sequence, Db.sequence, hsequence]

theorem IdStep.of_updated {p : UserRow → Bool} {f : UserRow → UserRow}
    (hsequence : w'.db.userSequence = w.db.userSequence)
    (hrows : w'.db.users.rows = w.db.users.rows.map fun r => if p r then f r else r)
    (hid : ∀ r, (f r).id = r.id) : IdStep w w' := by
  apply IdStep.of_sub hsequence
  intro r' hr'
  rw [hrows] at hr'
  rcases Table.of_mem_updated hr' with ⟨a, ha, -, rfl⟩ | ⟨ha, -⟩
  · exact ⟨a, ha, (hid a).symm⟩
  · exact ⟨r', ha, rfl⟩

theorem Change.idStep {k : Effect} (h : Change env w k w') : IdStep w w' := by
  cases h with
  | draw | comet | revokeSession => exact IdStep.of_sub rfl fun r hr => ⟨r, hr, rfl⟩
  | touch t => exact IdStep.of_updated rfl rfl fun r => (t.quiet w.now r).id
  | login | refresh | revokeTokens => exact IdStep.of_updated rfl rfl fun _ => rfl
  | rebind row phone email users hrow hlive hbound husers =>
    exact IdStep.of_updated rfl (Table.update?_rows husers) fun _ => rfl
  | delete p userID now users hp husers =>
    exact IdStep.of_updated rfl (Table.update?_rows husers) fun _ => rfl
  | restore id phone users hphone husers =>
    exact IdStep.of_updated rfl (Table.update?_rows husers) fun _ => rfl
  | hardDelete id => exact IdStep.of_sub rfl fun r hr => ⟨r, (Table.mem_delete.mp hr).1, rfl⟩
  | create row users husers =>
    have hnext : w.db.sequence < w.db.nextUserID := sequence_lt_nextID _ _
    refine ⟨le_of_lt hnext, ?_⟩
    intro r' hr'
    rcases (Table.mem_insert? husers).mp hr' with hold | rfl
    · exact Or.inl ⟨r', hold, rfl⟩
    · exact Or.inr ⟨hnext, le_refl _⟩

theorem Changes.idStep (h : Changes env w w') : IdStep w w' := by
  induction h with
  | refl => exact IdStep.of_sub rfl fun r hr => ⟨r, hr, rfl⟩
  | tail _ hchange ih =>
    obtain ⟨k, hchange⟩ := hchange
    exact ih.trans hchange.idStep

theorem reopened_idStep
    (hkeeps : w.db.users.rows ≠ [] ∨ w.db.sequence < firstUserID) :
    IdStep w { w with db := w.db.reopened } := by
  refine ⟨?_, fun r hr => Or.inl ⟨r, hr, rfl⟩⟩
  by_cases hempty : w.db.users.rows = []
  · have hlow := hkeeps.resolve_left fun hne => hne hempty
    simp only [Db.reopened, Db.sequence, if_pos hempty, Option.getD_some] at hlow ⊢
    omega
  · simp [Db.reopened, Db.sequence, if_neg hempty]

theorem StoreStep.idStep (hinv : StoreInv env w) {e : Event} (hstep : StoreStep env w e w')
    (hkeeps : KeepsSequence w e) : IdStep w w' := by
  obtain ⟨time, op, outcome⟩ := e
  have hworld := congrArg Prod.fst hstep.2
  simp only at hworld
  rw [← hworld]
  refine exec_cases (fun _ hchanges => hchanges.idStep) (fun userID status cancelAt _ => ?_)
    (fun rows events sequence _ => ?_) (fun hop => ?_) (fun seconds _ => ?_)
  · exact IdStep.of_updated rfl rfl fun _ => rfl
  · exact IdStep.of_sub rfl fun r hr => ⟨r, hr, rfl⟩
  · rw [openStore_of_inv hinv]
    exact reopened_idStep (hkeeps hop)
  · exact IdStep.of_sub rfl fun r hr => ⟨r, hr, rfl⟩

theorem CarefulStep.run {start : ℕ} {log : List Event}
    (h : Run (CarefulStep env) (World.fresh env start) log w) :
    StoreRun env (World.fresh env start) log w :=
  h.mono fun _ _ _ hstep => hstep.1

/-- In a careful history no id beyond the sequence was ever given out. -/
theorem givenOut_le_sequence {start : ℕ} {log : List Event}
    (hrun : Run (CarefulStep env) (World.fresh env start) log w) :
    ∀ id, GivenOut env start log id → id ≤ w.db.sequence := by
  apply hrun.history (P := fun log w => ∀ id, GivenOut env start log id → id ≤ w.db.sequence)
  · intro before a e b hbefore hlaw hstep id hgiven
    have hinv : StoreInv env a := StoreInv.run (CarefulStep.run hbefore)
    have hids := hstep.1.idStep hinv hstep.2
    have hseq := hids.sequence
    obtain ⟨left, right, v, hsplit, hleft, r, hr, rfl⟩ := hgiven
    rcases List.eq_nil_or_concat right with rfl | ⟨right', e', rfl⟩
    · rw [List.append_nil] at hsplit
      subst hsplit
      have hsame : b = v :=
        (CarefulStep.run (Run.tail hbefore hstep)).unique hleft fun _ _ _ _ h h' => h.unique h'
      subst hsame
      rcases hids.rows r hr with ⟨r₀, hr₀, hid⟩ | ⟨-, hle⟩
      · have hold := hlaw r₀.id ⟨before, [], a, by simp, CarefulStep.run hbefore, r₀, hr₀, rfl⟩
        omega
      · exact hle
    · rw [List.concat_eq_append, ← List.append_assoc] at hsplit
      obtain ⟨hbefore', -⟩ := List.append_inj' hsplit rfl
      have hold := hlaw r.id ⟨left, right', v, hbefore', hleft, r, hr, rfl⟩
      omega
  · rintro id ⟨left, right, v, hsplit, hleft, r, hr, rfl⟩
    obtain ⟨rfl, -⟩ := List.append_eq_nil_iff.mp hsplit.symm
    cases hleft.of_nil
    rw [fresh_eq] at hr
    cases hr

/-- Without a restart of an emptied store, new ids exceed all ids ever given out. -/
theorem new_ids_grow {start : ℕ} {log : List Event} {e : Event}
    (hrun : Run (CarefulStep env) (World.fresh env start) log w) (hstep : CarefulStep env w e w') :
    NewIdsGrow env start log w w' := by
  have hinv : StoreInv env w := StoreInv.run (CarefulStep.run hrun)
  intro r hr hnew id hgiven
  have hle := givenOut_le_sequence hrun id hgiven
  rcases (hstep.1.idStep hinv hstep.2).rows r hr with ⟨r₀, hr₀, hid⟩ | ⟨hlt, -⟩
  · exact absurd hid (hnew r₀ hr₀)
  · omega

end

/-- A second account after a restart that met the first one. -/
theorem second_id_grows :
    NewIdsGrow .unary 0 (execAll .unary (World.fresh .unary 0)
        [.createAccount "13800000000" "" "", .reopen]).1
      (execAll .unary (World.fresh .unary 0) [.createAccount "13800000000" "" "", .reopen]).2
      (execAll .unary (World.fresh .unary 0)
        [.createAccount "13800000000" "" "", .reopen, .createAccount "13900000000" "" ""]).2 := by
  have hfirst : Run (CarefulStep .unary) (World.fresh .unary 0)
      (execAll .unary (World.fresh .unary 0) [.createAccount "13800000000" "" ""]).1
      (execAll .unary (World.fresh .unary 0) [.createAccount "13800000000" "" ""]).2 := by
    refine Run.single ⟨⟨rfl, rfl⟩, ?_⟩
    intro hop
    cases hop
  have hreopened : Run (CarefulStep .unary) (World.fresh .unary 0)
      (execAll .unary (World.fresh .unary 0) [.createAccount "13800000000" "" "", .reopen]).1
      (execAll .unary (World.fresh .unary 0) [.createAccount "13800000000" "" "", .reopen]).2 := by
    refine Run.append hfirst (Run.single ⟨⟨rfl, rfl⟩, ?_⟩)
    intro _
    exact Or.inl (by decide)
  refine new_ids_grow hreopened (e := ⟨_, .createAccount "13900000000" "" "", _⟩) ⟨⟨rfl, rfl⟩, ?_⟩
  intro hop
  cases hop

/-- The id of a hard-deleted last account is given to the next one after a restart. -/
theorem id_reused_after_restart :
    ¬ ∀ (env : Externals) (start : ℕ) (log : List Event) (w w' : World) (e : Event),
      StoreRun env (World.fresh env start) log w → StoreStep env w e w' →
        NewIdsGrow env start log w w' := by
  intro hclaim
  have hrun := execAll_run .unary (World.fresh .unary 0)
    [.createAccount "13800000000" "" "", .hardDeleteUser 100000001, .reopen]
  have hgrow := hclaim _ _ _ _ _ ⟨_, .createAccount "13900000000" "" "", _⟩ hrun ⟨rfl, rfl⟩
  have hcreated := execAll_run .unary (World.fresh .unary 0) [.createAccount "13800000000" "" ""]
  have hgiven : GivenOut .unary 0 (execAll .unary (World.fresh .unary 0)
      [.createAccount "13800000000" "" "", .hardDeleteUser 100000001, .reopen]).1 100000001 :=
    ⟨_, _, _, rfl, hcreated, by decide⟩
  have hnew : ∀ a ∈ (execAll .unary (World.fresh .unary 0)
      [.createAccount "13800000000" "" "", .hardDeleteUser 100000001, .reopen]).2.db.users.rows,
      a.id ≠ 100000001 := by decide
  obtain ⟨r, hr, hid⟩ : ∃ r ∈ (execAll .unary (World.fresh .unary 0)
      [.createAccount "13800000000" "" "", .hardDeleteUser 100000001, .reopen,
        .createAccount "13900000000" "" ""]).2.db.users.rows, r.id = 100000001 := by decide
  have hlt := hgrow r hr (by rw [hid]; exact hnew) 100000001 hgiven
  rw [hid] at hlt
  exact lt_irrefl _ hlt

end PapeSdk
