import PapeSdk.HandlerChanges
import PapeSdk.OperationEffects

/-!
How often a code is accepted. A send request stores its code once for every
scene the code may be used in, and consuming one of these rows leaves the
others open: one code is accepted as often as there are scenes. As long as no
request is answered by a copy that an earlier request left over, every accepted
code uses up a send request of its own.
-/

namespace PapeSdk

open KeyedTables Identifiers EventRuns

/-- The store with, for every completed request, the ids of the codes it inserted. -/
structure CodeState where
  world : World
  inserted : List (List ℕ)

/-- A completed request, the address whose code it accepted and the address it issued one for. -/
structure CodeEvent where
  label : ServerLabel
  accepted : Option String
  issued : Option String
  deriving DecidableEq

/-- Operations that requests outside the handlers of codes may come to. -/
def Op.isUnrelated : Op → Bool
  | .issueSMS .. | .mirrorSMS .. | .verifySMS .. | .reopen => false
  | _ => true

def insertedCodes (w w' : World) : List ℕ :=
  (w'.db.smsVerifications.rows.map SmsVerification.id).filter fun id =>
    w.db.smsVerifications.rows.all fun r => r.id != id

/-- The address whose code the verification of the plan accepts; `none` when it answers with an
error or the plan verifies no code. -/
def Plan.acceptedAddress (env : Externals) : Plan → Option String
  | .reply _ _ => none
  | .checkScene w address scene code _ =>
    match verifySMSForScene env w address scene code with
    | (_, .error _) => none
    | (_, .ok ()) => (normalizeAccount env address).toOption
  | .checkAny w address code scenes _ =>
    match verifySMSForAnyScene env w address code scenes with
    | (_, .error _) => none
    | (_, .ok ()) => (normalizeAccount env address).toOption

/-- The address whose code the request accepts in this state. -/
def acceptedAddress (cfg : AuthConfig) (env : Externals) (w : World) : ServerLabel → Option String
  | .request h r => (h.plan cfg env r w).acceptedAddress env
  | .other _ => none

def issuedAddress (w w' : World) : Option String :=
  ((w'.db.smsEvents.drop w.db.smsEvents.length).head?).map SmsEvent.phone

def CodeState.step (cfg : AuthConfig) (env : Externals) (s : CodeState) (l : ServerLabel) :
    CodeEvent × CodeState :=
  let w' := l.perform cfg env s.world
  (⟨l, acceptedAddress cfg env s.world l, issuedAddress s.world w'⟩,
    ⟨w', s.inserted ++ [insertedCodes s.world w']⟩)

def CodeStep (cfg : AuthConfig) (env : Externals) (s : CodeState) (e : CodeEvent)
    (s' : CodeState) : Prop :=
  (∀ op, e.label = .other op → op.isUnrelated = true) ∧ s.step cfg env e.label = (e, s')

/-- The row that a store's lookup finds for the address, the scenes and the code of the plan. -/
def Plan.lookup (env : Externals) (w : World) : Plan → Option ℕ
  | .reply _ _ => none
  | .checkScene _ address scene code _ => pickSMS env w address code [scene]
  | .checkAny _ address code scenes _ => pickSMS env w address code (uniqueScenes scenes)

/-- The row that the store finds for the code of a request was not inserted by a send request of
which another row is consumed. -/
def FirstUse (cfg : AuthConfig) (env : Externals) (s : CodeState) : ServerLabel → Prop
  | .request h r => ∀ id ∈ (h.plan cfg env r s.world).lookup env s.world,
      ∀ ids ∈ s.inserted, id ∈ ids →
        ∀ code ∈ s.world.db.smsVerifications.rows, code.id ∈ ids → code.consumedAt = none
  | .other _ => True

instance (cfg : AuthConfig) (env : Externals) (s : CodeState) : DecidablePred (FirstUse cfg env s)
  | .request h r => inferInstanceAs (Decidable (
      ∀ id ∈ (h.plan cfg env r s.world).lookup env s.world, ∀ ids ∈ s.inserted, id ∈ ids →
        ∀ code ∈ s.world.db.smsVerifications.rows, code.id ∈ ids → code.consumedAt = none))
  | .other _ => inferInstanceAs (Decidable True)

def FirstUseStep (cfg : AuthConfig) (env : Externals) (s : CodeState) (e : CodeEvent)
    (s' : CodeState) : Prop :=
  CodeStep cfg env s e s' ∧ FirstUse cfg env s e.label

/-- A request whose codes are for `x`. -/
def IssuedFor (x : String) (rows : List SmsVerification) (ids : List ℕ) : Bool :=
  rows.any fun r => ids.contains r.id && r.phone == x

/-- A request one of whose codes for `x` was accepted. -/
def UsedFor (x : String) (rows : List SmsVerification) (ids : List ℕ) : Bool :=
  rows.any fun r => ids.contains r.id && r.phone == x && r.consumedAt.isSome

/-- The rows are those that the requests inserted, and the counts agree: a request counts as
issued with its codes and as accepted once one of them is consumed. -/
structure CodeInv (log : List CodeEvent) (s : CodeState) : Prop where
  owned : ∀ r ∈ s.world.db.smsVerifications.rows, ∃ ids ∈ s.inserted, r.id ∈ ids
  present : ∀ ids ∈ s.inserted, ∀ id ∈ ids, ∃ r ∈ s.world.db.smsVerifications.rows, r.id = id
  apart : s.inserted.Pairwise fun a b => ∀ id ∈ a, id ∉ b
  issued : ∀ x, log.countP (fun e => e.issued == some x) =
    s.inserted.countP (IssuedFor x s.world.db.smsVerifications.rows)
  accepted : ∀ x, log.countP (fun e => e.accepted == some x) =
    s.inserted.countP (UsedFor x s.world.db.smsVerifications.rows)

section
variable {cfg : AuthConfig} {env : Externals} {request : Request} {w w' : World}
  {s s' : CodeState} {log : List CodeEvent} {e : CodeEvent}

/-- A count changes by what happens at the one place where the predicates differ. -/
theorem countP_of_one {α : Type*} {l₁ l₂ : List α} {a : α} {p q : α → Bool}
    (h : ∀ b, b ∈ l₁ ∨ b ∈ l₂ → q b = p b) :
    (l₁ ++ a :: l₂).countP q + (p a).toNat = (l₁ ++ a :: l₂).countP p + (q a).toNat := by
  have hleft : l₁.countP q = l₁.countP p :=
    List.countP_congr fun b hb => by rw [h b (Or.inl hb)]
  have hright : l₂.countP q = l₂.countP p :=
    List.countP_congr fun b hb => by rw [h b (Or.inr hb)]
  simp only [List.countP_append, List.countP_cons, hleft, hright]
  cases p a <;> cases q a <;> simp <;> omega

/-- Nothing is accepted when the lookup finds no row. -/
theorem Plan.acceptedAddress_of_none {p : Plan} (h : p.accepts env = none) :
    p.acceptedAddress env = none := by
  cases p with
  | reply w result => rfl
  | checkScene w address scene code cont =>
    simp only [accepts, pickSMS, List.findSome?_cons, List.findSome?_nil] at h
    cases hfind : findSMS env w address scene code with
    | ok id => simp [hfind, Except.toOption] at h
    | error e =>
      obtain ⟨e', he'⟩ := verifySMSForScene_of_error hfind
      simp only [acceptedAddress, he']
  | checkAny w address code scenes cont =>
    obtain ⟨e, he⟩ := (verifyScenes_of_pick none).2 h
    simp only [acceptedAddress, verifySMSForAnyScene, he]

/-- The verification accepts the row that the lookup finds, for the address of that row. -/
theorem Plan.acceptedAddress_of_some {p : Plan} {id : ℕ} (h : p.accepts env = some id) :
    p.acceptedAddress env = (normalizeAccount env p.address).toOption := by
  cases p with
  | reply w result => cases h
  | checkScene w address scene code cont =>
    simp only [accepts, pickSMS, List.findSome?_cons, List.findSome?_nil] at h
    cases hfind : findSMS env w address scene code with
    | ok id' => simp only [acceptedAddress, verifySMSForScene_of_find hfind, Plan.address]
    | error e => simp [hfind, Except.toOption] at h
  | checkAny w address code scenes cont =>
    have hverify := (verifyScenes_of_pick none).1 id h
    simp only [acceptedAddress, verifySMSForAnyScene, hverify, Plan.address]

theorem pickSMS_of_same {phone code : String} {scenes : List String} (hcodes : SameCodes w w')
    (hnow : w'.now = w.now) :
    pickSMS env w' phone code scenes = pickSMS env w phone code scenes := by
  have hfind : ∀ scene, findSMS env w' phone scene code = findSMS env w phone scene code := by
    intro scene
    unfold findSMS
    rw [hcodes.rows, hnow]
  simp only [pickSMS, hfind]

/-- What a handler does before it verifies a code does not change what is found. -/
theorem Plan.lookup_eq_accepts {p : Plan} (hcodes : SameCodes w p.world)
    (hnow : p.world.now = w.now) : p.lookup env w = p.accepts env := by
  cases p with
  | reply w result => rfl
  | checkScene | checkAny => exact (pickSMS_of_same hcodes hnow).symm

/-- A row is consumed, the other tables of codes stay. -/
def AcceptedRow (w w' : World) (r : SmsVerification) : Prop :=
  r ∈ w.db.smsVerifications.rows ∧ r.consumedAt = none ∧
    (∃ now, w'.db.smsVerifications = w.db.consumed r.id now) ∧ w'.db.smsEvents = w.db.smsEvents

/-- A request accepts no code and consumes none, or it accepts the one that it consumes. -/
theorem serve_codes (cfg : AuthConfig) (env : Externals) (request : Request) (w : World)
    (h : Handler) :
    ((h.plan cfg env request w).acceptedAddress env = none ∧
      (SameCodes w (serve cfg env h request w).1 ∨ ∃ x, Issued w (serve cfg env h request w).1 x)) ∨
    ∃ r, (h.plan cfg env request w).lookup env w = some r.id ∧
      (h.plan cfg env request w).acceptedAddress env = some r.phone ∧
      AcceptedRow w (serve cfg env h request w).1 r := by
  unfold serve
  cases hsend : h.isSend with
  | true =>
    rcases Handler.send_cases cfg env request w hsend with
      ⟨result, hplan⟩ | ⟨x, w', result, hplan, hissued⟩
    · rw [hplan]
      exact Or.inl ⟨rfl, Or.inl (SameCodes.refl w)⟩
    · rw [hplan]
      exact Or.inl ⟨rfl, Or.inr ⟨x, hissued⟩⟩
  | false =>
    have hcalls : (h.plan cfg env request w).Calls env h request w := Handler.calls hsend
    have hchanges := hcalls.follows.1
    have hbefore := hchanges.sameCodes
    cases haccepts : (h.plan cfg env request w).accepts env with
    | none =>
      rw [Plan.run_of_none haccepts]
      exact Or.inl ⟨Plan.acceptedAddress_of_none haccepts, Or.inl hbefore⟩
    | some id =>
      obtain ⟨r, hr, rfl, hphone, -, hopen, -⟩ := Plan.accepts_row haccepts
      have hafter := (hcalls.follows.2
        ((h.plan cfg env request w).world.consume r.id)).sameCodes
      rw [Plan.run_of_some haccepts]
      rw [hbefore.rows] at hr
      refine Or.inr ⟨r, (Plan.lookup_eq_accepts hbefore hchanges.now).trans haccepts, ?_, hr, hopen,
        ⟨(h.plan cfg env request w).world.now, ?_⟩, ?_⟩
      · rw [Plan.acceptedAddress_of_some haccepts, hphone]
        rfl
      · rw [hafter.rows]
        simp only [World.consume, Db.withCodes, Db.consumed, hbefore.rows]
      · rw [hafter.events]
        exact hbefore.events

theorem other_sameCodes {op : Op} (hop : op.isUnrelated = true) :
    SameCodes w (exec env w op).1 := by
  cases hcall : op.isCall with
  | true => exact (exec_changes w hcall).sameCodes
  | false =>
    cases op with
    | setCancellation userID status cancelAt =>
      simp only [exec, report_fst]
      exact ⟨rfl, rfl, rfl⟩
    | advance n => exact ⟨rfl, rfl, rfl⟩
    | reopen | issueSMS | mirrorSMS | verifySMS => cases hop
    | _ => cases hcall

theorem insertedCodes_of_old
    (h : ∀ r' ∈ w'.db.smsVerifications.rows, ∃ r ∈ w.db.smsVerifications.rows, r.id = r'.id) :
    insertedCodes w w' = [] := by
  apply List.filter_eq_nil_iff.mpr
  intro id hid
  obtain ⟨r', hr', rfl⟩ := List.mem_map.mp hid
  obtain ⟨r, hr, hsame⟩ := h r' hr'
  simp only [List.all_eq_true, bne_iff_ne, not_forall, not_not]
  exact ⟨r, hr, hsame⟩

theorem SameCodes.inserted (h : SameCodes w w') : insertedCodes w w' = [] := by
  apply insertedCodes_of_old
  intro r hr
  rw [h.rows] at hr
  exact ⟨r, hr, rfl⟩

theorem issuedAddress_of_same (h : w'.db.smsEvents = w.db.smsEvents) :
    issuedAddress w w' = none := by
  simp [issuedAddress, h]

theorem Issued.address {x : String} (h : Issued w w' x) : issuedAddress w w' = some x := by
  obtain ⟨ip, time, hevents⟩ := h.events
  simp [issuedAddress, hevents]

/-- The codes of an issue are apart from all that were there before. -/
theorem Issued.new_ids {x : String} (h : Issued w w' x) :
    ∃ new, new ≠ [] ∧ w'.db.smsVerifications.rows = w.db.smsVerifications.rows ++ new ∧
      (∀ r ∈ new, r.phone = x ∧ r.consumedAt = none) ∧
      (∀ r ∈ w.db.smsVerifications.rows, ∀ r' ∈ new, r.id ≠ r'.id) ∧
      insertedCodes w w' = new.map SmsVerification.id := by
  obtain ⟨new, hne, hrows, hall⟩ := h.rows
  have hapart : ∀ r ∈ w.db.smsVerifications.rows, ∀ r' ∈ new, r.id ≠ r'.id := by
    have hpairs := w'.db.smsVerifications.apart
    rw [hrows, List.pairwise_append] at hpairs
    intro r hr r' hr' hid
    exact hpairs.2.2 r hr r' hr' r.id (by simp [smsKeys]) (by simp [smsKeys, hid])
  refine ⟨new, hne, hrows, hall, hapart, ?_⟩
  have hold : (w.db.smsVerifications.rows.map SmsVerification.id).filter
      (fun id => w.db.smsVerifications.rows.all fun r => r.id != id) = [] := by
    apply List.filter_eq_nil_iff.mpr
    intro id hid
    obtain ⟨r, hr, rfl⟩ := List.mem_map.mp hid
    simp only [List.all_eq_true, bne_iff_ne, not_forall, not_not]
    exact ⟨r, hr, rfl⟩
  have hnew : (new.map SmsVerification.id).filter
      (fun id => w.db.smsVerifications.rows.all fun r => r.id != id) =
        new.map SmsVerification.id := by
    apply List.filter_eq_self.mpr
    intro id hid
    obtain ⟨r', hr', rfl⟩ := List.mem_map.mp hid
    simp only [List.all_eq_true, bne_iff_ne]
    exact fun r hr => hapart r hr r' hr'
  rw [insertedCodes, hrows, List.map_append, List.filter_append, hold, hnew, List.nil_append]

/-- The rows after a consumption: the consumed one and the others as they were. -/
theorem AcceptedRow.row {r r' : SmsVerification} (h : AcceptedRow w w' r)
    (hr' : r' ∈ w'.db.smsVerifications.rows) :
    (∃ now, r' = { r with consumedAt := some now }) ∨
      r' ∈ w.db.smsVerifications.rows ∧ r'.id ≠ r.id := by
  obtain ⟨hr, hopen, ⟨now, hrows⟩, -⟩ := h
  rw [hrows] at hr'
  rcases Table.of_mem_updated hr' with ⟨a, ha, hmatch, rfl⟩ | ⟨ha, hmatch⟩
  · simp only [Bool.and_eq_true, beq_iff_eq] at hmatch
    exact Or.inl ⟨now, by rw [w.db.sms_eq_of_id ha hr hmatch.1]⟩
  · refine Or.inr ⟨ha, fun hid => ?_⟩
    have hsame := w.db.sms_eq_of_id ha hr hid
    subst hsame
    simp [hopen] at hmatch

theorem AcceptedRow.mem {r a : SmsVerification} (h : AcceptedRow w w' r)
    (ha : a ∈ w.db.smsVerifications.rows) :
    ∃ a' ∈ w'.db.smsVerifications.rows, a'.id = a.id ∧ a'.phone = a.phone ∧
      (a.id = r.id → a'.consumedAt ≠ none) ∧ (a.id ≠ r.id → a' = a) := by
  obtain ⟨hr, hopen, ⟨now, hrows⟩, -⟩ := h
  refine ⟨_, by rw [hrows]; exact Table.mem_updated ha, ?_⟩
  split
  · next hmatch =>
    simp only [Bool.and_eq_true, beq_iff_eq] at hmatch
    exact ⟨rfl, rfl, fun _ => by simp, fun hne => absurd hmatch.1 hne⟩
  · next hmatch =>
    refine ⟨rfl, rfl, fun hid => ?_, fun _ => rfl⟩
    have hsame := w.db.sms_eq_of_id ha hr hid
    subst hsame
    simp [hopen] at hmatch

theorem AcceptedRow.inserted {r : SmsVerification} (h : AcceptedRow w w' r) :
    insertedCodes w w' = [] := by
  apply insertedCodes_of_old
  intro r' hr'
  rcases h.row hr' with ⟨now, rfl⟩ | ⟨hold, -⟩
  · exact ⟨r, h.1, rfl⟩
  · exact ⟨r', hold, rfl⟩

theorem issuedFor_iff {x : String} {rows : List SmsVerification} {ids : List ℕ} :
    IssuedFor x rows ids = true ↔ ∃ r ∈ rows, r.id ∈ ids ∧ r.phone = x := by
  simp [IssuedFor]

theorem usedFor_iff {x : String} {rows : List SmsVerification} {ids : List ℕ} :
    UsedFor x rows ids = true ↔ ∃ r ∈ rows, (r.id ∈ ids ∧ r.phone = x) ∧ r.consumedAt ≠ none := by
  simp [UsedFor, Option.isSome_iff_ne_none]

theorem issuedFor_of_used {x : String} {rows : List SmsVerification} {ids : List ℕ}
    (h : UsedFor x rows ids = true) : IssuedFor x rows ids = true := by
  obtain ⟨r, hr, hissued, -⟩ := usedFor_iff.mp h
  exact issuedFor_iff.mpr ⟨r, hr, hissued⟩

/-- Rows whose ids a request did not insert do not count for it. -/
theorem issuedFor_append {x : String} {rows new : List SmsVerification} {ids : List ℕ}
    (h : ∀ r ∈ new, r.id ∉ ids) : IssuedFor x (rows ++ new) ids = IssuedFor x rows ids := by
  have hnew : (new.any fun r => ids.contains r.id && r.phone == x) = false := by
    apply List.any_eq_false.mpr
    intro r hr
    simp [h r hr]
  rw [IssuedFor, List.any_append, hnew, Bool.or_false]
  rfl

theorem usedFor_append {x : String} {rows new : List SmsVerification} {ids : List ℕ}
    (h : ∀ r ∈ new, r.consumedAt = none) : UsedFor x (rows ++ new) ids = UsedFor x rows ids := by
  have hnew : (new.any fun r => ids.contains r.id && r.phone == x && r.consumedAt.isSome) =
      false := by
    apply List.any_eq_false.mpr
    intro r hr
    simp [h r hr]
  rw [UsedFor, List.any_append, hnew, Bool.or_false]
  rfl

/-- A request that inserts no code leaves the ids of the rows as they were. -/
theorem CodeInv.of_old_ids (h : CodeInv log s)
    (hids : ∀ id, (∃ r ∈ w'.db.smsVerifications.rows, r.id = id) ↔
      ∃ r ∈ s.world.db.smsVerifications.rows, r.id = id)
    (hissued : ∀ x, (log ++ [e]).countP (fun e => e.issued == some x) =
      s.inserted.countP (IssuedFor x w'.db.smsVerifications.rows))
    (haccepted : ∀ x, (log ++ [e]).countP (fun e => e.accepted == some x) =
      s.inserted.countP (UsedFor x w'.db.smsVerifications.rows)) :
    CodeInv (log ++ [e]) ⟨w', s.inserted ++ [[]]⟩ := by
  constructor
  · intro r hr
    obtain ⟨a, ha, hid⟩ := (hids r.id).mp ⟨r, hr, rfl⟩
    obtain ⟨ids, hmem, hown⟩ := h.owned a ha
    exact ⟨ids, List.mem_append_left _ hmem, hid ▸ hown⟩
  · intro ids hmem id hid
    rcases List.mem_append.mp hmem with hold | hlast
    · exact (hids id).mpr (h.present ids hold id hid)
    · rw [List.mem_singleton.mp hlast] at hid
      cases hid
  · refine List.pairwise_append.mpr ⟨h.apart, List.pairwise_singleton _ _, ?_⟩
    intro a _ b hb id _
    rw [List.mem_singleton.mp hb]
    exact List.not_mem_nil
  · intro x
    rw [hissued x, List.countP_append, List.countP_singleton]
    simp [IssuedFor]
  · intro x
    rw [haccepted x, List.countP_append, List.countP_singleton]
    simp [UsedFor]

theorem CodeInv.of_same (h : CodeInv log s) (hsame : SameCodes s.world w') (l : ServerLabel) :
    CodeInv (log ++ [⟨l, none, none⟩]) ⟨w', s.inserted ++ [[]]⟩ := by
  apply h.of_old_ids (fun id => by rw [hsame.rows])
  · intro x
    rw [hsame.rows]
    simp [List.countP_append, h.issued x]
  · intro x
    rw [hsame.rows]
    simp [List.countP_append, h.accepted x]

/-- A request that issues a code counts as issued for the address of the code alone. -/
theorem Issued.issuedFor_own {x y : String} (h : Issued w w' x) :
    IssuedFor y w'.db.smsVerifications.rows (insertedCodes w w') = (some x == some y) := by
  obtain ⟨new, hne, hrows, hall, hapart, hids⟩ := h.new_ids
  rw [Bool.eq_iff_iff, issuedFor_iff, hids, hrows, beq_iff_eq, Option.some.injEq]
  constructor
  · rintro ⟨r, hr, hid, rfl⟩
    obtain ⟨a, ha, hsame⟩ := List.mem_map.mp hid
    rcases List.mem_append.mp hr with hr | hr
    · exact absurd hsame.symm (hapart r hr a ha)
    · exact (hall r hr).1.symm
  · rintro rfl
    obtain ⟨r, hr⟩ := List.exists_mem_of_ne_nil new hne
    exact ⟨r, List.mem_append_right _ hr, List.mem_map_of_mem hr, (hall r hr).1⟩

/-- It is not used yet. -/
theorem Issued.usedFor_own {x y : String} (h : Issued w w' x) :
    UsedFor y w'.db.smsVerifications.rows (insertedCodes w w') = false := by
  obtain ⟨new, -, hrows, hall, hapart, hids⟩ := h.new_ids
  rw [← Bool.not_eq_true, usedFor_iff, hids, hrows]
  rintro ⟨r, hr, ⟨hid, -⟩, hconsumed⟩
  obtain ⟨a, ha, hsame⟩ := List.mem_map.mp hid
  rcases List.mem_append.mp hr with hr | hr
  · exact hapart r hr a ha hsame.symm
  · exact hconsumed (hall r hr).2

theorem CodeInv.of_issued (h : CodeInv log s) {x : String} (hissued : Issued s.world w' x)
    (l : ServerLabel) :
    CodeInv (log ++ [⟨l, none, some x⟩])
      ⟨w', s.inserted ++ [insertedCodes s.world w']⟩ := by
  obtain ⟨new, -, hrows, hall, hapart, hids⟩ := hissued.new_ids
  have hforeign : ∀ ids ∈ s.inserted, ∀ r ∈ new, r.id ∉ ids := by
    intro ids hmem r hr hid
    obtain ⟨a, ha, hsame⟩ := h.present ids hmem r.id hid
    exact hapart a ha r hr hsame
  constructor
  · intro r hr
    rw [hrows] at hr
    rcases List.mem_append.mp hr with hold | hnew
    · obtain ⟨ids, hmem, hid⟩ := h.owned r hold
      exact ⟨ids, List.mem_append_left _ hmem, hid⟩
    · refine ⟨insertedCodes s.world w', by simp, ?_⟩
      rw [hids]
      exact List.mem_map_of_mem hnew
  · intro ids hmem id hid
    rw [hrows]
    rcases List.mem_append.mp hmem with hold | hlast
    · obtain ⟨r, hr, hsame⟩ := h.present ids hold id hid
      exact ⟨r, List.mem_append_left _ hr, hsame⟩
    · rw [List.mem_singleton.mp hlast, hids] at hid
      obtain ⟨r, hr, hsame⟩ := List.mem_map.mp hid
      exact ⟨r, List.mem_append_right _ hr, hsame⟩
  · refine List.pairwise_append.mpr ⟨h.apart, List.pairwise_singleton _ _, ?_⟩
    intro a ha b hb id hid hid'
    rw [List.mem_singleton.mp hb, hids] at hid'
    obtain ⟨r, hr, rfl⟩ := List.mem_map.mp hid'
    exact hforeign a ha r hr hid
  · intro y
    have hold : s.inserted.countP (IssuedFor y w'.db.smsVerifications.rows) =
        s.inserted.countP (IssuedFor y s.world.db.smsVerifications.rows) := by
      apply List.countP_congr
      intro ids hmem
      rw [hrows, issuedFor_append (hforeign ids hmem)]
    rw [List.countP_append, List.countP_append, hold, h.issued y, List.countP_singleton,
      List.countP_singleton, hissued.issuedFor_own]
  · intro y
    have hold : s.inserted.countP (UsedFor y w'.db.smsVerifications.rows) =
        s.inserted.countP (UsedFor y s.world.db.smsVerifications.rows) := by
      apply List.countP_congr
      intro ids _
      rw [hrows, usedFor_append fun r hr => (hall r hr).2]
    rw [List.countP_append, List.countP_append, hold, h.accepted y, List.countP_singleton,
      List.countP_singleton, hissued.usedFor_own]
    rfl

/-- A consumption changes nothing in what was issued. -/
theorem AcceptedRow.issuedFor {r : SmsVerification} (h : AcceptedRow w w' r) {x : String}
    {ids : List ℕ} : IssuedFor x w'.db.smsVerifications.rows ids =
      IssuedFor x w.db.smsVerifications.rows ids := by
  rw [Bool.eq_iff_iff, issuedFor_iff, issuedFor_iff]
  constructor
  · rintro ⟨a, ha, hid, hphone⟩
    rcases h.row ha with ⟨now, rfl⟩ | ⟨hold, -⟩
    · exact ⟨r, h.1, hid, hphone⟩
    · exact ⟨a, hold, hid, hphone⟩
  · rintro ⟨a, ha, hid, hphone⟩
    obtain ⟨a', ha', hsame, hphone', -⟩ := h.mem ha
    exact ⟨a', ha', by rw [hsame]; exact hid, hphone'.trans hphone⟩

/-- A request that did not insert the consumed row is used as it was before. -/
theorem AcceptedRow.usedFor_other {r : SmsVerification} (h : AcceptedRow w w' r) {x : String}
    {ids : List ℕ} (hnot : r.id ∉ ids) : UsedFor x w'.db.smsVerifications.rows ids =
      UsedFor x w.db.smsVerifications.rows ids := by
  rw [Bool.eq_iff_iff, usedFor_iff, usedFor_iff]
  constructor
  · rintro ⟨a, ha, ⟨hid, hphone⟩, hconsumed⟩
    rcases h.row ha with ⟨now, rfl⟩ | ⟨hold, -⟩
    · exact absurd hid hnot
    · exact ⟨a, hold, ⟨hid, hphone⟩, hconsumed⟩
  · rintro ⟨a, ha, ⟨hid, hphone⟩, hconsumed⟩
    obtain ⟨a', ha', -, -, -, hsame⟩ := h.mem ha
    have hkept := hsame fun heq => hnot (heq ▸ hid)
    subst hkept
    exact ⟨a', ha', ⟨hid, hphone⟩, hconsumed⟩

/-- The request that inserted the consumed row is used for the address of this row. -/
theorem AcceptedRow.usedFor_own {r : SmsVerification} (h : AcceptedRow w w' r) {x : String}
    {ids : List ℕ} (hmem : r.id ∈ ids)
    (hfirst : ∀ a ∈ w.db.smsVerifications.rows, a.id ∈ ids → a.consumedAt = none) :
    UsedFor x w'.db.smsVerifications.rows ids = (some r.phone == some x) := by
  rw [Bool.eq_iff_iff, usedFor_iff, beq_iff_eq, Option.some.injEq]
  constructor
  · rintro ⟨a, ha, ⟨hid, hphone⟩, hconsumed⟩
    rcases h.row ha with ⟨now, rfl⟩ | ⟨hold, -⟩
    · exact hphone
    · exact absurd (hfirst a hold hid) hconsumed
  · rintro rfl
    obtain ⟨a', ha', hid, hphone, hconsumed, -⟩ := h.mem h.1
    exact ⟨a', ha', ⟨by rw [hid]; exact hmem, hphone⟩, hconsumed rfl⟩

/-- A first use moves one request, and no other, from issued to accepted. -/
theorem CodeInv.of_accepted (h : CodeInv log s) {r : SmsVerification}
    (haccepted : AcceptedRow s.world w' r)
    (hfirst : ∀ ids ∈ s.inserted, r.id ∈ ids →
      ∀ a ∈ s.world.db.smsVerifications.rows, a.id ∈ ids → a.consumedAt = none) (l : ServerLabel) :
    CodeInv (log ++ [⟨l, some r.phone, none⟩]) ⟨w', s.inserted ++ [[]]⟩ := by
  apply h.of_old_ids
  · intro id
    constructor
    · rintro ⟨a, ha, rfl⟩
      rcases haccepted.row ha with ⟨now, rfl⟩ | ⟨hold, -⟩
      · exact ⟨r, haccepted.1, rfl⟩
      · exact ⟨a, hold, rfl⟩
    · rintro ⟨a, ha, rfl⟩
      obtain ⟨a', ha', hid, -⟩ := haccepted.mem ha
      exact ⟨a', ha', hid⟩
  · intro x
    have hsame : IssuedFor x w'.db.smsVerifications.rows =
        IssuedFor x s.world.db.smsVerifications.rows := funext fun _ => haccepted.issuedFor
    rw [hsame]
    simp [List.countP_append, h.issued x]
  · intro x
    obtain ⟨ids, hids, hmem⟩ := h.owned r haccepted.1
    obtain ⟨before, after, hsplit⟩ := List.append_of_mem hids
    have hother : ∀ b, b ∈ before ∨ b ∈ after → UsedFor x w'.db.smsVerifications.rows b =
        UsedFor x s.world.db.smsVerifications.rows b := by
      intro b hb
      apply haccepted.usedFor_other
      have hapart := h.apart
      rw [hsplit, List.pairwise_append, List.pairwise_cons] at hapart
      rcases hb with hb | hb
      · exact fun hid => hapart.2.2 b hb ids List.mem_cons_self r.id hid hmem
      · exact hapart.2.1.1 b hb r.id hmem
    have hunused : UsedFor x s.world.db.smsVerifications.rows ids = false := by
      rw [← Bool.not_eq_true, usedFor_iff]
      rintro ⟨a, ha, ⟨hid, -⟩, hconsumed⟩
      exact hconsumed (hfirst ids hids hmem a ha hid)
    have hcount := countP_of_one (a := ids) hother
    rw [← hsplit, hunused, haccepted.usedFor_own hmem (hfirst ids hids hmem)] at hcount
    rw [List.countP_append, h.accepted x, List.countP_singleton]
    cases hsame : some r.phone == some x with
    | true =>
      rw [hsame] at hcount
      simpa using hcount.symm
    | false =>
      rw [hsame] at hcount
      simpa using hcount.symm

theorem CodeInv.step (h : CodeInv log s) (hstep : FirstUseStep cfg env s e s') :
    CodeInv (log ++ [e]) s' := by
  obtain ⟨⟨hother, hstep⟩, hfirst⟩ := hstep
  obtain ⟨l, accepted, issued⟩ := e
  simp only [CodeState.step, Prod.mk.injEq, CodeEvent.mk.injEq, true_and] at hstep
  obtain ⟨⟨haccepted, rfl⟩, rfl⟩ := hstep
  cases l with
  | other op =>
    have hsame : SameCodes s.world (exec env s.world op).1 := other_sameCodes (hother op rfl)
    simp only [ServerLabel.perform, ← haccepted, acceptedAddress]
    rw [issuedAddress_of_same hsame.events, hsame.inserted]
    exact h.of_same hsame _
  | request handler request =>
    simp only [ServerLabel.perform]
    rcases serve_codes cfg env request s.world handler with
      ⟨hnone, hsame | ⟨x, hissued⟩⟩ | ⟨r, hlookup, hsome, hrow⟩
    · rw [← haccepted, acceptedAddress, hnone, issuedAddress_of_same hsame.events, hsame.inserted]
      exact h.of_same hsame _
    · rw [← haccepted, acceptedAddress, hnone, hissued.address]
      exact h.of_issued hissued _
    · rw [← haccepted, acceptedAddress, hsome, issuedAddress_of_same hrow.2.2.2, hrow.inserted]
      exact h.of_accepted hrow (hfirst r.id hlookup) _

/-- In every run of requests that use no left-over copy, an address has no more codes accepted
than were issued for it. -/
theorem accepted_at_most_issued
    (hrun : Run (FirstUseStep cfg env) ⟨w, []⟩ log s) (hempty : w.db.smsVerifications.rows = [])
    (x : String) :
    log.countP (fun e => e.accepted == some x) ≤ log.countP (fun e => e.issued == some x) := by
  have hstart : CodeInv [] ⟨w, []⟩ := by
    refine ⟨?_, ?_, List.Pairwise.nil, fun _ => rfl, fun _ => rfl⟩
    · intro r hr
      rw [hempty] at hr
      cases hr
    · intro ids hids
      cases hids
  have hinv : CodeInv log s :=
    hrun.history (P := CodeInv) (fun _ hinv hstep => hinv.step hstep) hstart
  rw [hinv.accepted x, hinv.issued x]
  exact List.countP_mono_left fun ids _ => issuedFor_of_used

end

/-- The history and the final state of a list of requests. -/
def CodeState.serveAll (cfg : AuthConfig) (env : Externals) (s : CodeState) :
    List (Handler × Request) → List CodeEvent × CodeState
  | [] => ([], s)
  | (h, r) :: rest =>
    let (e, s') := s.step cfg env (.request h r)
    let (log, s'') := s'.serveAll cfg env rest
    (e :: log, s'')

theorem CodeState.serveAll_run (cfg : AuthConfig) (env : Externals) (s : CodeState)
    (requests : List (Handler × Request)) :
    Run (CodeStep cfg env) s (s.serveAll cfg env requests).1 (s.serveAll cfg env requests).2 := by
  induction requests generalizing s with
  | nil => exact Run.refl s
  | cons request rest ih =>
    obtain ⟨h, r⟩ := request
    refine Run.append (Run.single ⟨?_, rfl⟩) (ih (s.step cfg env (.request h r)).2)
    intro op hop
    cases hop

/-- Every request of the list is answered by a first use. -/
def CodeState.allFirstUse (cfg : AuthConfig) (env : Externals) (s : CodeState) :
    List (Handler × Request) → Bool
  | [] => true
  | (h, r) :: rest => decide (FirstUse cfg env s (.request h r)) &&
      (s.step cfg env (.request h r)).2.allFirstUse cfg env rest

theorem CodeState.serveAll_firstUse {cfg : AuthConfig} {env : Externals} {s : CodeState}
    (requests : List (Handler × Request)) (h : s.allFirstUse cfg env requests = true) :
    Run (FirstUseStep cfg env) s (s.serveAll cfg env requests).1
      (s.serveAll cfg env requests).2 := by
  induction requests generalizing s with
  | nil => exact Run.refl s
  | cons request rest ih =>
    obtain ⟨handler, r⟩ := request
    simp only [allFirstUse, Bool.and_eq_true, decide_eq_true_eq] at h
    refine Run.append (Run.single ⟨⟨?_, rfl⟩, h.1⟩) (ih h.2)
    intro op hop
    cases hop

/-- A code that is sent and used once. -/
theorem code_used_once :
    (CodeState.serveAll openConfig .unary ⟨World.fresh .unary 0, []⟩
      [(.sendCode, sendRequest), (.userLogin, loginRequest)]).1.countP
        (fun e => e.accepted == some "13800000000") ≤
    (CodeState.serveAll openConfig .unary ⟨World.fresh .unary 0, []⟩
      [(.sendCode, sendRequest), (.userLogin, loginRequest)]).1.countP
        (fun e => e.issued == some "13800000000") :=
  accepted_at_most_issued (CodeState.serveAll_firstUse _ (by decide +kernel)) rfl "13800000000"

/-- One send request is enough for two logins with the same code. -/
theorem code_accepted_twice :
    ¬ ∀ cfg env w log s, Run (CodeStep cfg env) ⟨w, []⟩ log s →
      w.db.smsVerifications.rows = [] →
      ∀ x, log.countP (fun e => e.accepted == some x) ≤
        log.countP (fun e => e.issued == some x) := by
  intro h
  have hcount := h openConfig .unary (World.fresh .unary 0) _ _
    (CodeState.serveAll_run openConfig .unary ⟨World.fresh .unary 0, []⟩
      [(.sendCode, sendRequest), (.userLogin, loginRequest), (.userLogin, loginRequest)]) rfl
    "13800000000"
  revert hcount
  decide +kernel

end PapeSdk
