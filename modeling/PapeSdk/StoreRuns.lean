import PapeSdk.EventRuns
import PapeSdk.Startup
import PapeSdk.Verifications

/-!
The store as a state machine. An operation is one completed call of an
exported method that writes the database, a close and reopen of the file, or
the passing of time. A run from a fresh store keeps the operations with their
outcomes and the time of each.
-/

namespace PapeSdk

open EventRuns

inductive Op
  | getOrCreateUser (phone : String)
  | createUser (phone : String)
  | createAccount (phone email hash : String)
  | createLoginSession (userID : ℕ)
  | refreshByToken (refreshToken : String)
  | revokeSessionByToken (token : String)
  | revokeTokens (userID : ℕ)
  | updateBindings (id : ℕ) (phone email : Option String)
  | updatePhone (userID : ℕ) (account : String)
  | unbindVerified (id : ℕ) (kind retained : String)
  | setPasswordHash (userID : ℕ) (hash : String)
  | setSecurityOverride (id : ℕ) (safe : Bool)
  | setLongToken (userID : ℕ) (token : String)
  | setCancellation (userID status cancelAt : ℕ)
  | completeCancellation (userID now : ℕ)
  | deleteUser (userID : ℕ)
  | restoreUser (id : ℕ) (phone : String)
  | hardDeleteUser (id : ℕ)
  | issueSMS (phone scene code ip : String)
  | mirrorSMS (phone scene code ip : String)
  | verifySMS (phone scene code : String)
  | createCometSession (userID : ℕ)
  | reopen
  | advance (seconds : ℕ)
  deriving DecidableEq, Repr

inductive Outcome
  | failed (info : String)
  | done
  | flag (value : Bool)
  /-- A new account that has no session yet. -/
  | account (u : User)
  /-- An account with the token pair just issued, and whether it is new. -/
  | session (u : User) (created : Bool)
  deriving DecidableEq, Repr

def report {α : Type} (f : α → Outcome) (r : World × Except String α) : World × Outcome :=
  match r with
  | (w, .error e) => (w, .failed e)
  | (w, .ok a) => (w, f a)

def exec (env : Externals) (w : World) : Op → World × Outcome
  | .getOrCreateUser phone => report (fun r => .session r.1 r.2) (getOrCreateUser env w phone)
  | .createUser phone => report (.session · true) (createUser env w phone)
  | .createAccount phone email hash => report .account (createAccount env w phone email hash)
  | .createLoginSession userID => report (.session · false) (createLoginSession env w userID)
  | .refreshByToken token => report (fun r => .session r.1 false) (refreshByToken env w token)
  | .revokeSessionByToken token => report (fun _ => .done) (revokeSessionByToken w token)
  | .revokeTokens userID => report (fun _ => .done) (revokeTokens w userID)
  | .updateBindings id phone email => report (fun _ => .done) (updateBindings env w id phone email)
  | .updatePhone userID account => report (fun _ => .done) (updatePhone env w userID account)
  | .unbindVerified id kind retained =>
    report (fun _ => .done) (unbindVerified env w id kind retained)
  | .setPasswordHash userID hash => report (fun _ => .done) (setPasswordHash w userID hash)
  | .setSecurityOverride id safe => report (fun _ => .done) (setSecurityOverride w id safe)
  | .setLongToken userID token => report (fun _ => .done) (setLongToken w userID token)
  | .setCancellation userID status cancelAt =>
    report (fun _ => .done) (setCancellation w userID status cancelAt)
  | .completeCancellation userID now => report .flag (completeCancellation w userID now)
  | .deleteUser userID => report (fun _ => .done) (deleteUser w userID)
  | .restoreUser id phone => report (fun _ => .done) (restoreUser env w id phone)
  | .hardDeleteUser id => report (fun _ => .done) (hardDeleteUser w id)
  | .issueSMS phone scene code ip => report (fun _ => .done) (issueSMS env w phone scene code ip)
  | .mirrorSMS phone scene code ip => report (fun _ => .done) (mirrorSMS env w phone scene code ip)
  | .verifySMS phone scene code => report (fun _ => .done) (verifySMS env w phone scene code)
  | .createCometSession userID => report (fun _ => .done) (createCometSession env w userID)
  | .reopen => report (fun _ => .done) (openStore env w)
  | .advance seconds => ({ w with now := w.now + seconds }, .done)

structure Event where
  at' : ℕ
  op : Op
  outcome : Outcome
  deriving DecidableEq, Repr

def StoreStep (env : Externals) (w : World) (e : Event) (w' : World) : Prop :=
  e.at' = w.now ∧ exec env w e.op = (w', e.outcome)

abbrev StoreRun (env : Externals) : World → List Event → World → Prop := Run (StoreStep env)

theorem StoreStep.unique {env : Externals} {w v v' : World} {e : Event} (h : StoreStep env w e v)
    (h' : StoreStep env w e v') : v = v' := by
  have heq := h.2.symm.trans h'.2
  exact congrArg Prod.fst heq

/-- The history and the final state of a list of operations. -/
def execAll (env : Externals) (w : World) : List Op → List Event × World
  | [] => ([], w)
  | op :: rest =>
    let (w', outcome) := exec env w op
    let (log, w'') := execAll env w' rest
    (⟨w.now, op, outcome⟩ :: log, w'')

theorem execAll_run (env : Externals) (w : World) (ops : List Op) :
    StoreRun env w (execAll env w ops).1 (execAll env w ops).2 := by
  induction ops generalizing w with
  | nil => exact Run.refl w
  | cons op rest ih => exact Run.append (Run.single ⟨rfl, rfl⟩) (ih (exec env w op).1)

theorem report_cases {α : Type} {f : α → Outcome} {r : World × Except String α} {w : World}
    {o : Outcome} (h : report f r = (w, o)) :
    (∃ e, r = (w, .error e) ∧ o = .failed e) ∨ ∃ a, r = (w, .ok a) ∧ o = f a := by
  obtain ⟨w', result⟩ := r
  cases result with
  | error e =>
    cases h
    exact Or.inl ⟨e, rfl, rfl⟩
  | ok a =>
    cases h
    exact Or.inr ⟨a, rfl, rfl⟩

@[simp] theorem report_fst {α : Type} (f : α → Outcome) (r : World × Except String α) :
    (report f r).1 = r.1 := by
  obtain ⟨w, result⟩ := r
  cases result <;> rfl

end PapeSdk
