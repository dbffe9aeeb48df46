import PapeSdk.StoreInvariant

/-!
Restarts of a store that started empty. The operations may come in any order
and at any times: the clock of the machine may be set forward and backward
between them. Whatever happened, opening the file again succeeds and finds
nothing to renumber, to import or to fill in.
-/

namespace PapeSdk

open KeyedTables EventRuns

/-- An operation of the store, or the clock set to any time. -/
inductive TimedLabel
  | call (op : Op)
  | clock (time : ℕ)
  deriving DecidableEq, Repr

def TimedLabel.perform (env : Externals) (w : World) : TimedLabel → World
  | .call op => (exec env w op).1
  | .clock time => { w with now := time }

def TimedStep (env : Externals) (w : World) (l : TimedLabel) (w' : World) : Prop :=
  l.perform env w = w'

section
variable {env : Externals} {w w' : World}

theorem StoreInv.timed (h : StoreInv env w) {l : TimedLabel} (hstep : TimedStep env w l w') :
    StoreInv env w' := by
  unfold TimedStep at hstep
  rw [← hstep]
  cases l with
  | call op => exact h.exec op
  | clock time => exact h.clock time

theorem StoreInv.timedRun {start : ℕ} {log : List TimedLabel}
    (hrun : Run (TimedStep env) (World.fresh env start) log w) : StoreInv env w :=
  hrun.invariant (fun hinv hstep => hinv.timed hstep) (StoreInv.fresh start)

/-- What a start of the program leaves alone. -/
structure SameAccounts (w w' : World) : Prop where
  users : w'.db.users.rows = w.db.users.rows
  sessions : w'.db.authSessions.rows = w.db.authSessions.rows

/-- A restart succeeds and changes no account and no session. -/
theorem restart_changes_nothing {start : ℕ} {log : List TimedLabel}
    (hrun : Run (TimedStep env) (World.fresh env start) log w) :
    ∃ w', openStore env w = (w', .ok ()) ∧ SameAccounts w w' :=
  ⟨_, openStore_of_inv (StoreInv.timedRun hrun), rfl, rfl⟩

end

theorem timedRun_foldl (env : Externals) (w : World) (labels : List TimedLabel) :
    Run (TimedStep env) w labels (labels.foldl (TimedLabel.perform env) w) := by
  induction labels generalizing w with
  | nil => exact Run.refl w
  | cons l rest ih => exact Run.append (Run.single rfl) (ih (l.perform env w))

/-- A first login, a soft deletion and a clock that is set back. -/
def deletedLater : List TimedLabel :=
  [.call (.getOrCreateUser "13800000000"), .call (.deleteUser firstUserID), .clock 5]

theorem deleted_account_restarts :
    ∃ w', openStore .unary (deletedLater.foldl (TimedLabel.perform .unary)
        (World.fresh .unary 10)) = (w', .ok ()) ∧
      SameAccounts (deletedLater.foldl (TimedLabel.perform .unary) (World.fresh .unary 10)) w' :=
  restart_changes_nothing (timedRun_foldl .unary (World.fresh .unary 10) deletedLater)

end PapeSdk
