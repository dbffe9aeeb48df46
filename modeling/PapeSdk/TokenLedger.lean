import Mathlib.Data.Set.Basic
import PapeSdk.EventRuns

/-!
One-time tokens in the abstract. A ledger records the tokens handed out so far
and those of them that are still good. Its steps may void tokens and hand out
new ones, but a token that was handed out before never becomes good again. A
system whose states have such a ledger therefore accepts a voided token in no
continuation, and a token that every use voids is used at most once.
-/

namespace PapeSdk.TokenLedger

open EventRuns

structure Ledger (τ : Type*) where
  seen : Set τ
  live : Set τ
  live_seen : ∀ t ∈ live, t ∈ seen

namespace Ledger

variable {τ : Type*} {a b : Ledger τ} {t : τ}

structure Step (a b : Ledger τ) : Prop where
  seen : ∀ t ∈ a.seen, t ∈ b.seen
  live : ∀ t ∈ b.live, t ∈ a.seen → t ∈ a.live

/-- A token that was handed out and is no longer good. -/
def Spent (l : Ledger τ) (t : τ) : Prop := t ∈ l.seen ∧ t ∉ l.live

theorem Step.refl (a : Ledger τ) : Step a a := ⟨fun _ h => h, fun _ h _ => h⟩

theorem Step.spent (h : Step a b) (ht : a.Spent t) : b.Spent t :=
  ⟨h.seen t ht.1, fun hlive => ht.2 (h.live t hlive ht.1)⟩

section
variable {σ ℓ : Type*} {step : σ → ℓ → σ → Prop} {Inv : σ → Prop} {book : σ → Ledger τ}

/-- Once spent, a token stays spent along every run. -/
theorem spent_run (hinv : ∀ {s l u}, Inv s → step s l u → Inv u)
    (hstep : ∀ {s l u}, Inv s → step s l u → Step (book s) (book u))
    {s u : σ} {log : List ℓ} (h : Run step s log u) (hs : Inv s) (ht : (book s).Spent t) :
    (book u).Spent t := by
  have hboth : Inv u ∧ (book u).Spent t := by
    refine h.invariant (P := fun v => Inv v ∧ (book v).Spent t) ?_ ⟨hs, ht⟩
    intro v l v' hv hvv'
    exact ⟨hinv hv.1 hvv', (hstep hv.1 hvv').spent hv.2⟩
  exact hboth.2

/-- A token that must be good when used, and is spent by its use, is used at most once. -/
theorem countP_le_one {uses : ℓ → Bool} (hinv : ∀ {s l u}, Inv s → step s l u → Inv u)
    (hstep : ∀ {s l u}, Inv s → step s l u → Step (book s) (book u))
    (huse : ∀ {s l u}, Inv s → step s l u → uses l = true → t ∈ (book s).live ∧ (book u).Spent t)
    {s u : σ} {log : List ℓ} (h : Run step s log u) (hs : Inv s) : log.countP uses ≤ 1 := by
  have hlaw : Inv u ∧ (log.countP uses = 0 ∨ log.countP uses = 1 ∧ (book u).Spent t) := by
    refine h.history (P := fun log v => Inv v ∧
      (log.countP uses = 0 ∨ log.countP uses = 1 ∧ (book v).Spent t)) ?_ ⟨hs, Or.inl rfl⟩
    intro before v l v' _ ⟨hv, hcount⟩ hvv'
    refine ⟨hinv hv hvv', ?_⟩
    rw [List.countP_append, List.countP_singleton]
    by_cases hl : uses l = true
    · obtain ⟨hgood, hspent⟩ := huse hv hvv' hl
      rcases hcount with hzero | ⟨-, hbefore⟩
      · exact Or.inr ⟨by simp [hzero, hl], hspent⟩
      · exact absurd hgood hbefore.2
    · rcases hcount with hzero | ⟨hone, hbefore⟩
      · exact Or.inl (by simp [hzero, hl])
      · exact Or.inr ⟨by simp [hone, hl], (hstep hv hvv').spent hbefore⟩
  rcases hlaw.2 with hzero | ⟨hone, -⟩
  · omega
  · omega

end

end Ledger

end PapeSdk.TokenLedger
