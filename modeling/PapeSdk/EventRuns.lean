import Mathlib.Data.List.Induction
import Mathlib.Tactic.Common

/-!
Finite runs of a labelled transition relation. A run carries the list of its
labels in order, so that a law about a whole history is a law about that list.
The induction over runs is packaged once here: an invariant is preserved by
every step, a history law may also speak of the labels seen so far.
-/

namespace PapeSdk.EventRuns

variable {σ ℓ : Type*} {step : σ → ℓ → σ → Prop}

inductive Run (step : σ → ℓ → σ → Prop) : σ → List ℓ → σ → Prop
  | refl (s : σ) : Run step s [] s
  | tail {s t u : σ} {log : List ℓ} {l : ℓ} :
      Run step s log t → step t l u → Run step s (log ++ [l]) u

namespace Run

theorem single {s t : σ} {l : ℓ} (h : step s l t) : Run step s [l] t :=
  Run.tail (Run.refl s) h

theorem append {s t u : σ} {left right : List ℓ} (hl : Run step s left t)
    (hr : Run step t right u) : Run step s (left ++ right) u := by
  induction hr with
  | refl => simpa using hl
  | tail _ hstep ih =>
    rw [← List.append_assoc]
    exact Run.tail ih hstep

theorem of_nil {s t : σ} (h : Run step s [] t) : s = t := by
  generalize hlog : ([] : List ℓ) = log at h
  cases h with
  | refl => rfl
  | tail => simp at hlog

theorem of_concat {s u : σ} {log : List ℓ} {l : ℓ} (h : Run step s (log ++ [l]) u) :
    ∃ t, Run step s log t ∧ step t l u := by
  generalize hlog : log ++ [l] = whole at h
  cases h with
  | refl => simp at hlog
  | tail hrun hstep =>
    obtain ⟨rfl, hl⟩ := List.append_inj' hlog rfl
    cases hl
    exact ⟨_, hrun, hstep⟩

/-- A run over a concatenated history passes through a state in between. -/
theorem of_append {s u : σ} {left right : List ℓ} (h : Run step s (left ++ right) u) :
    ∃ t, Run step s left t ∧ Run step t right u := by
  induction right using List.reverseRecOn generalizing u with
  | nil => exact ⟨u, by simpa using h, Run.refl u⟩
  | append_singleton right l ih =>
    rw [← List.append_assoc] at h
    obtain ⟨v, hrun, hstep⟩ := of_concat h
    obtain ⟨t, hleft, hright⟩ := ih hrun
    exact ⟨t, hleft, Run.tail hright hstep⟩

theorem of_cons {s u : σ} {l : ℓ} {log : List ℓ} (h : Run step s (l :: log) u) :
    ∃ t, step s l t ∧ Run step t log u := by
  have hsplit : Run step s ([l] ++ log) u := h
  obtain ⟨t, hfirst, hrest⟩ := of_append hsplit
  have hconcat : Run step s ([] ++ [l]) t := hfirst
  obtain ⟨v, hnil, hstep⟩ := of_concat hconcat
  cases of_nil hnil
  exact ⟨t, hstep, hrest⟩

/-- Every label of a run marks a step taken on the way. -/
theorem exists_step {s u : σ} {log : List ℓ} {l : ℓ} (h : Run step s log u) (hl : l ∈ log) :
    ∃ before after t v, log = before ++ l :: after ∧ Run step s before t ∧ step t l v ∧
      Run step v after u := by
  obtain ⟨before, after, rfl⟩ := List.append_of_mem hl
  obtain ⟨t, hbefore, hrest⟩ := of_append h
  obtain ⟨v, hstep, hafter⟩ := of_cons hrest
  exact ⟨before, after, t, v, rfl, hbefore, hstep, hafter⟩

theorem mono {step' : σ → ℓ → σ → Prop} (hsub : ∀ s l t, step s l t → step' s l t) {s t : σ}
    {log : List ℓ} (h : Run step s log t) : Run step' s log t := by
  induction h with
  | refl => exact Run.refl _
  | tail _ hl ih => exact Run.tail ih (hsub _ _ _ hl)

/-- When a label determines its step, a history determines the state it leads to. -/
theorem unique {s t t' : σ} {log : List ℓ} (h : Run step s log t) (h' : Run step s log t')
    (hstep : ∀ s l t t', step s l t → step s l t' → t = t') : t = t' := by
  induction h generalizing t' with
  | refl => exact of_nil h'
  | tail _ hl ih =>
    obtain ⟨u, hrun, hl'⟩ := of_concat h'
    cases ih hrun
    exact hstep _ _ _ _ hl hl'

theorem invariant {s t : σ} {log : List ℓ} {P : σ → Prop}
    (hstep : ∀ {a l b}, P a → step a l b → P b) (h : Run step s log t) (hs : P s) : P t := by
  induction h with
  | refl => exact hs
  | tail _ hl ih => exact hstep ih hl

/-- An invariant that may speak of the history so far. -/
theorem history {s t : σ} {log : List ℓ} {P : List ℓ → σ → Prop}
    (hstep : ∀ {before a l b}, Run step s before a → P before a → step a l b →
      P (before ++ [l]) b)
    (h : Run step s log t) (hs : P [] s) : P log t := by
  induction h with
  | refl => exact hs
  | tail hrun hl ih => exact hstep hrun ih hl

end Run

end PapeSdk.EventRuns
