import Mathlib.Data.List.Basic
import Mathlib.Tactic.Common

/-!
Renaming keys in place, one pair after the other. A key that is no source of
any pair stays; a source ends among the targets. Renaming in turn agrees with
renaming all sources at once for a given source exactly when its target is not
the source of a later pair. Different targets that are no keys at first are
free in their turn, which is what renaming through temporary keys rests on.
-/

namespace PapeSdk.KeyRenaming

variable {κ : Type*} [DecidableEq κ]

def move (old new x : κ) : κ := if x = old then new else x

def inTurn (pairs : List (κ × κ)) (x : κ) : κ :=
  pairs.foldl (fun current pair => move pair.1 pair.2 current) x

theorem inTurn_cons (old new : κ) (pairs : List (κ × κ)) (x : κ) :
    inTurn ((old, new) :: pairs) x = inTurn pairs (move old new x) := rfl

theorem inTurn_append (left right : List (κ × κ)) (x : κ) :
    inTurn (left ++ right) x = inTurn right (inTurn left x) := List.foldl_append

theorem inTurn_of_not_source {pairs : List (κ × κ)} {x : κ} (h : x ∉ pairs.map Prod.fst) :
    inTurn pairs x = x := by
  induction pairs with
  | nil => rfl
  | cons pair rest ih =>
    obtain ⟨old, new⟩ := pair
    simp only [List.map_cons, List.mem_cons, not_or] at h
    rw [inTurn_cons, move, if_neg h.1, ih h.2]

theorem inTurn_of_source {pairs : List (κ × κ)} {x : κ} (h : x ∈ pairs.map Prod.fst) :
    inTurn pairs x ∈ pairs.map Prod.snd := by
  induction pairs generalizing x with
  | nil => cases h
  | cons pair rest ih =>
    obtain ⟨old, new⟩ := pair
    rw [inTurn_cons, List.map_cons, List.mem_cons]
    by_cases hold : x = old
    · rw [move, if_pos hold]
      by_cases hagain : new ∈ rest.map Prod.fst
      · exact Or.inr (ih hagain)
      · exact Or.inl (inTurn_of_not_source hagain)
    · rw [move, if_neg hold]
      exact Or.inr (ih ((List.mem_cons.mp h).resolve_left hold))

/-- A source reaches its own target unless a later pair takes that target up again. -/
theorem inTurn_eq_target_iff {before after : List (κ × κ)} {old new : κ}
    (hold : old ∉ before.map Prod.fst) (hnew : new ∉ after.map Prod.snd) :
    inTurn (before ++ (old, new) :: after) old = new ↔ new ∉ after.map Prod.fst := by
  rw [inTurn_append, inTurn_of_not_source hold, inTurn_cons, move, if_pos rfl]
  constructor
  · intro hkept hagain
    have htarget := inTurn_of_source hagain
    rw [hkept] at htarget
    exact hnew htarget
  · exact inTurn_of_not_source

/-- Where no target is a source, renaming in turn renames all sources at once. -/
theorem inTurn_of_mem {pairs : List (κ × κ)} {old new : κ} (hsources : (pairs.map Prod.fst).Nodup)
    (hnew : new ∉ pairs.map Prod.fst) (h : (old, new) ∈ pairs) : inTurn pairs old = new := by
  obtain ⟨before, after, rfl⟩ := List.append_of_mem h
  rw [List.map_append, List.map_cons] at hsources hnew
  have hold : old ∉ before.map Prod.fst := by
    intro hmem
    exact (List.nodup_append.mp hsources).2.2 old hmem old List.mem_cons_self rfl
  rw [List.mem_append, not_or] at hnew
  rw [inTurn_append, inTurn_of_not_source hold, inTurn_cons, move, if_pos rfl,
    inTurn_of_not_source fun hmem => hnew.2 (List.mem_cons_of_mem _ hmem)]

/-- Every target is free among the keys when its turn comes. -/
def Free : List κ → List (κ × κ) → Prop
  | _, [] => True
  | keys, (old, new) :: pairs => new ∉ keys ∧ Free (keys.map (move old new)) pairs

theorem mem_map_move {keys : List κ} {old new x : κ} (h : x ∈ keys.map (move old new)) :
    x ∈ keys ∨ x = new := by
  obtain ⟨key, hkey, rfl⟩ := List.mem_map.mp h
  unfold move
  split
  · exact Or.inr rfl
  · exact Or.inl hkey

/-- Different targets outside the keys are all free in their turn. -/
theorem free_of_fresh {keys : List κ} {pairs : List (κ × κ)}
    (hfresh : ∀ pair ∈ pairs, pair.2 ∉ keys) (hnodup : (pairs.map Prod.snd).Nodup) :
    Free keys pairs := by
  induction pairs generalizing keys with
  | nil => trivial
  | cons pair rest ih =>
    obtain ⟨old, new⟩ := pair
    rw [List.map_cons, List.nodup_cons] at hnodup
    refine ⟨hfresh (old, new) List.mem_cons_self, ih (fun p hp hmem => ?_) hnodup.2⟩
    rcases mem_map_move hmem with hold | hnew
    · exact hfresh p (List.mem_cons_of_mem _ hp) hold
    · exact hnodup.1 (List.mem_map.mpr ⟨p, hp, hnew⟩)

end PapeSdk.KeyRenaming
