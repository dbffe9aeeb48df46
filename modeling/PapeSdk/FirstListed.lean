import Mathlib.Data.List.Induction
import Mathlib.Data.List.Sort

/-!
Lists with keys. Of the elements with one key the first is kept, and what is
kept depends on the elements with this key and on nothing else; in a map that is
written in the order of the list, the last one stays. A list whose positions
increase is determined by its members, so a sort by the position gives one
result for all orders of its input, also when it is not stable.
-/

namespace PapeSdk.FirstListed

variable {α κ β : Type*}

section
variable [DecidableEq κ] {key : α → κ}

/-- Appends an element unless its key is taken. -/
def keepFirst (key : α → κ) (kept : List α) (a : α) : List α :=
  if key a ∈ kept.map key then kept else kept ++ [a]

theorem mem_foldl_keepFirst {l kept : List α} {a : α} :
    a ∈ l.foldl (keepFirst key) kept ↔
      a ∈ kept ∨ key a ∉ kept.map key ∧ l.find? (fun b => key b = key a) = some a := by
  induction l generalizing kept with
  | nil => simp
  | cons b rest ih =>
    rw [List.foldl_cons, ih]
    by_cases htaken : key b ∈ kept.map key
    · rw [keepFirst, if_pos htaken]
      by_cases hkey : key b = key a
      · have hfound : key a ∈ kept.map key := hkey ▸ htaken
        simp [hfound]
      · rw [List.find?_cons_of_neg (by simpa using hkey)]
    · rw [keepFirst, if_neg htaken]
      by_cases hkey : key b = key a
      · rw [List.find?_cons_of_pos (by simpa using hkey), List.map_append, List.mem_append,
          List.mem_singleton]
        rw [hkey] at htaken
        constructor
        · rintro ((hmem | rfl) | ⟨hnot, -⟩)
          · exact Or.inl hmem
          · exact Or.inr ⟨htaken, rfl⟩
          · exact absurd (List.mem_append_right _ (List.mem_singleton.mpr hkey.symm)) hnot
        · rintro (hmem | ⟨-, hsame⟩)
          · exact Or.inl (Or.inl hmem)
          · exact Or.inl (Or.inr (Option.some.inj hsame).symm)
      · rw [List.find?_cons_of_neg (by simpa using hkey), List.map_append, List.mem_append,
          List.mem_append, List.mem_singleton]
        constructor
        · rintro ((hmem | rfl) | ⟨hnot, hfound⟩)
          · exact Or.inl hmem
          · exact absurd rfl hkey
          · exact Or.inr ⟨fun hmem => hnot (Or.inl hmem), hfound⟩
        · rintro (hmem | ⟨hnot, hfound⟩)
          · exact Or.inl (Or.inl hmem)
          · refine Or.inr ⟨?_, hfound⟩
            rintro (hmem | hlast)
            · exact hnot hmem
            · exact hkey (List.mem_singleton.mp hlast).symm

theorem nodup_foldl_keepFirst {l kept : List α} (h : (kept.map key).Nodup) :
    ((l.foldl (keepFirst key) kept).map key).Nodup := by
  induction l generalizing kept with
  | nil => exact h
  | cons b rest ih =>
    rw [List.foldl_cons]
    apply ih
    unfold keepFirst
    split
    · exact h
    · next hfree =>
      rw [List.map_append]
      refine List.Nodup.append h (List.nodup_singleton _) ?_
      intro k hk hlast
      rw [List.mem_singleton.mp hlast] at hk
      exact hfree hk

end

section
variable [DecidableEq κ] (key : α → κ) (f : α → β)

/-- Writes the values one after another; the last one with a key stays. -/
def lastWritten (l : List α) : κ → Option β :=
  l.foldl (fun m a => Function.update m (key a) (some (f a))) fun _ => none

theorem lastWritten_append (l : List α) (a : α) :
    lastWritten key f (l ++ [a]) =
      Function.update (lastWritten key f l) (key a) (some (f a)) := by
  unfold lastWritten
  rw [List.foldl_append]
  rfl

variable {key f}

theorem exists_of_lastWritten {l : List α} {k : κ} {b : β} (h : lastWritten key f l k = some b) :
    ∃ a ∈ l, key a = k ∧ f a = b := by
  induction l using List.reverseRecOn with
  | nil => cases h
  | append_singleton l a ih =>
    rw [lastWritten_append] at h
    by_cases hk : k = key a
    · subst hk
      rw [Function.update_self] at h
      exact ⟨a, List.mem_append_right _ (List.mem_singleton_self a), rfl, Option.some.inj h⟩
    · rw [Function.update_of_ne hk] at h
      obtain ⟨b, hb, hkey⟩ := ih h
      exact ⟨b, List.mem_append_left _ hb, hkey⟩

theorem lastWritten_of_mem {l : List α} {a : α} (h : a ∈ l) :
    ∃ b ∈ l, key b = key a ∧ lastWritten key f l (key a) = some (f b) := by
  induction l using List.reverseRecOn with
  | nil => cases h
  | append_singleton l c ih =>
    rw [lastWritten_append]
    by_cases hk : key a = key c
    · refine ⟨c, List.mem_append_right _ (List.mem_singleton_self c), hk.symm, ?_⟩
      rw [hk, Function.update_self]
    · rw [Function.update_of_ne hk]
      rcases List.mem_append.mp h with hmem | hlast
      · obtain ⟨b, hb, hkey, hwritten⟩ := ih hmem
        exact ⟨b, List.mem_append_left _ hb, hkey, hwritten⟩
      · exact absurd (congrArg key (List.mem_singleton.mp hlast)) hk

end

/-- A sort by `less`; elements that neither is less than the other come in any order. -/
structure SliceSort (less : α → α → Bool) where
  sort : List α → List α
  perm : ∀ l, (sort l).Perm l
  ordered : ∀ l, (sort l).Pairwise fun a b => less b a = false

section
variable [LinearOrder β] {pos : α → β} {less : α → α → Bool}

theorem SliceSort.increasing (s : SliceSort less) (hless : ∀ a b, less a b = true ↔ pos a < pos b)
    {l : List α} (hdistinct : (l.map pos).Nodup) :
    (s.sort l).Pairwise fun a b => pos a < pos b := by
  have hapart : (s.sort l).Pairwise fun a b => pos a ≠ pos b :=
    List.pairwise_map.mp (((s.perm l).map pos).nodup_iff.mpr hdistinct)
  refine List.Pairwise.imp₂ ?_ (s.ordered l) hapart
  intro a b hle hne
  have hnot : ¬ pos b < pos a := fun hlt => absurd ((hless b a).mpr hlt) (by rw [hle]; decide)
  exact lt_of_le_of_ne (not_lt.mp hnot) hne

/-- The members of an increasing list determine it. -/
theorem eq_of_increasing {l l' : List α} (h : l.Pairwise fun a b => pos a < pos b)
    (h' : l'.Pairwise fun a b => pos a < pos b) (hmem : ∀ a, a ∈ l ↔ a ∈ l') : l = l' := by
  have hnodup : ∀ {m : List α}, m.Pairwise (fun a b => pos a < pos b) → m.Nodup :=
    fun hm => hm.imp fun hlt heq => absurd (congrArg pos heq) (ne_of_lt hlt)
  have hperm : l.Perm l' := (List.perm_ext_iff_of_nodup (hnodup h) (hnodup h')).mpr hmem
  refine hperm.eq_of_pairwise ?_ h h'
  exact fun a b _ _ hab hba => absurd hab (lt_asymm hba)

end

end PapeSdk.FirstListed
