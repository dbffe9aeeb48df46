import Mathlib.Data.List.Basic
import Mathlib.Tactic.Common

/-!
Named values joined into one text, without any escaping: a name, the sign that
ends it, the value, and a separator between one pair and the next. Names that
hold neither of the two letters, and values that hold no sign after a
separator, can be read back out of the text.
-/

namespace PapeSdk.JoinedPairs

variable {α : Type} (amp eq : α)

/-- The name, the sign that ends it, and the value. -/
def line (pair : List α × List α) : List α := pair.1 ++ [eq] ++ pair.2

def joined (pairs : List (List α × List α)) : List α :=
  [amp].intercalate (pairs.map (line eq))

/-- The name ends at the first sign, and no separator cuts the value where the
rest could be taken for another pair. -/
structure Readable [DecidableEq α] (pair : List α × List α) : Prop where
  amp_not_mem : amp ∉ pair.1
  eq_not_mem : eq ∉ pair.1
  value : eq ∉ pair.2.dropWhile (· ≠ amp)

instance [DecidableEq α] (pair : List α × List α) : Decidable (Readable amp eq pair) :=
  decidable_of_iff (amp ∉ pair.1 ∧ eq ∉ pair.1 ∧ eq ∉ pair.2.dropWhile (· ≠ amp))
    ⟨fun ⟨hamp, heq, hvalue⟩ => ⟨hamp, heq, hvalue⟩,
      fun h => ⟨h.amp_not_mem, h.eq_not_mem, h.value⟩⟩

variable {amp eq}

theorem Readable.not_mem_rest [DecidableEq α] {name before rest : List α}
    (h : Readable amp eq (name, before ++ amp :: rest)) : eq ∉ rest := by
  intro hmem
  apply h.value
  have hstop : (amp :: rest).dropWhile (· ≠ amp) = amp :: rest := by
    simp only [List.dropWhile_cons, ne_eq, not_true_eq_false, decide_false, Bool.false_eq_true,
      if_false]
  rw [List.dropWhile_append, hstop]
  split
  · exact List.mem_cons_of_mem _ hmem
  · exact List.mem_append_right _ (List.mem_cons_of_mem _ hmem)

/-- A text is cut at its first sign in one way. -/
theorem cut_unique {name name' rest rest' : List α} (h : eq ∉ name) (h' : eq ∉ name')
    (heq : name ++ eq :: rest = name' ++ eq :: rest') : name = name' ∧ rest = rest' := by
  induction name generalizing name' with
  | nil =>
    cases name' with
    | nil => exact ⟨rfl, (List.cons.inj heq).2⟩
    | cons b bs =>
      have hb : eq = b := (List.cons.inj heq).1
      exact absurd (hb ▸ List.mem_cons_self) h'
  | cons a as ih =>
    cases name' with
    | nil =>
      have ha : a = eq := (List.cons.inj heq).1
      exact absurd (ha ▸ List.mem_cons_self) h
    | cons b bs =>
      obtain ⟨hab, htail⟩ := List.cons.inj heq
      obtain ⟨hname, hrest⟩ := ih (fun hm => h (List.mem_cons_of_mem _ hm))
        (fun hm => h' (List.mem_cons_of_mem _ hm)) htail
      exact ⟨by rw [hab, hname], hrest⟩

/-- Where a name goes on to its sign, no separator comes first. -/
theorem sign_before_separator {name value rest rest' : List α} (hne : amp ≠ eq)
    (hname : amp ∉ name) (hvalue : eq ∉ value) :
    name ++ eq :: rest ≠ value ++ amp :: rest' := by
  intro h
  rcases List.append_eq_append_iff.mp h with ⟨more, hmore, hrest⟩ | ⟨more, hmore, hrest⟩
  · cases more with
    | nil =>
      rw [List.nil_append] at hrest
      exact hne (List.cons.inj hrest).1.symm
    | cons c cs =>
      have hc : eq = c := (List.cons.inj hrest).1
      apply hvalue
      rw [hmore, hc]
      exact List.mem_append_right _ List.mem_cons_self
  · cases more with
    | nil =>
      rw [List.nil_append] at hrest
      exact hne (List.cons.inj hrest).1
    | cons c cs =>
      have hc : amp = c := (List.cons.inj hrest).1
      apply hname
      rw [hmore, hc]
      exact List.mem_append_right _ List.mem_cons_self

/-- What stands behind the first value: nothing, or a separator and the rest. -/
def following (amp eq : α) : List (List α × List α) → List α
  | [] => []
  | pair :: rest => amp :: joined amp eq (pair :: rest)

theorem following_cons (pair : List α × List α) (rest : List (List α × List α)) :
    following amp eq (pair :: rest) = amp :: joined amp eq (pair :: rest) := rfl

theorem joined_cons (name value : List α) (pairs : List (List α × List α)) :
    joined amp eq ((name, value) :: pairs) =
      name ++ eq :: (value ++ following amp eq pairs) := by
  cases pairs with
  | nil => simp [joined, following, line]
  | cons p ps => simp [joined, following, line, List.intercalate_cons_cons]

theorem joined_ne_nil (pair : List α × List α) (rest : List (List α × List α)) :
    joined amp eq (pair :: rest) ≠ [] := by
  obtain ⟨name, value⟩ := pair
  intro hnil
  rw [joined_cons] at hnil
  exact List.cons_ne_nil _ _ (List.append_eq_nil_iff.mp hnil).2

theorem following_injective {pairs pairs' : List (List α × List α)}
    (h : following amp eq pairs = following amp eq pairs') :
    joined amp eq pairs = joined amp eq pairs' := by
  cases pairs with
  | nil =>
    cases pairs' with
    | nil => rfl
    | cons p' ps' => cases h
  | cons p ps =>
    cases pairs' with
    | nil => cases h
    | cons p' ps' => exact (List.cons.inj h).2

variable [DecidableEq α]

/-- A value that goes on past a separator meets the next name before its sign. -/
theorem not_longer {value more : List α} {pairs pairs' : List (List α × List α)}
    (hne : amp ≠ eq) (hpairs : ∀ p ∈ pairs, Readable amp eq p) {name : List α}
    (hvalue : Readable amp eq (name, value ++ more)) (hmore : more ≠ []) :
    following amp eq pairs ≠ more ++ following amp eq pairs' := by
  intro h
  cases pairs with
  | nil =>
    have hnil : more ++ following amp eq pairs' = [] := h.symm
    exact hmore (List.append_eq_nil_iff.mp hnil).1
  | cons p ps =>
    obtain ⟨next, nextValue⟩ := p
    cases more with
    | nil => exact hmore rfl
    | cons c cs =>
      rw [following_cons, joined_cons, List.cons_append] at h
      obtain ⟨hc, hrest⟩ := List.cons.inj h
      rw [← hc] at hvalue
      have hcs : eq ∉ cs := hvalue.not_mem_rest
      have hnext := (hpairs _ List.mem_cons_self).amp_not_mem
      cases pairs' with
      | nil =>
        have hend : next ++ eq :: (nextValue ++ following amp eq ps) = cs ++ [] := hrest
        rw [List.append_nil] at hend
        apply hcs
        rw [← hend]
        exact List.mem_append_right _ List.mem_cons_self
      | cons p' ps' =>
        rw [following_cons] at hrest
        exact sign_before_separator hne hnext hcs hrest

/-- Two readable values in front of readable pairs end at the same place. -/
theorem value_unique (hne : amp ≠ eq) {name value value' : List α}
    {pairs pairs' : List (List α × List α)} (h : Readable amp eq (name, value))
    (h' : Readable amp eq (name, value')) (hpairs : ∀ p ∈ pairs, Readable amp eq p)
    (hpairs' : ∀ p ∈ pairs', Readable amp eq p)
    (heq : value ++ following amp eq pairs = value' ++ following amp eq pairs') :
    value = value' ∧ following amp eq pairs = following amp eq pairs' := by
  rcases List.append_eq_append_iff.mp heq with ⟨more, hmore, hrest⟩ | ⟨more, hmore, hrest⟩
  · by_cases hnil : more = []
    · rw [hnil, List.append_nil] at hmore
      rw [hnil, List.nil_append] at hrest
      exact ⟨hmore.symm, hrest⟩
    · rw [hmore] at h'
      exact absurd hrest (not_longer hne hpairs h' hnil)
  · by_cases hnil : more = []
    · rw [hnil, List.append_nil] at hmore
      rw [hnil, List.nil_append] at hrest
      exact ⟨hmore, hrest.symm⟩
    · rw [hmore] at h
      exact absurd hrest (not_longer hne hpairs' h hnil)

/-- Readable pairs are determined by their joined text. -/
theorem joined_injective (hne : amp ≠ eq) {pairs pairs' : List (List α × List α)}
    (h : ∀ p ∈ pairs, Readable amp eq p) (h' : ∀ p ∈ pairs', Readable amp eq p)
    (htext : joined amp eq pairs = joined amp eq pairs') : pairs = pairs' := by
  induction pairs generalizing pairs' with
  | nil =>
    cases pairs' with
    | nil => rfl
    | cons p' ps' => exact absurd htext.symm (joined_ne_nil p' ps')
  | cons p ps ih =>
    cases pairs' with
    | nil => exact absurd htext (joined_ne_nil p ps)
    | cons p' ps' =>
      obtain ⟨name, value⟩ := p
      obtain ⟨name', value'⟩ := p'
      have hp : Readable amp eq (name, value) := h _ List.mem_cons_self
      have hp' : Readable amp eq (name', value') := h' _ List.mem_cons_self
      have hps : ∀ q ∈ ps, Readable amp eq q := fun q hq => h q (List.mem_cons_of_mem _ hq)
      have hps' : ∀ q ∈ ps', Readable amp eq q := fun q hq => h' q (List.mem_cons_of_mem _ hq)
      rw [joined_cons, joined_cons] at htext
      have hcut := cut_unique hp.eq_not_mem hp'.eq_not_mem htext
      have hname : name = name' := hcut.1
      rw [← hname] at hp'
      obtain ⟨hvalue, hfollowing⟩ := value_unique hne hp hp' hps hps' hcut.2
      rw [hname, hvalue, ih hps hps' (following_injective hfollowing)]

end PapeSdk.JoinedPairs
