import Mathlib.Data.List.Basic
import Mathlib.Data.List.Infix
import Mathlib.Data.List.Sort
import Mathlib.Tactic.Common

/-!
Listings read in pages, and the search patterns of SQL. Page `i` of a list
holds the `n` entries from place `i * n` on. A reader who takes one page after
the other while entries are added in front sees entries twice but misses none,
as long as the reading ends with a page that is not full. The operator `like`
of SQLite compares letters of the ASCII alphabet without their case.
-/

namespace PapeSdk.Listings

variable {α : Type*}

def page (n i : ℕ) (l : List α) : List α := (l.drop (i * n)).take n

theorem pages_flatten (l : List α) (n k : ℕ) :
    ((List.range k).flatMap fun i => page n i l) = l.take (k * n) := by
  induction k with
  | zero => simp
  | succ k ih => rw [List.range_succ, List.flatMap_append, ih, Nat.succ_mul, List.take_add,
      List.flatMap_singleton, page]

theorem pages_complete {l : List α} {n k : ℕ} (hk : l.length ≤ k * n) :
    ((List.range k).flatMap fun i => page n i l) = l := by
  rw [pages_flatten, List.take_of_length_le hk]

theorem page_map {β : Type*} (f : α → β) (l : List α) (n i : ℕ) :
    page n i (l.map f) = (page n i l).map f := by
  rw [page, page, ← List.map_drop, List.map_take]

/-- Pages read one after the other until one is not full are the whole list. -/
theorem pages_exhaust {l : List α} {pages : ℕ → List α} {n k : ℕ}
    (hpages : ∀ i ≤ k, pages i = page n i l) (hlast : (pages k).length < n) :
    (List.range (k + 1)).flatMap pages = l := by
  have hlength : l.length ≤ (k + 1) * n := by
    rw [hpages k (le_refl k)] at hlast
    simp only [page, List.length_take, List.length_drop] at hlast
    rw [Nat.succ_mul]
    omega
  rw [← pages_complete hlength]
  refine List.flatMap_congr ?_
  intro i hi
  exact hpages i (by simpa [Nat.lt_succ_iff] using hi)

theorem mem_page {l : List α} {n i q : ℕ} {a : α} (ha : l[q]? = some a) (hlow : i * n ≤ q)
    (hhigh : q < (i + 1) * n) : a ∈ page n i l := by
  have hrest : q - i * n < n := by
    rw [Nat.succ_mul] at hhigh
    omega
  refine List.mem_of_getElem? (i := q - i * n) ?_
  rw [page, List.getElem?_take, if_pos hrest, List.getElem?_drop, Nat.add_sub_cancel' hlow]
  exact ha

/-- A place that never moves forward in the list passes through some page of the reader. -/
theorem exists_page {place : ℕ → ℕ} {n k : ℕ} (hmono : ∀ i < k, place i ≤ place (i + 1))
    (hend : place k < (k + 1) * n) : ∃ i ≤ k, i * n ≤ place i ∧ place i < (i + 1) * n := by
  induction k with
  | zero => exact ⟨0, le_refl _, by simp, hend⟩
  | succ k ih =>
    by_cases hlow : (k + 1) * n ≤ place (k + 1)
    · exact ⟨k + 1, le_refl _, hlow, hend⟩
    · have hstep := hmono k (Nat.lt_succ_self k)
      obtain ⟨i, hi, hpage⟩ := ih (fun i hi => hmono i (by omega)) (by omega)
      exact ⟨i, by omega, hpage⟩

theorem getElem?_of_suffix {l l' : List α} (h : l <:+ l') (q : ℕ) :
    l'[l'.length - l.length + q]? = l[q]? := by
  obtain ⟨front, rfl⟩ := h
  rw [List.length_append, Nat.add_sub_cancel, List.getElem?_append_right (by omega)]
  congr 1
  omega

/-- Entries of a list that only grows in front are not missed. -/
theorem mem_some_page {lists : ℕ → List α} {n k : ℕ} (hgrow : ∀ i < k, lists i <:+ lists (i + 1))
    (hend : (page n k (lists k)).length < n) {a : α} (ha : a ∈ lists 0) :
    ∃ i ≤ k, a ∈ page n i (lists i) := by
  have hfrom : ∀ i ≤ k, lists 0 <:+ lists i := by
    intro i
    induction i with
    | zero => exact fun _ => List.suffix_refl _
    | succ i ih => exact fun hi => (ih (by omega)).trans (hgrow i (by omega))
  obtain ⟨q, hq, rfl⟩ := List.mem_iff_getElem.mp ha
  have hplace : ∀ i ≤ k, (lists i)[(lists i).length - (lists 0).length + q]? = some (lists 0)[q] :=
    fun i hi => (getElem?_of_suffix (hfrom i hi) q).trans (List.getElem?_eq_getElem hq)
  have hlast : (lists k).length < (k + 1) * n := by
    simp only [page, List.length_take, List.length_drop] at hend
    rw [Nat.succ_mul]
    omega
  have hmove : ∀ i < k, (lists i).length - (lists 0).length + q ≤
      (lists (i + 1)).length - (lists 0).length + q := by
    intro i hi
    have := (hgrow i hi).length_le
    omega
  have hreached : (lists k).length - (lists 0).length + q < (k + 1) * n := by
    have := (hfrom k (le_refl k)).length_le
    omega
  obtain ⟨i, hi, hlow, hhigh⟩ := exists_page hmove hreached
  exact ⟨i, hi, mem_page (hplace i hi) hlow hhigh⟩

/-- `text like pattern`: `%` stands for any text and `_` for any character. -/
def like : List Char → List Char → Bool
  | [], text => text.isEmpty
  | c :: pattern, text =>
    if c = '%' then text.tails.any (like pattern)
    else
      match text with
      | [] => false
      | d :: rest => (c == '_' || c.toLower == d.toLower) && like pattern rest

/-- A text without wildcards. -/
def Literal (q : List Char) : Prop := ∀ c ∈ q, c ≠ '%' ∧ c ≠ '_'

instance (q : List Char) : Decidable (Literal q) :=
  List.decidableBAll (fun c => c ≠ '%' ∧ c ≠ '_') q

theorem like_percent {pattern text : List Char} :
    like ('%' :: pattern) text = true ↔ ∃ rest, rest <:+ text ∧ like pattern rest = true := by
  simp [like, List.any_eq_true]

theorem like_start {q text : List Char} (hq : Literal q) :
    like (q ++ ['%']) text = true ↔ q.map Char.toLower <+: text.map Char.toLower := by
  induction q generalizing text with
  | nil =>
    simp only [List.nil_append, List.map_nil, List.nil_prefix, iff_true]
    exact like_percent.mpr ⟨[], List.nil_suffix, rfl⟩
  | cons c q ih =>
    obtain ⟨hpercent, hunderscore⟩ := hq c List.mem_cons_self
    have hrest : Literal q := fun d hd => hq d (List.mem_cons_of_mem c hd)
    cases text with
    | nil => simp [like, hpercent]
    | cons d text =>
      rw [List.cons_append, like, if_neg hpercent]
      simp [hunderscore, ih hrest, List.cons_prefix_cons]

/-- A search for a text without wildcards finds the texts that contain it, up to ASCII case. -/
theorem like_contains {q text : List Char} (hq : Literal q) :
    like ('%' :: (q ++ ['%'])) text = true ↔
      q.map Char.toLower <:+: text.map Char.toLower := by
  rw [like_percent]
  constructor
  · rintro ⟨rest, hsuffix, hlike⟩
    exact ((like_start hq).mp hlike).isInfix.trans (hsuffix.map _).isInfix
  · intro hinfix
    obtain ⟨before, after, hsplit⟩ := hinfix
    refine ⟨text.drop before.length, List.drop_suffix _ _, (like_start hq).mpr ?_⟩
    rw [List.map_drop, ← hsplit, List.append_assoc, List.drop_left]
    exact List.prefix_append _ _

end PapeSdk.Listings
