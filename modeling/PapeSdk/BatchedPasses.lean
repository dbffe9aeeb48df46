import Mathlib.Data.List.Sort
import Mathlib.Logic.Function.Basic
import Mathlib.Tactic.Common

/-!
A line of rows served in passes. A pass lists the first rows that are due and
still wait, no more than there is room for, and serves them one after another;
a row that is turned away waits on, and the next pass lists it again. A set of
rows is held when each of them has too many of the set ahead of it or is turned
away on account of the set; such a set waits for ever, and these sets are all
that can keep a row waiting.
-/

namespace PapeSdk.BatchedPasses

variable {α ι : Type*}

/-- In sorted order a row comes among the first `k` when fewer than `k` come before it. -/
theorem mem_take_sorted {before : α → α → Prop} [DecidableRel before] {rows : List α} {a : α}
    (hsorted : rows.Pairwise before) (hrefl : before a a)
    (hanti : ∀ b ∈ rows, before a b → before b a → a = b) (hnodup : rows.Nodup)
    (ha : a ∈ rows) (k : ℕ) :
    a ∈ rows.take k ↔ rows.countP (fun b => !decide (before a b)) < k := by
  induction rows generalizing k with
  | nil => cases ha
  | cons b rest ih =>
    obtain ⟨hfirst, hrest⟩ := List.pairwise_cons.mp hsorted
    obtain ⟨hnew, hnodup⟩ := List.nodup_cons.mp hnodup
    by_cases hab : a = b
    · subst hab
      have hcount : (a :: rest).countP (fun b => !decide (before a b)) = 0 := by
        apply List.countP_eq_zero.mpr
        intro b hb
        rcases List.mem_cons.mp hb with rfl | hb
        · simp [hrefl]
        · simp [hfirst b hb]
      rw [hcount]
      cases k with
      | zero => simp
      | succ k => simp
    · have ha : a ∈ rest := (List.mem_cons.mp ha).resolve_left hab
      have hlater : ¬ before a b := by
        intro hbefore
        exact hab (hanti b List.mem_cons_self hbefore (hfirst a ha))
      have hrec := ih hrest (fun b hb => hanti b (List.mem_cons_of_mem _ hb)) hnodup ha
      rw [List.countP_cons_of_pos (by simp [hlater])]
      cases k with
      | zero => simp
      | succ k =>
        rw [List.take_succ_cons, List.mem_cons, hrec k]
        constructor
        · intro h
          have hlt := h.resolve_left hab
          omega
        · intro h
          exact Or.inr (by omega)

/-- A total and transitive order on a list has a first row among those with a property. -/
theorem exists_first {before : α → α → Prop} [DecidableRel before]
    (htotal : ∀ a b, before a b ∨ before b a)
    (htrans : ∀ a b c, before a b → before b c → before a c) {rows : List α} {p : α → Bool}
    {a : α} (ha : a ∈ rows) (hp : p a = true) :
    ∃ b ∈ rows, p b = true ∧ ∀ c ∈ rows, p c = true → before b c := by
  induction rows generalizing a with
  | nil => cases ha
  | cons r rest ih =>
    by_cases hlater : ∃ b ∈ rest, p b = true
    · obtain ⟨b, hb, hpb⟩ := hlater
      obtain ⟨first, hfirst, hpfirst, hleast⟩ := ih hb hpb
      by_cases hswap : p r = true ∧ ¬ before first r
      · obtain ⟨hpr, hnot⟩ := hswap
        have hbefore : before r first := (htotal first r).resolve_left hnot
        refine ⟨r, List.mem_cons_self, hpr, fun c hc hpc => ?_⟩
        rcases List.mem_cons.mp hc with rfl | hc
        · exact (htotal c c).elim id id
        · exact htrans r first c hbefore (hleast c hc hpc)
      · refine ⟨first, List.mem_cons_of_mem _ hfirst, hpfirst, fun c hc hpc => ?_⟩
        rcases List.mem_cons.mp hc with rfl | hc
        · by_contra hnot
          exact hswap ⟨hpc, hnot⟩
        · exact hleast c hc hpc
    · have hnone : ∀ c ∈ rest, ¬ p c = true := fun c hc hpc => hlater ⟨c, hc, hpc⟩
      have har : a = r := by
        rcases List.mem_cons.mp ha with har | ha
        · exact har
        · exact absurd hp (hnone a ha)
      subst har
      refine ⟨a, List.mem_cons_self, hp, fun c hc hpc => ?_⟩
      rcases List.mem_cons.mp hc with rfl | hc
      · exact (htotal c c).elim id id
      · exact absurd hpc (hnone c hc)

/-- A condition that holds of fewer rows, and of one row less for certain, counts fewer. -/
theorem countP_lt {rows : List α} {p q : α → Bool} {a : α} (ha : a ∈ rows) (hq : q a = true)
    (hp : p a = false) (h : ∀ b ∈ rows, p b = true → q b = true) :
    rows.countP p < rows.countP q := by
  obtain ⟨left, right, rfl⟩ := List.append_of_mem ha
  have hleft : left.countP p ≤ left.countP q :=
    List.countP_mono_left fun b hb => h b (List.mem_append_left _ hb)
  have hright : right.countP p ≤ right.countP q :=
    List.countP_mono_left fun b hb =>
      h b (List.mem_append_right _ (List.mem_cons_of_mem _ hb))
  rw [List.countP_append, List.countP_append, List.countP_cons_of_pos hq,
    List.countP_cons_of_neg (by simp [hp])]
  omega

theorem countP_and_le (rows : List α) (p q : α → Bool) :
    rows.countP (fun a => p a && q a) ≤ rows.countP p := by
  refine List.countP_mono_left fun a _ ha => ?_
  rw [Bool.and_eq_true] at ha
  exact ha.1

/-- A line: its rows, the order in which they are called, when a row is due, when it is turned
away, given who still waits, and the most that one pass calls. -/
structure Line (α ι : Type*) where
  rows : List α
  nodup : rows.Nodup
  before : α → α → Prop
  decidable : DecidableRel before
  total : ∀ a b, before a b ∨ before b a
  trans : ∀ a b c, before a b → before b c → before a c
  antisymm : ∀ a ∈ rows, ∀ b ∈ rows, before a b → before b a → a = b
  due : ι → α → Bool
  refused : ι → (α → Bool) → α → Bool
  refused_mono : ∀ {i : ι} {waits waits' : α → Bool} {a : α},
    (∀ b ∈ rows, waits b = true → waits' b = true) → refused i waits a = true →
      refused i waits' a = true
  room : ℕ

attribute [instance] Line.decidable

/-- No pass has served the row yet. -/
def waits (served : α → Option ι) (a : α) : Bool := (served a).isNone

theorem waits_iff {served : α → Option ι} {a : α} : waits served a = true ↔ served a = none :=
  Option.isNone_iff_eq_none

theorem not_waits_iff {served : α → Option ι} {a : α} :
    waits served a = false ↔ ∃ i, served a = some i := by
  rw [waits, Option.isNone_eq_false_iff, Option.isSome_iff_exists]

namespace Line

variable (l : Line α ι)

def batch (i : ι) (served : α → Option ι) : List α :=
  ((l.rows.filter fun a => l.due i a && waits served a).insertionSort l.before).take l.room

/-- How many rows of a set are due and called before a row. -/
def ahead (i : ι) (set : α → Bool) (a : α) : ℕ :=
  l.rows.countP fun b => l.due i b && set b && !decide (l.before a b)

section
variable [DecidableEq α]

def serve (i : ι) (served : α → Option ι) (a : α) : α → Option ι :=
  if waits served a && !l.refused i (waits served) a then Function.update served a (some i)
  else served

def pass (served : α → Option ι) (i : ι) : α → Option ι :=
  (l.batch i served).foldl (l.serve i) served

def passes (served : α → Option ι) (is : List ι) : α → Option ι := is.foldl l.pass served

end

/-- Every row of the set that is due has too many of the set ahead of it, or is turned away
as long as the set waits. -/
def Held (i : ι) (set : α → Bool) : Prop :=
  ∀ a ∈ l.rows, set a = true → l.due i a = true →
    l.room ≤ l.ahead i set a ∨ l.refused i set a = true

variable {l} {i : ι} {served : α → Option ι} {a b : α}

theorem mem_batch : a ∈ l.batch i served ↔ a ∈ l.rows ∧ l.due i a = true ∧ served a = none ∧
    l.ahead i (waits served) a < l.room := by
  have hmem : a ∈ (l.rows.filter fun a => l.due i a && waits served a).insertionSort l.before ↔
      a ∈ l.rows ∧ l.due i a = true ∧ served a = none := by
    rw [List.mem_insertionSort, List.mem_filter, Bool.and_eq_true, waits_iff]
  have hperm := List.perm_insertionSort l.before
    (l.rows.filter fun a => l.due i a && waits served a)
  have hcount : ((l.rows.filter fun a => l.due i a && waits served a).insertionSort
      l.before).countP (fun b => !decide (l.before a b)) = l.ahead i (waits served) a := by
    rw [hperm.countP_eq, List.countP_filter]
    refine List.countP_congr fun b _ => ?_
    rw [Bool.and_comm]
  have htake (ha : a ∈ (l.rows.filter fun a =>
      l.due i a && waits served a).insertionSort l.before) :
      a ∈ l.batch i served ↔ l.ahead i (waits served) a < l.room := by
    have : Std.Total l.before := ⟨l.total⟩
    have : IsTrans α l.before := ⟨l.trans⟩
    rw [← hcount]
    refine mem_take_sorted (List.pairwise_insertionSort _ _) ((l.total a a).elim id id)
      (fun b hb => ?_) (hperm.nodup_iff.mpr (l.nodup.filter _)) ha _
    refine l.antisymm a (hmem.mp ha).1 b ?_
    exact List.mem_of_mem_filter ((List.mem_insertionSort _).mp hb)
  constructor
  · intro ha
    have hsorted := List.mem_of_mem_take ha
    obtain ⟨hrow, hdue, hnone⟩ := hmem.mp hsorted
    exact ⟨hrow, hdue, hnone, (htake hsorted).mp ha⟩
  · intro ⟨hrow, hdue, hnone, hroom⟩
    exact (htake (hmem.mpr ⟨hrow, hdue, hnone⟩)).mpr hroom

theorem ahead_mono {set set' : α → Bool} (h : ∀ b ∈ l.rows, set b = true → set' b = true) :
    l.ahead i set a ≤ l.ahead i set' a := by
  apply List.countP_mono_left
  intro b hb hcounted
  simp only [Bool.and_eq_true] at hcounted ⊢
  exact ⟨⟨hcounted.1.1, h b hb hcounted.1.2⟩, hcounted.2⟩

section
variable [DecidableEq α]

theorem serve_kept {j : ι} (h : served b = some j) : l.serve i served a b = some j := by
  unfold serve
  split
  · next hserves =>
    rw [Bool.and_eq_true, waits_iff] at hserves
    have hne : b ≠ a := by
      intro heq
      rw [heq, hserves.1] at h
      cases h
    rw [Function.update_of_ne hne, h]
  · exact h

theorem serve_cases (l : Line α ι) (i : ι) (served : α → Option ι) (a b : α) :
    l.serve i served a b = served b ∨
      b = a ∧ l.refused i (waits served) a = false ∧ l.serve i served a b = some i := by
  unfold serve
  split
  · next hserves =>
    rw [Bool.and_eq_true, Bool.not_eq_true'] at hserves
    by_cases hb : b = a
    · subst hb
      exact Or.inr ⟨rfl, hserves.2, Function.update_self ..⟩
    · exact Or.inl (Function.update_of_ne hb ..)
  · exact Or.inl rfl

theorem serve_waits (h : waits (l.serve i served a) b = true) : waits served b = true := by
  rw [waits_iff] at h ⊢
  cases hserved : served b with
  | none => rfl
  | some j =>
    rw [serve_kept hserved] at h
    cases h

theorem serve_served (h : l.refused i (waits served) a = false) :
    ∃ j, l.serve i served a a = some j := by
  unfold serve
  cases hserved : served a with
  | none =>
    rw [if_pos (by simp [waits_iff.mpr hserved, h])]
    exact ⟨i, Function.update_self ..⟩
  | some j =>
    rw [if_neg (by simp [waits, hserved])]
    exact ⟨j, hserved⟩

theorem foldl_kept {j : ι} (items : List α) (h : served b = some j) :
    items.foldl (l.serve i) served b = some j := by
  induction items generalizing served with
  | nil => exact h
  | cons a rest ih => exact ih (serve_kept h)

theorem foldl_waits {items : List α} (h : waits (items.foldl (l.serve i) served) b = true) :
    waits served b = true := by
  induction items generalizing served with
  | nil => exact h
  | cons a rest ih => exact serve_waits (ih h)

theorem foldl_new (l : Line α ι) (i : ι) (served : α → Option ι) (b : α) (items : List α) :
    items.foldl (l.serve i) served b = served b ∨
      b ∈ items ∧ items.foldl (l.serve i) served b = some i := by
  induction items generalizing served with
  | nil => exact Or.inl rfl
  | cons a rest ih =>
    rw [List.foldl_cons]
    rcases ih (l.serve i served a) with hsame | ⟨hmem, hnew⟩
    · rw [hsame]
      rcases l.serve_cases i served a b with hkept | ⟨rfl, -, hserved⟩
      · exact Or.inl hkept
      · exact Or.inr ⟨List.mem_cons_self, hserved⟩
    · exact Or.inr ⟨List.mem_cons_of_mem _ hmem, hnew⟩

/-- A row that is not turned away when the batch begins is served when its turn comes. -/
theorem foldl_served {items : List α} (ha : a ∈ items)
    (h : l.refused i (waits served) a = false) :
    ∃ j, items.foldl (l.serve i) served a = some j := by
  induction items generalizing served with
  | nil => cases ha
  | cons r rest ih =>
    rw [List.foldl_cons]
    rcases List.mem_cons.mp ha with rfl | ha
    · obtain ⟨j, hj⟩ := serve_served h
      exact ⟨j, foldl_kept rest hj⟩
    · refine ih ha ?_
      by_contra hrefused
      rw [Bool.not_eq_false] at hrefused
      have hbefore : l.refused i (waits served) a = true := by
        exact l.refused_mono (fun b _ hb => serve_waits hb) hrefused
      rw [h] at hbefore
      cases hbefore

/-- A set that waits before its rows are called, and turns away those that are, waits on. -/
theorem foldl_held {set : α → Bool} {items : List α}
    (hwaits : ∀ b ∈ l.rows, set b = true → served b = none)
    (hitems : ∀ a ∈ items, set a = true → l.refused i set a = true) :
    ∀ b ∈ l.rows, set b = true → items.foldl (l.serve i) served b = none := by
  induction items generalizing served with
  | nil => exact hwaits
  | cons a rest ih =>
    rw [List.foldl_cons]
    refine ih (fun b hb hset => ?_) fun c hc => hitems c (List.mem_cons_of_mem _ hc)
    rcases l.serve_cases i served a b with hkept | ⟨rfl, hpassed, -⟩
    · rw [hkept]
      exact hwaits b hb hset
    · have hrefused : l.refused i (waits served) b = true :=
        l.refused_mono (fun c hc hc' => waits_iff.mpr (hwaits c hc hc'))
          (hitems b List.mem_cons_self hset)
      rw [hpassed] at hrefused
      cases hrefused

theorem pass_held {set : α → Bool} (h : l.Held i set)
    (hwaits : ∀ b ∈ l.rows, set b = true → served b = none) :
    ∀ b ∈ l.rows, set b = true → l.pass served i b = none := by
  refine foldl_held hwaits fun a ha hset => ?_
  obtain ⟨hrow, hdue, -, hroom⟩ := mem_batch.mp ha
  refine (h a hrow hset hdue).resolve_left fun hfull => ?_
  have hmore : l.ahead i set a ≤ l.ahead i (waits served) a :=
    ahead_mono fun b hb hb' => waits_iff.mpr (hwaits b hb hb')
  omega

theorem pass_served (ha : a ∈ l.batch i served)
    (h : l.refused i (waits served) a = false) : ∃ j, l.pass served i a = some j :=
  foldl_served ha h

theorem passes_new (l : Line α ι) (served : α → Option ι) (b : α) (is : List ι) :
    l.passes served is b = served b ∨ ∃ j ∈ is, l.passes served is b = some j := by
  induction is generalizing served with
  | nil => exact Or.inl rfl
  | cons i rest ih =>
    have hcons : l.passes served (i :: rest) = l.passes (l.pass served i) rest := rfl
    rw [hcons]
    rcases ih (l.pass served i) with hsame | ⟨j, hj, hnew⟩
    · rw [hsame]
      rcases l.foldl_new i served b (l.batch i served) with hkept | ⟨-, hserved⟩
      · exact Or.inl hkept
      · exact Or.inr ⟨i, List.mem_cons_self, hserved⟩
    · exact Or.inr ⟨j, List.mem_cons_of_mem _ hj, hnew⟩

/-- A set that is held in every pass is never served. -/
theorem passes_held {set : α → Bool} {is : List ι} (h : ∀ i ∈ is, l.Held i set)
    (hwaits : ∀ b ∈ l.rows, set b = true → served b = none) :
    ∀ b ∈ l.rows, set b = true → l.passes served is b = none := by
  induction is generalizing served with
  | nil => exact hwaits
  | cons i rest ih =>
    have hnext := pass_held (h i List.mem_cons_self) hwaits
    exact ih (fun j hj => h j (List.mem_cons_of_mem _ hj)) hnext

/-- Where every pass serves one more of those that are wanted, as many passes as there are
of them serve all. -/
theorem passes_progress {wanted : α → Bool} {is : List ι} (served : α → Option ι)
    (hstep : ∀ i ∈ is, ∀ served : α → Option ι, ∀ a ∈ l.rows, wanted a = true →
      served a = none → ∃ b ∈ l.batch i served, wanted b = true ∧
        l.refused i (waits served) b = false)
    (hlength : l.rows.countP (fun a => wanted a && waits served a) ≤ is.length) :
    ∀ a ∈ l.rows, wanted a = true → ∃ j, l.passes served is a = some j := by
  induction is generalizing served with
  | nil =>
    intro a ha hwanted
    have hnone := List.countP_eq_zero.mp (Nat.le_zero.mp hlength) a ha
    rw [hwanted, Bool.true_and, Bool.not_eq_true] at hnone
    exact not_waits_iff.mp hnone
  | cons i rest ih =>
    refine ih (l.pass served i) (fun j hj => hstep j (List.mem_cons_of_mem _ hj)) ?_
    by_cases hmore : ∃ a ∈ l.rows, wanted a = true ∧ served a = none
    · obtain ⟨a, ha, hwanted, hnone⟩ := hmore
      obtain ⟨b, hb, hbwanted, hpassed⟩ := hstep i List.mem_cons_self served a ha hwanted hnone
      obtain ⟨j, hj⟩ := pass_served hb hpassed
      have hrow := (mem_batch.mp hb).1
      have hbnone := (mem_batch.mp hb).2.2.1
      have hless : l.rows.countP (fun a => wanted a && waits (l.pass served i) a) <
          l.rows.countP fun a => wanted a && waits served a := by
        refine countP_lt hrow ?_ ?_ fun c _ hc => ?_
        · simp [hbwanted, waits_iff.mpr hbnone]
        · simp [waits, hj]
        · rw [Bool.and_eq_true] at hc ⊢
          exact ⟨hc.1, foldl_waits hc.2⟩
      rw [List.length_cons] at hlength
      omega
    · have hzero : l.rows.countP (fun a => wanted a && waits (l.pass served i) a) = 0 := by
        apply List.countP_eq_zero.mpr
        intro a ha hcounted
        rw [Bool.and_eq_true] at hcounted
        exact hmore ⟨a, ha, hcounted.1, waits_iff.mp (foldl_waits hcounted.2)⟩
      omega

/-- No matter when the passes come, they serve all rows that are wanted exactly when no row
that is wanted stands in a set that is held. -/
theorem passes_all_iff {times : Set ι} {wanted : α → Bool} {n : ℕ}
    (hwanted : ∀ i ∈ times, ∀ a ∈ l.rows, ∀ set : α → Bool, l.due i a = true →
      l.refused i set a = false → wanted a = true)
    (hn : l.rows.countP wanted ≤ n) :
    (∀ is : List ι, is.length = n → (∀ i ∈ is, i ∈ times) →
        ∀ a ∈ l.rows, wanted a = true → ∃ j, l.passes (fun _ => none) is a = some j) ↔
      ∀ i ∈ times, ∀ set : α → Bool, l.Held i set → ∀ a ∈ l.rows, wanted a = true →
        set a = false := by
  constructor
  · intro hall i hi set hheld a ha haw
    by_contra hset
    rw [Bool.not_eq_false] at hset
    obtain ⟨j, hj⟩ := hall (List.replicate n i) List.length_replicate
      (fun j hj => by rwa [List.eq_of_mem_replicate hj]) a ha haw
    have hsame : ∀ j ∈ List.replicate n i, l.Held j set := by
      intro j hj
      rwa [List.eq_of_mem_replicate hj]
    have hnone : l.passes (fun _ => none) (List.replicate n i) a = none :=
      passes_held hsame (fun _ _ _ => rfl) a ha hset
    rw [hnone] at hj
    cases hj
  · intro hnone is hlength his
    refine passes_progress _ (fun i hi served a ha haw hwaits => ?_) ?_
    · by_contra hstuck
      have hheld : l.Held i (waits served) := by
        intro b hb hwaiting hdue
        by_contra hfree
        rw [not_or, not_le, Bool.not_eq_true] at hfree
        have hbatch : b ∈ l.batch i served :=
          mem_batch.mpr ⟨hb, hdue, waits_iff.mp hwaiting, hfree.1⟩
        exact hstuck ⟨b, hbatch, hwanted i (his i hi) b hb _ hdue hfree.2, hfree.2⟩
      have hserved := hnone i (his i hi) (waits served) hheld a ha haw
      rw [waits_iff.mpr hwaits] at hserved
      cases hserved
    · exact le_trans (countP_and_le l.rows wanted _) (by omega)

/-- Rows that are always due and never turned away are served when fewer of the others than
there is room for come before any of them. -/
theorem passes_all_of_few {wanted : α → Bool} {is : List ι}
    (hdue : ∀ i ∈ is, ∀ a ∈ l.rows, wanted a = true → l.due i a = true)
    (hfree : ∀ i ∈ is, ∀ a ∈ l.rows, wanted a = true → ∀ set : α → Bool,
      l.refused i set a = false)
    (hfew : ∀ i ∈ is, ∀ a ∈ l.rows, wanted a = true →
      l.ahead i (fun b => !wanted b) a < l.room)
    (hlength : l.rows.countP wanted ≤ is.length) :
    ∀ a ∈ l.rows, wanted a = true → ∃ j, l.passes (fun _ => none) is a = some j := by
  refine passes_progress _ (fun i hi served a ha haw hwaits => ?_) ?_
  · obtain ⟨b, hb, hbw, hfirst⟩ := exists_first (p := fun c => wanted c && waits served c)
      l.total l.trans ha (by simp [haw, waits_iff.mpr hwaits])
    rw [Bool.and_eq_true] at hbw
    refine ⟨b, mem_batch.mpr ⟨hb, hdue i hi b hb hbw.1, waits_iff.mp hbw.2, ?_⟩, hbw.1,
      hfree i hi b hb hbw.1 _⟩
    have hahead : l.ahead i (waits served) b ≤ l.ahead i (fun c => !wanted c) b := by
      refine List.countP_mono_left fun c hc hcounted => ?_
      simp only [Bool.and_eq_true, Bool.not_eq_true', decide_eq_false_iff_not] at hcounted ⊢
      refine ⟨⟨hcounted.1.1, ?_⟩, hcounted.2⟩
      by_contra hcw
      rw [Bool.not_eq_false] at hcw
      exact hcounted.2 (hfirst c hc (by rw [Bool.and_eq_true]; exact ⟨hcw, hcounted.1.2⟩))
    exact lt_of_le_of_lt hahead (hfew i hi b hb hbw.1)
  · exact le_trans (countP_and_le l.rows wanted _) hlength

end

end Line

end PapeSdk.BatchedPasses
