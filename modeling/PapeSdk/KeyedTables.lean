import Mathlib.Data.List.Basic
import Mathlib.Tactic.Common

/-!
Tables whose rows never share a unique key. A row occupies a list of keys;
two rows may stand in one table only when these lists are disjoint. A
statement that would break this has no resulting table, which is how a
database refuses it. Updates that leave every key alone always succeed.
-/

namespace PapeSdk.KeyedTables

variable {α κ : Type*} {keys : α → List κ}

/-- Two rows without a common unique key. -/
def Apart (keys : α → List κ) (a b : α) : Prop := ∀ k ∈ keys a, k ∉ keys b

instance [DecidableEq κ] (a b : α) : Decidable (Apart keys a b) :=
  inferInstanceAs (Decidable (∀ k ∈ keys a, k ∉ keys b))

theorem Apart.symm {a b : α} (h : Apart keys a b) : Apart keys b a :=
  fun k hb ha => h k ha hb

/-- Rows in storage order, any two of them apart. -/
structure Table (keys : α → List κ) where
  rows : List α
  apart : rows.Pairwise (Apart keys)

namespace Table

@[ext]
theorem ext {t u : Table keys} (h : t.rows = u.rows) : t = u := by
  cases t
  cases u
  cases h
  rfl

def empty (keys : α → List κ) : Table keys := ⟨[], List.Pairwise.nil⟩

/-- The only way to build a table whose keys may clash. -/
def ofRows? [DecidableEq κ] (keys : α → List κ) (rows : List α) : Option (Table keys) :=
  if h : rows.Pairwise (Apart keys) then some ⟨rows, h⟩ else none

def insert? [DecidableEq κ] (t : Table keys) (row : α) : Option (Table keys) :=
  ofRows? keys (t.rows ++ [row])

def update? [DecidableEq κ] (t : Table keys) (p : α → Bool) (f : α → α) : Option (Table keys) :=
  ofRows? keys (t.rows.map fun r => if p r then f r else r)

/-- An update that keeps the keys of every row. -/
def touch (t : Table keys) (p : α → Bool) (f : α → α)
    (hf : ∀ r, keys (f r) = keys r := by intro r; exact Eq.symm rfl) : Table keys where
  rows := t.rows.map fun r => if p r then f r else r
  apart := by
    have hkeys : ∀ r, keys (if p r then f r else r) = keys r := by
      intro r
      split
      · exact hf r
      · rfl
    refine List.pairwise_map.mpr (t.apart.imp ?_)
    intro a b hab k ha hb
    rw [hkeys] at ha hb
    exact hab k ha hb

def delete (t : Table keys) (p : α → Bool) : Table keys :=
  ⟨t.rows.filter fun r => !p r, t.apart.filter _⟩

/-- The number of rows a statement with condition `p` touches. -/
def affected (t : Table keys) (p : α → Bool) : ℕ := t.rows.countP p

def first? (t : Table keys) (p : α → Bool) : Option α := t.rows.find? p

/-- A key names at most one row. -/
theorem eq_of_key (t : Table keys) {a b : α} {k : κ} (ha : a ∈ t.rows) (hb : b ∈ t.rows)
    (hka : k ∈ keys a) (hkb : k ∈ keys b) : a = b := by
  obtain ⟨i, hi, rfl⟩ := List.getElem_of_mem ha
  obtain ⟨j, hj, rfl⟩ := List.getElem_of_mem hb
  have happart := List.pairwise_iff_getElem.mp t.apart
  rcases Nat.lt_trichotomy i j with hij | hij | hij
  · exact absurd hkb (happart i j hi hj hij k hka)
  · subst hij
    rfl
  · exact absurd hka (happart j i hj hi hij k hkb)

theorem ofRows?_rows [DecidableEq κ] {rows : List α} {t : Table keys}
    (h : ofRows? keys rows = some t) : t.rows = rows := by
  unfold ofRows? at h
  split at h
  · cases h
    rfl
  · cases h

theorem ofRows?_some [DecidableEq κ] {rows : List α} (h : rows.Pairwise (Apart keys)) :
    ofRows? keys rows = some ⟨rows, h⟩ := by
  simp [ofRows?, h]

theorem insert?_rows [DecidableEq κ] {t u : Table keys} {row : α}
    (h : t.insert? row = some u) : u.rows = t.rows ++ [row] := ofRows?_rows h

theorem insert?_some [DecidableEq κ] {t : Table keys} {row : α}
    (h : ∀ r ∈ t.rows, Apart keys r row) : ∃ u, t.insert? row = some u := by
  have happart : (t.rows ++ [row]).Pairwise (Apart keys) := by
    refine List.pairwise_append.mpr ⟨t.apart, List.pairwise_singleton _ _, fun r hr a ha => ?_⟩
    rw [List.mem_singleton.mp ha]
    exact h r hr
  exact ⟨_, ofRows?_some happart⟩

theorem mem_insert? [DecidableEq κ] {t u : Table keys} {row r : α}
    (h : t.insert? row = some u) : r ∈ u.rows ↔ r ∈ t.rows ∨ r = row := by
  rw [insert?_rows h, List.mem_append, List.mem_singleton]

theorem update?_rows [DecidableEq κ] {t u : Table keys} {p : α → Bool} {f : α → α}
    (h : t.update? p f = some u) : u.rows = t.rows.map fun r => if p r then f r else r :=
  ofRows?_rows h

/-- An update of one row fails only when its result has a key of another row. -/
theorem update?_some [DecidableEq κ] {t : Table keys} {p : α → Bool} {f : α → α} {r : α} {k : κ}
    (hk : k ∈ keys r) (hunique : ∀ a ∈ t.rows, p a = true → a = r)
    (hapart : ∀ a ∈ t.rows, p a = false → Apart keys a (f r)) : ∃ u, t.update? p f = some u := by
  have hrows : (t.rows.map fun a => if p a then f a else a).Pairwise (Apart keys) := by
    apply List.pairwise_map.mpr
    refine t.apart.imp_of_mem ?_
    intro a b ha hb hab
    cases hpa : p a with
    | false =>
      cases hpb : p b with
      | false => simpa using hab
      | true =>
        rw [hunique b hb hpb]
        exact hapart a ha hpa
    | true =>
      cases hpb : p b with
      | false =>
        rw [hunique a ha hpa]
        exact (hapart b hb hpb).symm
      | true =>
        rw [hunique a ha hpa, hunique b hb hpb] at hab
        exact absurd hk (hab k hk)
  exact ⟨_, ofRows?_some hrows⟩

theorem mem_update? [DecidableEq κ] {t u : Table keys} {p : α → Bool} {f : α → α} {r : α}
    (h : t.update? p f = some u) : r ∈ u.rows ↔ ∃ a ∈ t.rows, (if p a then f a else a) = r := by
  rw [update?_rows h, List.mem_map]

theorem mem_touch {t : Table keys} {p : α → Bool} {f : α → α} {hf : ∀ r, keys (f r) = keys r}
    {r : α} : r ∈ (t.touch p f hf).rows ↔ ∃ a ∈ t.rows, (if p a then f a else a) = r :=
  List.mem_map

/-- A row after an update is an updated row or one that the condition left out. -/
theorem of_mem_updated {rows : List α} {p : α → Bool} {f : α → α} {r : α}
    (hr : r ∈ rows.map fun a => if p a then f a else a) :
    (∃ a ∈ rows, p a = true ∧ f a = r) ∨ r ∈ rows ∧ p r = false := by
  obtain ⟨a, ha, hresult⟩ := List.mem_map.mp hr
  by_cases hp : p a = true
  · rw [if_pos hp] at hresult
    exact Or.inl ⟨a, ha, hp, hresult⟩
  · rw [if_neg hp] at hresult
    subst hresult
    exact Or.inr ⟨ha, by simpa using hp⟩

theorem of_mem_update? [DecidableEq κ] {t u : Table keys} {p : α → Bool} {f : α → α} {r : α}
    (h : t.update? p f = some u) (hr : r ∈ u.rows) :
    (∃ a ∈ t.rows, p a = true ∧ f a = r) ∨ r ∈ t.rows ∧ p r = false := by
  rw [update?_rows h] at hr
  exact of_mem_updated hr

/-- Every row survives an update, changed or not. -/
theorem mem_updated {rows : List α} {p : α → Bool} {f : α → α} {a : α} (ha : a ∈ rows) :
    (if p a then f a else a) ∈ rows.map fun a => if p a then f a else a :=
  List.mem_map_of_mem ha

/-- Rows that an update does not concern stand as before. -/
theorem filter_updated {rows : List α} {p q : α → Bool} {f : α → α}
    (h : ∀ r, p r = true → q r = false ∧ q (f r) = false) :
    (rows.map fun r => if p r then f r else r).filter q = rows.filter q := by
  induction rows with
  | nil => rfl
  | cons r rest ih =>
    rw [List.map_cons, List.filter_cons, List.filter_cons, ih]
    by_cases hp : p r = true
    · obtain ⟨hq, hqf⟩ := h r hp
      simp [hp, hq, hqf]
    · simp [hp]

theorem filter_delete {t : Table keys} {p q : α → Bool} (h : ∀ r, p r = true → q r = false) :
    (t.delete p).rows.filter q = t.rows.filter q := by
  show (t.rows.filter fun r => !p r).filter q = t.rows.filter q
  rw [List.filter_filter]
  refine List.filter_congr fun r _ => ?_
  by_cases hp : p r = true
  · simp [hp, h r hp]
  · simp [hp]

theorem mem_delete {t : Table keys} {p : α → Bool} {r : α} :
    r ∈ (t.delete p).rows ↔ r ∈ t.rows ∧ ¬ p r = true := by
  simp [delete]

theorem mem_of_first? {t : Table keys} {p : α → Bool} {r : α} (h : t.first? p = some r) :
    r ∈ t.rows := List.mem_of_find?_eq_some h

theorem first?_holds {t : Table keys} {p : α → Bool} {r : α} (h : t.first? p = some r) :
    p r = true := List.find?_some h

theorem first?_eq_none {t : Table keys} {p : α → Bool} :
    t.first? p = none ↔ ∀ r ∈ t.rows, ¬ p r = true := List.find?_eq_none

theorem exists_of_affected {t : Table keys} {p : α → Bool} (h : t.affected p ≠ 0) :
    ∃ r ∈ t.rows, p r = true := by
  unfold affected at h
  exact List.countP_pos_iff.mp (Nat.pos_of_ne_zero h)

theorem affected_eq_zero {t : Table keys} {p : α → Bool} :
    t.affected p = 0 ↔ ∀ r ∈ t.rows, ¬ p r = true := List.countP_eq_zero

/-- A condition that singles out one row touches exactly one. -/
theorem affected_eq_one {t : Table keys} {p : α → Bool} {r : α} {k : κ} (hr : r ∈ t.rows)
    (hk : k ∈ keys r) (hp : p r = true) (hunique : ∀ a ∈ t.rows, p a = true → a = r) :
    t.affected p = 1 := by
  obtain ⟨before, after, hrows⟩ := List.append_of_mem hr
  have happart := t.apart
  rw [hrows, List.pairwise_append, List.pairwise_cons] at happart
  have hbefore : before.countP p = 0 := by
    apply List.countP_eq_zero.mpr
    intro a ha hpa
    have heq := hunique a (by simp [hrows, ha]) hpa
    subst heq
    exact happart.2.2 a ha a List.mem_cons_self k hk hk
  have hafter : after.countP p = 0 := by
    apply List.countP_eq_zero.mpr
    intro a ha hpa
    have heq := hunique a (by simp [hrows, ha]) hpa
    subst heq
    exact happart.2.1.1 a ha k hk hk
  simp [affected, hrows, List.countP_append, hbefore, hafter, hp]

/-- Where a condition singles out one row, some row that meets it has a property exactly when
that row has it. -/
theorem exists_and_iff {t : Table keys} {p q : α → Prop} {r : α} (hr : r ∈ t.rows) (hp : p r)
    (hunique : ∀ a ∈ t.rows, p a → a = r) : (∃ a ∈ t.rows, p a ∧ q a) ↔ q r := by
  constructor
  · intro ⟨a, ha, hpa, hqa⟩
    rw [hunique a ha hpa] at hqa
    exact hqa
  · intro hq
    exact ⟨r, hr, hp, hq⟩

/-- A lookup that can only match one row finds that row. -/
theorem first?_eq_of_unique {t : Table keys} {p : α → Bool} {r : α} (hr : r ∈ t.rows)
    (hp : p r = true) (hunique : ∀ a ∈ t.rows, p a = true → a = r) : t.first? p = some r := by
  cases h : t.first? p with
  | none => exact absurd hp (first?_eq_none.mp h r hr)
  | some a => rw [hunique a (mem_of_first? h) (first?_holds h)]

end Table

end PapeSdk.KeyedTables
