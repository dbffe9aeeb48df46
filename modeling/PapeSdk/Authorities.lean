import PapeSdk.LetterCase
import Mathlib.Data.List.Basic

/-!
Host and port in one text. Two readers take it apart: a dialler wants exactly
one colon outside brackets, a URL takes whatever follows the last colon for
the port when it is made of digits. Joining a host without brackets to a port
gives a text that the dialler reads back. Texts are decoded byte strings, in
which a byte that decodes to nothing stands for itself.
-/

namespace PapeSdk.Authorities

/-- A decoded character, or a byte that is part of none. -/
inductive Rune where
  | char (c : Char)
  | invalid (b : UInt8)
  deriving DecidableEq, Repr

abbrev Text := List Rune

def textOf (s : String) : Text := s.toList.map Rune.char

def colon : Rune := .char ':'

def dot : Rune := .char '.'

def opening : Rune := .char '['

def closing : Rune := .char ']'

namespace Rune

def isDigit : Rune → Bool
  | .char c => c.isDigit
  | .invalid _ => false

def isASCII : Rune → Bool
  | .char c => c.toNat < 128
  | .invalid _ => false

def isSpace : Rune → Bool
  | .char c => LetterCase.isSpace c
  | .invalid _ => false

/-- A byte that decodes to nothing becomes the replacement character. -/
def lower : Rune → Rune
  | .char c => .char (LetterCase.lowerRune c)
  | .invalid _ => .char (Char.ofNat 0xFFFD)

def isBracket (r : Rune) : Bool := r == opening || r == closing

end Rune

def trimSpace (t : Text) : Text := (t.dropWhile Rune.isSpace).rdropWhile Rune.isSpace

def trimBrackets (t : Text) : Text := (t.dropWhile Rune.isBracket).rdropWhile Rune.isBracket

/-- Without one dot at the end. -/
def trimDot (t : Text) : Text := if t.getLast? = some dot then t.dropLast else t

/-- The name that a host text stands for. -/
def canon (t : Text) : Text := (trimDot t).map Rune.lower

section Cut

variable {α : Type} [DecidableEq α] {x : α}

def cutLast (x : α) : List α → Option (List α × List α)
  | [] => none
  | y :: ys =>
    match cutLast x ys with
    | some (before, after) => some (y :: before, after)
    | none => if y = x then some ([], ys) else none

def cutFirst (x : α) : List α → Option (List α × List α)
  | [] => none
  | y :: ys =>
    if y = x then some ([], ys)
    else
      match cutFirst x ys with
      | some (before, after) => some (y :: before, after)
      | none => none

theorem cutLast_eq_none {l : List α} : cutLast x l = none ↔ x ∉ l := by
  induction l with
  | nil => simp [cutLast]
  | cons y ys ih =>
    rw [cutLast]
    cases h : cutLast x ys with
    | none =>
      have hys := ih.mp h
      by_cases hy : y = x
      · simp [hy]
      · simp [hy, hys, Ne.symm hy]
    | some r =>
      have hys : x ∈ ys := by
        by_contra hnot
        rw [ih.mpr hnot] at h
        cases h
      simp [hys]

theorem cutLast_append {before after : List α} (h : x ∉ after) :
    cutLast x (before ++ x :: after) = some (before, after) := by
  induction before with
  | nil =>
    rw [List.nil_append, cutLast, cutLast_eq_none.mpr h]
    exact if_pos rfl
  | cons y ys ih => rw [List.cons_append, cutLast, ih]

theorem cutLast_eq_some {l before after : List α} (h : cutLast x l = some (before, after)) :
    l = before ++ x :: after ∧ x ∉ after := by
  induction l generalizing before with
  | nil => cases h
  | cons y ys ih =>
    rw [cutLast] at h
    cases hrest : cutLast x ys with
    | none =>
      rw [hrest] at h
      by_cases hy : y = x
      · simp only [if_pos hy, Option.some.injEq, Prod.mk.injEq] at h
        obtain ⟨rfl, rfl⟩ := h
        exact ⟨by rw [hy]; rfl, cutLast_eq_none.mp hrest⟩
      · simp only [if_neg hy, reduceCtorEq] at h
    | some r =>
      obtain ⟨b, a⟩ := r
      rw [hrest] at h
      simp only [Option.some.injEq, Prod.mk.injEq] at h
      obtain ⟨rfl, rfl⟩ := h
      obtain ⟨hys, ha⟩ := ih hrest
      exact ⟨by rw [hys]; rfl, ha⟩

/-- The last separator of a list is in one place. -/
theorem append_cons_inj {p q s t : List α} (hs : x ∉ s) (ht : x ∉ t)
    (h : p ++ x :: s = q ++ x :: t) : p = q ∧ s = t := by
  have hp : cutLast x (p ++ x :: s) = some (p, s) := cutLast_append hs
  rw [h, cutLast_append ht, Option.some.injEq, Prod.mk.injEq] at hp
  exact ⟨hp.1.symm, hp.2.symm⟩

theorem cutFirst_append {before after : List α} (h : x ∉ before) :
    cutFirst x (before ++ x :: after) = some (before, after) := by
  induction before with
  | nil => exact if_pos rfl
  | cons y ys ih =>
    rw [List.mem_cons, not_or] at h
    rw [List.cons_append, cutFirst, if_neg (Ne.symm h.1), ih h.2]

theorem cutFirst_eq_some {l before after : List α} (h : cutFirst x l = some (before, after)) :
    l = before ++ x :: after ∧ x ∉ before := by
  induction l generalizing before with
  | nil => cases h
  | cons y ys ih =>
    rw [cutFirst] at h
    by_cases hy : y = x
    · rw [if_pos hy, Option.some.injEq, Prod.mk.injEq] at h
      obtain ⟨rfl, rfl⟩ := h
      exact ⟨by rw [hy]; rfl, by simp⟩
    · rw [if_neg hy] at h
      cases hrest : cutFirst x ys with
      | none =>
        rw [hrest] at h
        cases h
      | some r =>
        obtain ⟨b, a⟩ := r
        rw [hrest] at h
        simp only [Option.some.injEq, Prod.mk.injEq] at h
        obtain ⟨rfl, rfl⟩ := h
        obtain ⟨hys, hb⟩ := ih hrest
        exact ⟨by rw [hys]; rfl, by simp [hb, Ne.symm hy]⟩

end Cut

def Bare (t : Text) : Prop := opening ∉ t ∧ closing ∉ t

instance (t : Text) : Decidable (Bare t) := inferInstanceAs (Decidable (_ ∧ _))

/-- `net.SplitHostPort`; its callers here look at nothing but success. -/
def splitHostPort (hostport : Text) : Option (Text × Text) :=
  match cutLast colon hostport with
  | none => none
  | some (before, port) =>
    match hostport with
    | [] => none
    | first :: rest =>
      if first = opening then
        match cutFirst closing rest with
        | none => none
        | some (host, _) =>
          -- the first closing bracket stands just before the last colon
          if before = opening :: (host ++ [closing]) ∧ opening ∉ rest ∧ closing ∉ port then
            some (host, port)
          else none
      else if colon ∈ before ∨ opening ∈ hostport ∨ closing ∈ hostport then none
      else some (before, port)

/-- `net.JoinHostPort`. -/
def joinHostPort (host port : Text) : Text :=
  if colon ∈ host then opening :: (host ++ closing :: colon :: port) else host ++ colon :: port

def stripBrackets (host : Text) : Text :=
  if host.head? = some opening ∧ host.getLast? = some closing then host.tail.dropLast else host

def digits (t : Text) : Bool := t.all Rune.isDigit

/-- Hostname and port of a URL: the last colon counts when only digits follow it. -/
def urlHostPort (hostport : Text) : Text × Text :=
  match cutLast colon hostport with
  | some (host, port) => if digits port then (stripBrackets host, port) else
      (stripBrackets hostport, [])
  | none => (stripBrackets hostport, [])

theorem Bare.cons {r : Rune} {t : Text} (ho : r ≠ opening) (hc : r ≠ closing) (h : Bare t) :
    Bare (r :: t) :=
  ⟨by simp [Ne.symm ho, h.1], by simp [Ne.symm hc, h.2]⟩

theorem bare_append {s t : Text} : Bare (s ++ t) ↔ Bare s ∧ Bare t := by
  simp only [Bare, List.mem_append, not_or]
  exact ⟨fun ⟨⟨h1, h2⟩, h3, h4⟩ => ⟨⟨h1, h3⟩, h2, h4⟩, fun ⟨⟨h1, h3⟩, h2, h4⟩ => ⟨⟨h1, h2⟩, h3, h4⟩⟩

theorem bare_colon_cons {t : Text} : Bare (colon :: t) ↔ Bare t := by
  constructor
  · intro h
    exact ⟨fun hm => h.1 (List.mem_cons_of_mem _ hm), fun hm => h.2 (List.mem_cons_of_mem _ hm)⟩
  · exact Bare.cons (by decide) (by decide)

/-- What the dialler accepts, and how it reads it. -/
theorem splitHostPort_eq_some {a host port : Text} :
    splitHostPort a = some (host, port) ↔
      colon ∉ port ∧ Bare host ∧ Bare port ∧
        ((colon ∉ host ∧ a = host ++ colon :: port) ∨
          a = opening :: (host ++ closing :: colon :: port)) := by
  constructor
  · intro h
    unfold splitHostPort at h
    cases hcut : cutLast colon a with
    | none =>
      rw [hcut] at h
      cases h
    | some r =>
      obtain ⟨before, p⟩ := r
      obtain ⟨ha, hp⟩ := cutLast_eq_some hcut
      cases a with
      | nil => simp at ha
      | cons first rest =>
        rw [hcut] at h
        simp only at h
        split at h
        · next hfirst =>
          cases hclose : cutFirst closing rest with
          | none =>
            rw [hclose] at h
            cases h
          | some q =>
            obtain ⟨inner, after⟩ := q
            rw [hclose] at h
            simp only at h
            split at h
            · next hcond =>
              cases h
              obtain ⟨hbefore, hopen, hclosed⟩ := hcond
              have hrest : rest = host ++ closing :: colon :: port := by
                rw [hbefore, List.cons_append, List.append_assoc] at ha
                exact (List.cons.inj ha).2
              have hinner := (cutFirst_eq_some hclose).2
              rw [hrest] at hopen
              simp only [List.mem_append, List.mem_cons, not_or] at hopen
              refine ⟨hp, ⟨hopen.1, hinner⟩, ⟨hopen.2.2.2, hclosed⟩, Or.inr ?_⟩
              rw [hfirst, hrest]
            · cases h
        · split at h
          · cases h
          · next hcond =>
            cases h
            simp only [not_or] at hcond
            have hbare : Bare (host ++ colon :: port) := by
              rw [← ha]
              exact hcond.2
            obtain ⟨hhost, hport⟩ := bare_append.mp hbare
            exact ⟨hp, hhost, bare_colon_cons.mp hport, Or.inl ⟨hcond.1, ha⟩⟩
  · rintro ⟨hp, hhost, hport, ⟨hcolon, rfl⟩ | rfl⟩
    · have hcut : cutLast colon (host ++ colon :: port) = some (host, port) := cutLast_append hp
      have hbare : Bare (host ++ colon :: port) :=
        bare_append.mpr ⟨hhost, bare_colon_cons.mpr hport⟩
      unfold splitHostPort
      rw [hcut]
      cases htext : host ++ colon :: port with
      | nil => simp at htext
      | cons first rest =>
        rw [htext] at hbare
        have hfirst : first ≠ opening := by
          rintro rfl
          exact hbare.1 List.mem_cons_self
        simp only [if_neg hfirst]
        rw [if_neg]
        rintro (hmem | hmem | hmem)
        · exact hcolon hmem
        · exact hbare.1 hmem
        · exact hbare.2 hmem
    · have hassoc : opening :: (host ++ closing :: colon :: port) =
          (opening :: (host ++ [closing])) ++ colon :: port := by simp
      have hcut : cutLast colon (opening :: (host ++ closing :: colon :: port)) =
          some (opening :: (host ++ [closing]), port) := by
        rw [hassoc]
        exact cutLast_append hp
      have hopen : opening ∉ host ++ closing :: colon :: port := by
        simp only [List.mem_append, List.mem_cons, not_or]
        exact ⟨hhost.1, by decide, by decide, hport.1⟩
      unfold splitHostPort
      rw [hcut]
      simp only [if_true, cutFirst_append hhost.2]
      rw [if_pos ⟨trivial, hopen, hport.2⟩]

/-- The dialler reads back a bare host and a port. -/
theorem splitHostPort_joinHostPort {host port : Text} (hhost : Bare host) (hport : Bare port)
    (hcolon : colon ∉ port) : splitHostPort (joinHostPort host port) = some (host, port) := by
  apply splitHostPort_eq_some.mpr
  refine ⟨hcolon, hhost, hport, ?_⟩
  unfold joinHostPort
  split
  · exact Or.inr rfl
  · next hnone => exact Or.inl ⟨hnone, rfl⟩

/-- What the dialler makes of a joined host: the host itself when it has no
bracket, or its inside when one pair of brackets encloses a name. -/
theorem splitHostPort_joined {v port h' p' : Text} (hcolon : colon ∉ port)
    (h : splitHostPort (joinHostPort v port) = some (h', p')) :
    p' = port ∧
      ((Bare v ∧ h' = v) ∨ (v = opening :: (h' ++ [closing]) ∧ colon ∉ h' ∧ Bare h')) := by
  obtain ⟨hp', hbare, -, hform⟩ := splitHostPort_eq_some.mp h
  unfold joinHostPort at hform
  split at hform
  · next hv =>
    rcases hform with ⟨hno, heq⟩ | heq
    · -- the joined text starts with a bracket, and a bare host cannot
      cases h' with
      | nil => exact absurd (List.cons.inj heq).1 (by decide)
      | cons y ys => exact absurd ((List.cons.inj heq).1 ▸ List.mem_cons_self) hbare.1
    · have htail : (v ++ [closing]) ++ colon :: port = (h' ++ [closing]) ++ colon :: p' := by
        simpa using heq
      obtain ⟨hhost, hport⟩ := append_cons_inj hcolon hp' htail
      have hsame : v = h' := List.append_cancel_right hhost
      exact ⟨hport.symm, Or.inl ⟨hsame ▸ hbare, hsame.symm⟩⟩
  · next hv =>
    rcases hform with ⟨-, heq⟩ | heq
    · obtain ⟨hhost, hport⟩ := append_cons_inj hcolon hp' heq
      exact ⟨hport.symm, Or.inl ⟨hhost ▸ hbare, hhost.symm⟩⟩
    · have hassoc : v ++ colon :: port = (opening :: (h' ++ [closing])) ++ colon :: p' := by
        simpa using heq
      obtain ⟨hhost, hport⟩ := append_cons_inj hcolon hp' hassoc
      have hno : colon ∉ h' := fun hmem => hv (by rw [hhost]; simp [hmem])
      exact ⟨hport.symm, Or.inr ⟨hhost, hno, hbare⟩⟩

theorem Rune.lower_eq_mark {m : Char} (hm : m.toNat ∈ LetterCase.marks) (r : Rune) :
    r.lower = .char m ↔ r = .char m := by
  cases r with
  | char c =>
    simp only [Rune.lower, Rune.char.injEq, ← Char.toNat_inj]
    exact LetterCase.lowerRune_mark hm
  | invalid b =>
    simp only [Rune.lower, Rune.char.injEq, reduceCtorEq, iff_false]
    rintro rfl
    exact absurd hm (by decide)

theorem mem_map_lower {m : Char} (hm : m.toNat ∈ LetterCase.marks) {t : Text} :
    Rune.char m ∈ t.map Rune.lower ↔ Rune.char m ∈ t := by
  rw [List.mem_map]
  constructor
  · rintro ⟨r, hr, hlow⟩
    rwa [← (Rune.lower_eq_mark hm r).mp hlow]
  · intro h
    exact ⟨_, h, (Rune.lower_eq_mark hm _).mpr rfl⟩

theorem mem_trimDot {r : Rune} {t : Text} (hr : r ≠ dot) : r ∈ trimDot t ↔ r ∈ t := by
  unfold trimDot
  split
  · next hlast =>
    have ht : t = t.dropLast ++ [dot] :=
      (List.dropLast_append_getLast? dot hlast).symm
    constructor
    · exact fun h => List.dropLast_subset t h
    · intro h
      rw [ht] at h
      rcases List.mem_append.mp h with h | h
      · exact h
      · exact absurd (List.mem_singleton.mp h) hr
  · exact Iff.rfl

theorem colon_mem_canon {t : Text} : colon ∈ canon t ↔ colon ∈ t :=
  (mem_map_lower (by decide)).trans (mem_trimDot (by decide))

theorem trimDot_map_lower (t : Text) : trimDot (t.map Rune.lower) = canon t := by
  have hlast : (t.map Rune.lower).getLast? = some dot ↔ t.getLast? = some dot := by
    rw [List.getLast?_map, Option.map_eq_some_iff]
    constructor
    · rintro ⟨r, hr, hlow⟩
      rw [hr, (Rune.lower_eq_mark (by decide) r).mp hlow]
      rfl
    · intro h
      exact ⟨dot, h, (Rune.lower_eq_mark (by decide) _).mpr rfl⟩
  unfold canon trimDot
  by_cases h : t.getLast? = some dot
  · rw [if_pos (hlast.mpr h), if_pos h, List.map_dropLast]
  · rw [if_neg (fun hl => h (hlast.mp hl)), if_neg h]

theorem length_canon_le (t : Text) : (canon t).length ≤ t.length := by
  unfold canon trimDot
  split
  · simp
  · simp

theorem length_canon {t : Text} (h : t.getLast? ≠ some dot) : (canon t).length = t.length := by
  unfold canon trimDot
  rw [if_neg h, List.length_map]

theorem isBracket_of_bare {r : Rune} {t : Text} (h : Bare t) (hr : r ∈ t) :
    r.isBracket = false := by
  simp only [Rune.isBracket, Bool.or_eq_false_iff, beq_eq_false_iff_ne]
  exact ⟨fun heq => h.1 (heq ▸ hr), fun heq => h.2 (heq ▸ hr)⟩

theorem dropWhile_bare {t : Text} (h : Bare t) : t.dropWhile Rune.isBracket = t := by
  cases t with
  | nil => rfl
  | cons r rest =>
    rw [List.dropWhile_cons, isBracket_of_bare h List.mem_cons_self]
    rfl

theorem rdropWhile_of_getLast {t : Text} {r : Rune} (h : t.getLast? = some r)
    (hr : r.isBracket = false) : t.rdropWhile Rune.isBracket = t := by
  rw [List.rdropWhile_eq_self_iff]
  intro hne
  rw [List.getLast?_eq_some_getLast hne, Option.some.injEq] at h
  rw [h, hr]
  exact Bool.false_ne_true

theorem rdropWhile_bare {t : Text} (h : Bare t) : t.rdropWhile Rune.isBracket = t := by
  cases hlast : t.getLast? with
  | none => rw [List.getLast?_eq_none_iff.mp hlast]; rfl
  | some r =>
    exact rdropWhile_of_getLast hlast (isBracket_of_bare h (List.mem_of_getLast? hlast))

theorem trimBrackets_bare {t : Text} (h : Bare t) : trimBrackets t = t := by
  rw [trimBrackets, dropWhile_bare h, rdropWhile_bare h]

theorem trimBrackets_enclosed (t : Text) :
    trimBrackets (opening :: (t ++ [closing])) = trimBrackets t := by
  have hopen : opening.isBracket = true := rfl
  have hclose : closing.isBracket = true := rfl
  rw [trimBrackets, trimBrackets, List.dropWhile_cons_of_pos hopen, List.dropWhile_append]
  cases hdrop : t.dropWhile Rune.isBracket with
  | nil => rfl
  | cons r rest =>
    rw [List.isEmpty_cons, if_neg Bool.false_ne_true, List.rdropWhile_concat_pos _ _ _ hclose]

theorem stripBrackets_bare {t : Text} (h : Bare t) : stripBrackets t = t := by
  rw [stripBrackets, if_neg]
  rintro ⟨hhead, -⟩
  exact h.1 (List.mem_of_head? hhead)

theorem stripBrackets_wrapped (t : Text) : stripBrackets (opening :: (t ++ [closing])) = t := by
  rw [stripBrackets, if_pos ⟨rfl, by rw [← List.cons_append, List.getLast?_concat]⟩]
  simp

theorem eq_of_stripBrackets (t : Text) :
    stripBrackets t = t ∨ t = opening :: (stripBrackets t ++ [closing]) := by
  by_cases h : t.head? = some opening ∧ t.getLast? = some closing
  · refine Or.inr ?_
    rw [stripBrackets, if_pos h]
    cases t with
    | nil => simp at h
    | cons r rest =>
      obtain ⟨hhead, hlast⟩ := h
      rw [List.head?_cons, Option.some.injEq] at hhead
      have hrest : rest.getLast? = some closing := by
        cases rest with
        | nil =>
          rw [List.getLast?_singleton, Option.some.injEq, hhead] at hlast
          exact absurd hlast (by decide)
        | cons y ys => rwa [List.getLast?_cons_cons] at hlast
      rw [hhead, List.tail_cons, List.dropLast_append_getLast? _ hrest]
  · exact Or.inl (by rw [stripBrackets, if_neg h])

/-- Digits are neither colons nor brackets, and a text of them ends in no dot. -/
theorem digits_plain {t : Text} (h : digits t = true) : colon ∉ t ∧ Bare t := by
  have hdigit := List.all_eq_true.mp h
  refine ⟨fun hm => ?_, fun hm => ?_, fun hm => ?_⟩
  · exact absurd (hdigit _ hm) (by decide)
  · exact absurd (hdigit _ hm) (by decide)
  · exact absurd (hdigit _ hm) (by decide)

theorem getLast_port {h p : Text} (hp : digits p = true) :
    ∃ r, (h ++ colon :: p).getLast? = some r ∧ r ≠ dot ∧ r.isBracket = false := by
  cases hlast : p.getLast? with
  | none =>
    rw [List.getLast?_eq_none_iff.mp hlast]
    exact ⟨colon, List.getLast?_concat, by decide, by decide⟩
  | some r =>
    have hmem := List.mem_of_getLast? hlast
    refine ⟨r, ?_, ?_, isBracket_of_bare (digits_plain hp).2 hmem⟩
    · rw [List.getLast?_append, List.getLast?_cons, hlast]
      rfl
    · rintro rfl
      exact absurd (List.all_eq_true.mp hp _ hmem) (by decide)

theorem trimBrackets_head (t : Text) : (trimBrackets t).head? ≠ some opening := by
  intro hhead
  obtain ⟨rest, hrest⟩ := List.rdropWhile_prefix Rune.isBracket (t.dropWhile Rune.isBracket)
  have hdrop : (t.dropWhile Rune.isBracket).head? = some opening := by
    rw [← hrest, List.head?_append]
    rw [trimBrackets] at hhead
    rw [hhead]
    rfl
  have hnot := List.head?_dropWhile_not Rune.isBracket t
  rw [hdrop] at hnot
  exact absurd hnot (by decide)

theorem mem_of_mem_trimBrackets {r : Rune} {t : Text} (h : r ∈ trimBrackets t) : r ∈ t :=
  (List.dropWhile_sublist _).mem ((List.rdropWhile_prefix _ _).mem h)

theorem trimSpace_ends {t : Text} (hfirst : ∀ r, t.head? = some r → r.isSpace = false)
    (hlast : ∀ r, t.getLast? = some r → r.isSpace = false) : trimSpace t = t := by
  have hleft : t.dropWhile Rune.isSpace = t := by
    cases t with
    | nil => rfl
    | cons r rest =>
      rw [List.dropWhile_cons, hfirst r rfl]
      rfl
  rw [trimSpace, hleft, List.rdropWhile_eq_self_iff]
  intro hne
  rw [hlast _ (List.getLast?_eq_some_getLast hne)]
  exact Bool.false_ne_true

theorem mem_trimBrackets {r : Rune} {t : Text} (h : r ∈ t) (hr : r.isBracket = false) :
    r ∈ trimBrackets t := by
  have hnot : ¬r.isBracket = true := by
    rw [hr]
    exact Bool.false_ne_true
  have hleft : r ∈ t.dropWhile Rune.isBracket := by
    have hsplit : r ∈ t.takeWhile Rune.isBracket ++ t.dropWhile Rune.isBracket := by
      rwa [List.takeWhile_append_dropWhile]
    rcases List.mem_append.mp hsplit with htake | hdrop
    · exact absurd (List.mem_takeWhile_imp htake) hnot
    · exact hdrop
  have hsplit : r ∈ (t.dropWhile Rune.isBracket).rdropWhile Rune.isBracket ++
      (t.dropWhile Rune.isBracket).rtakeWhile Rune.isBracket := by
    rwa [List.rdropWhile_append_rtakeWhile]
  rcases List.mem_append.mp hsplit with hkept | htake
  · exact hkept
  · exact absurd (List.mem_rtakeWhile_imp htake) hnot

/-- Joining keeps host and port apart. -/
theorem joinHostPort_inj {h p h' p' : Text} (hp : colon ∉ p) (hp' : colon ∉ p')
    (heq : joinHostPort h p = joinHostPort h' p') : h = h' ∧ p = p' := by
  have hwrap : ∀ host port : Text, opening :: (host ++ closing :: colon :: port) =
      (opening :: (host ++ [closing])) ++ colon :: port := by simp
  unfold joinHostPort at heq
  split at heq
  · next hcolon =>
    rw [hwrap] at heq
    split at heq
    · rw [hwrap] at heq
      obtain ⟨hhost, hport⟩ := append_cons_inj hp hp' heq
      exact ⟨List.append_cancel_right (List.cons.inj hhost).2, hport⟩
    · next hnone =>
      -- an enclosed host has a colon, and the other one has none
      have hhost := (append_cons_inj hp hp' heq).1
      refine absurd ?_ hnone
      rw [← hhost]
      exact List.mem_cons_of_mem _ (List.mem_append_left _ hcolon)
  · next hnone =>
    split at heq
    · next hcolon =>
      rw [hwrap] at heq
      have hhost := (append_cons_inj hp hp' heq).1
      refine absurd ?_ hnone
      rw [hhost]
      exact List.mem_cons_of_mem _ (List.mem_append_left _ hcolon)
    · exact append_cons_inj hp hp' heq

def Rune.asciiLower : Rune → Rune
  | .char c => .char (LetterCase.asciiLower c)
  | .invalid b => .invalid b

/-- The host is the domain, or ends in a dot and the domain. -/
def Under (domain host : Text) : Prop := host = domain ∨ dot :: domain <:+ host

instance (domain host : Text) : Decidable (Under domain host) :=
  inferInstanceAs (Decidable (_ ∨ _))

theorem Under.suffix {domain host : Text} (h : Under domain host) : domain <:+ host := by
  rcases h with rfl | hbehind
  · exact List.suffix_refl _
  · exact (List.suffix_cons dot domain).trans hbehind

/-- No host is under two domains of which neither ends in the other. -/
theorem Under.apart {domain other host : Text} (h : Under domain host) (hno : ¬ domain <:+ other)
    (hno' : ¬ other <:+ domain) : ¬ Under other host := by
  intro hother
  rcases List.suffix_or_suffix_of_suffix h.suffix hother.suffix with hin | hin
  · exact hno hin
  · exact hno' hin

/-- ASCII without the two letters that a character from outside has for its lower case. -/
def Plain (t : Text) : Prop := ∀ r ∈ t, ∃ c, r = .char c ∧ c.toNat < 128 ∧ c ≠ 'i' ∧ c ≠ 'k'

theorem Rune.lower_eq_plain {r : Rune} {c : Char} (hc : c.toNat < 128) (hi : c ≠ 'i')
    (hk : c ≠ 'k') : r.lower = .char c ↔ r.asciiLower = .char c := by
  cases r with
  | char d =>
    rw [Rune.lower, Rune.asciiLower, Rune.char.injEq, Rune.char.injEq]
    exact LetterCase.lowerRune_eq_iff hc hi hk
  | invalid b =>
    simp only [Rune.lower, Rune.asciiLower, Rune.char.injEq, reduceCtorEq, iff_false]
    rintro rfl
    exact absurd hc (by decide)

theorem Rune.lower_eq_i {r : Rune} :
    r.lower = .char 'i' ↔ r.asciiLower = .char 'i' ∨ r.asciiLower = .char 'İ' := by
  cases r with
  | char d =>
    simp only [Rune.lower, Rune.asciiLower, Rune.char.injEq]
    rw [LetterCase.lowerRune_eq_i, LetterCase.asciiLower_eq_dotted]
  | invalid b => simp [Rune.lower, Rune.asciiLower]

theorem map_lower_plain {p t : Text} (h : Plain p) :
    t.map Rune.lower = p ↔ t.map Rune.asciiLower = p := by
  induction t generalizing p with
  | nil => exact Iff.rfl
  | cons r t ih =>
    rw [List.map_cons, List.map_cons]
    cases p with
    | nil => simp
    | cons q p =>
      obtain ⟨c, rfl, hc, hi, hk⟩ := h q List.mem_cons_self
      rw [List.cons.injEq, List.cons.injEq, Rune.lower_eq_plain hc hi hk,
        ih fun r hr => h r (List.mem_cons_of_mem _ hr)]

/-- An i comes from two letters, the rest of a plain text from its own. -/
theorem map_lower_i {p q t : Text} (hp : Plain p) (hq : Plain q) :
    t.map Rune.lower = p ++ .char 'i' :: q ↔
      t.map Rune.asciiLower = p ++ .char 'i' :: q ∨ t.map Rune.asciiLower = p ++ .char 'İ' :: q := by
  simp only [List.map_eq_append_iff, List.map_eq_cons_iff, map_lower_plain hp, map_lower_plain hq,
    Rune.lower_eq_i]
  simp only [or_and_right, and_or_left, exists_or]

theorem under_lower_plain {domain t : Text} (h : Plain domain) :
    Under domain (t.map Rune.lower) ↔ Under domain (t.map Rune.asciiLower) := by
  have hdot : Plain (dot :: domain) := List.forall_mem_cons.mpr ⟨⟨'.', rfl, by decide⟩, h⟩
  unfold Under
  rw [map_lower_plain h, List.suffix_map_iff, List.suffix_map_iff]
  refine or_congr_right (exists_congr fun s => and_congr_right fun _ => ?_)
  rw [eq_comm, map_lower_plain hdot, eq_comm]

/-- A domain that begins with an i is met in two spellings. -/
theorem under_lower_i {domain t : Text} (h : Plain domain) :
    Under (.char 'i' :: domain) (t.map Rune.lower) ↔
      Under (.char 'i' :: domain) (t.map Rune.asciiLower) ∨
        Under (.char 'İ' :: domain) (t.map Rune.asciiLower) := by
  have hnil : Plain [] := fun r hr => nomatch hr
  have hdot : Plain [dot] := by
    intro r hr
    exact ⟨'.', List.mem_singleton.mp hr, by decide⟩
  have hwhole : t.map Rune.lower = .char 'i' :: domain ↔
      t.map Rune.asciiLower = .char 'i' :: domain ∨
        t.map Rune.asciiLower = .char 'İ' :: domain := map_lower_i hnil h
  have hbehind : ∀ s : Text, s.map Rune.lower = dot :: .char 'i' :: domain ↔
      s.map Rune.asciiLower = dot :: .char 'i' :: domain ∨
        s.map Rune.asciiLower = dot :: .char 'İ' :: domain := fun s => map_lower_i hdot h
  simp only [Under, hwhole, List.suffix_map_iff, eq_comm (a := dot :: _), hbehind, and_or_left,
    exists_or]
  exact or_or_or_comm

end PapeSdk.Authorities
