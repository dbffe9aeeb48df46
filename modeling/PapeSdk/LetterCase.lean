import Mathlib.Data.List.DropRight
import Mathlib.Tactic.Common

/-!
Letter case and white space of Unicode text, as Go's standard library sees
them: `unicode.ToLower` applied rune by rune and `strings.TrimSpace`. The
lower-case map is the simple mapping of the Unicode tables, stored as ranges
of code points shifted by a constant; an alternating range skips every other
code point. Lowering a rune twice changes nothing, and it never turns a
visible rune into white space.
-/

namespace PapeSdk.LetterCase

/-- The code points from `lo` to `hi`, or every other one of them, shifted by `delta`. -/
structure CaseRange where
  lo : ℕ
  hi : ℕ
  alternating : Bool
  delta : ℤ

namespace CaseRange

def covers (e : CaseRange) (n : ℕ) : Bool :=
  e.lo ≤ n && n ≤ e.hi && (!e.alternating || (n - e.lo) % 2 == 0)

def shift (e : CaseRange) (n : ℕ) : ℕ := ((n : ℤ) + e.delta).toNat

/-- No shifted code point of `e` lies in `d`. -/
def misses (e d : CaseRange) : Bool :=
  (e.hi : ℤ) + e.delta < d.lo || (d.hi : ℤ) < e.lo + e.delta ||
    ((e.alternating || e.lo == e.hi) && d.alternating && ((e.lo : ℤ) + e.delta - d.lo) % 2 == 1)

/-- The shifted code points are scalar values. -/
def lands (e : CaseRange) : Bool :=
  0 ≤ (e.lo : ℤ) + e.delta && (e.lo ≤ e.hi) && ((e.hi : ℤ) + e.delta < 0xD800 ||
    (0xE000 ≤ (e.lo : ℤ) + e.delta && (e.hi : ℤ) + e.delta < 0x110000))

/-- The shifted code points do not include `n`. -/
def avoids (e : CaseRange) (n : ℕ) : Bool :=
  (e.hi : ℤ) + e.delta < n || (n : ℤ) < e.lo + e.delta

end CaseRange

/-- The simple lower-case mappings of Unicode. -/
@[irreducible] def caseRanges : List CaseRange :=
  [⟨65, 90, false, 32⟩, ⟨192, 214, false, 32⟩, ⟨216, 222, false, 32⟩, ⟨256, 302, true, 1⟩,
   ⟨304, 304, false, -199⟩, ⟨306, 310, true, 1⟩, ⟨313, 327, true, 1⟩, ⟨330, 374, true, 1⟩,
   ⟨376, 376, false, -121⟩, ⟨377, 381, true, 1⟩, ⟨385, 385, false, 210⟩, ⟨386, 388, true, 1⟩,
   ⟨390, 390, false, 206⟩, ⟨391, 391, false, 1⟩, ⟨393, 394, false, 205⟩, ⟨395, 395, false, 1⟩,
   ⟨398, 398, false, 79⟩, ⟨399, 399, false, 202⟩, ⟨400, 400, false, 203⟩, ⟨401, 401, false, 1⟩,
   ⟨403, 403, false, 205⟩, ⟨404, 404, false, 207⟩, ⟨406, 406, false, 211⟩, ⟨407, 407, false, 209⟩,
   ⟨408, 408, false, 1⟩, ⟨412, 412, false, 211⟩, ⟨413, 413, false, 213⟩, ⟨415, 415, false, 214⟩,
   ⟨416, 420, true, 1⟩, ⟨422, 422, false, 218⟩, ⟨423, 423, false, 1⟩, ⟨425, 425, false, 218⟩,
   ⟨428, 428, false, 1⟩, ⟨430, 430, false, 218⟩, ⟨431, 431, false, 1⟩, ⟨433, 434, false, 217⟩,
   ⟨435, 437, true, 1⟩, ⟨439, 439, false, 219⟩, ⟨440, 440, false, 1⟩, ⟨444, 444, false, 1⟩,
   ⟨452, 452, false, 2⟩, ⟨453, 453, false, 1⟩, ⟨455, 455, false, 2⟩, ⟨456, 456, false, 1⟩,
   ⟨458, 458, false, 2⟩, ⟨459, 475, true, 1⟩, ⟨478, 494, true, 1⟩, ⟨497, 497, false, 2⟩,
   ⟨498, 500, true, 1⟩, ⟨502, 502, false, -97⟩, ⟨503, 503, false, -56⟩, ⟨504, 542, true, 1⟩,
   ⟨544, 544, false, -130⟩, ⟨546, 562, true, 1⟩, ⟨570, 570, false, 10795⟩, ⟨571, 571, false, 1⟩,
   ⟨573, 573, false, -163⟩, ⟨574, 574, false, 10792⟩, ⟨577, 577, false, 1⟩, ⟨579, 579, false, -195⟩,
   ⟨580, 580, false, 69⟩, ⟨581, 581, false, 71⟩, ⟨582, 590, true, 1⟩, ⟨880, 882, true, 1⟩,
   ⟨886, 886, false, 1⟩, ⟨895, 895, false, 116⟩, ⟨902, 902, false, 38⟩, ⟨904, 906, false, 37⟩,
   ⟨908, 908, false, 64⟩, ⟨910, 911, false, 63⟩, ⟨913, 929, false, 32⟩, ⟨931, 939, false, 32⟩,
   ⟨975, 975, false, 8⟩, ⟨984, 1006, true, 1⟩, ⟨1012, 1012, false, -60⟩, ⟨1015, 1015, false, 1⟩,
   ⟨1017, 1017, false, -7⟩, ⟨1018, 1018, false, 1⟩, ⟨1021, 1023, false, -130⟩,
   ⟨1024, 1039, false, 80⟩, ⟨1040, 1071, false, 32⟩, ⟨1120, 1152, true, 1⟩, ⟨1162, 1214, true, 1⟩,
   ⟨1216, 1216, false, 15⟩, ⟨1217, 1229, true, 1⟩, ⟨1232, 1326, true, 1⟩, ⟨1329, 1366, false, 48⟩,
   ⟨4256, 4293, false, 7264⟩, ⟨4295, 4295, false, 7264⟩, ⟨4301, 4301, false, 7264⟩,
   ⟨5024, 5103, false, 38864⟩, ⟨5104, 5109, false, 8⟩, ⟨7312, 7354, false, -3008⟩,
   ⟨7357, 7359, false, -3008⟩, ⟨7680, 7828, true, 1⟩, ⟨7838, 7838, false, -7615⟩,
   ⟨7840, 7934, true, 1⟩, ⟨7944, 7951, false, -8⟩, ⟨7960, 7965, false, -8⟩, ⟨7976, 7983, false, -8⟩,
   ⟨7992, 7999, false, -8⟩, ⟨8008, 8013, false, -8⟩, ⟨8025, 8031, true, -8⟩, ⟨8040, 8047, false, -8⟩,
   ⟨8072, 8079, false, -8⟩, ⟨8088, 8095, false, -8⟩, ⟨8104, 8111, false, -8⟩,
   ⟨8120, 8121, false, -8⟩, ⟨8122, 8123, false, -74⟩, ⟨8124, 8124, false, -9⟩,
   ⟨8136, 8139, false, -86⟩, ⟨8140, 8140, false, -9⟩, ⟨8152, 8153, false, -8⟩,
   ⟨8154, 8155, false, -100⟩, ⟨8168, 8169, false, -8⟩, ⟨8170, 8171, false, -112⟩,
   ⟨8172, 8172, false, -7⟩, ⟨8184, 8185, false, -128⟩, ⟨8186, 8187, false, -126⟩,
   ⟨8188, 8188, false, -9⟩, ⟨8486, 8486, false, -7517⟩, ⟨8490, 8490, false, -8383⟩,
   ⟨8491, 8491, false, -8262⟩, ⟨8498, 8498, false, 28⟩, ⟨8544, 8559, false, 16⟩,
   ⟨8579, 8579, false, 1⟩, ⟨9398, 9423, false, 26⟩, ⟨11264, 11311, false, 48⟩,
   ⟨11360, 11360, false, 1⟩, ⟨11362, 11362, false, -10743⟩, ⟨11363, 11363, false, -3814⟩,
   ⟨11364, 11364, false, -10727⟩, ⟨11367, 11371, true, 1⟩, ⟨11373, 11373, false, -10780⟩,
   ⟨11374, 11374, false, -10749⟩, ⟨11375, 11375, false, -10783⟩, ⟨11376, 11376, false, -10782⟩,
   ⟨11378, 11378, false, 1⟩, ⟨11381, 11381, false, 1⟩, ⟨11390, 11391, false, -10815⟩,
   ⟨11392, 11490, true, 1⟩, ⟨11499, 11501, true, 1⟩, ⟨11506, 11506, false, 1⟩,
   ⟨42560, 42604, true, 1⟩, ⟨42624, 42650, true, 1⟩, ⟨42786, 42798, true, 1⟩,
   ⟨42802, 42862, true, 1⟩, ⟨42873, 42875, true, 1⟩, ⟨42877, 42877, false, -35332⟩,
   ⟨42878, 42886, true, 1⟩, ⟨42891, 42891, false, 1⟩, ⟨42893, 42893, false, -42280⟩,
   ⟨42896, 42898, true, 1⟩, ⟨42902, 42920, true, 1⟩, ⟨42922, 42922, false, -42308⟩,
   ⟨42923, 42923, false, -42319⟩, ⟨42924, 42924, false, -42315⟩, ⟨42925, 42925, false, -42305⟩,
   ⟨42926, 42926, false, -42308⟩, ⟨42928, 42928, false, -42258⟩, ⟨42929, 42929, false, -42282⟩,
   ⟨42930, 42930, false, -42261⟩, ⟨42931, 42931, false, 928⟩, ⟨42932, 42946, true, 1⟩,
   ⟨42948, 42948, false, -48⟩, ⟨42949, 42949, false, -42307⟩, ⟨42950, 42950, false, -35384⟩,
   ⟨42951, 42953, true, 1⟩, ⟨42960, 42960, false, 1⟩, ⟨42966, 42968, true, 1⟩,
   ⟨42997, 42997, false, 1⟩, ⟨65313, 65338, false, 32⟩, ⟨66560, 66599, false, 40⟩,
   ⟨66736, 66771, false, 40⟩, ⟨66928, 66938, false, 39⟩, ⟨66940, 66954, false, 39⟩,
   ⟨66956, 66962, false, 39⟩, ⟨66964, 66965, false, 39⟩, ⟨68736, 68786, false, 64⟩,
   ⟨71840, 71871, false, 32⟩, ⟨93760, 93791, false, 32⟩, ⟨125184, 125217, false, 34⟩]

/-- `unicode.ToLower`. -/
def lowerRune (c : Char) : Char :=
  match caseRanges.find? fun e => e.covers c.toNat with
  | some e => Char.ofNat (e.shift c.toNat)
  | none => c

/-- `unicode.IsSpace`. -/
def isSpace (c : Char) : Bool :=
  [9, 10, 11, 12, 13, 32, 0x85, 0xA0, 0x1680, 0x2028, 0x2029, 0x202F, 0x205F, 0x3000].contains
    c.toNat || (0x2000 ≤ c.toNat && c.toNat ≤ 0x200A)

/-- `strings.ToLower`. -/
def toLower (s : String) : String := String.ofList (s.toList.map lowerRune)

/-- `strings.TrimSpace`. -/
def trimSpace (s : String) : String :=
  String.ofList ((s.toList.dropWhile isSpace).rdropWhile isSpace)

/-- The white space code points, listed one by one. -/
def spaces : List ℕ :=
  [9, 10, 11, 12, 13, 32, 0x85, 0xA0, 0x1680, 0x2000, 0x2001, 0x2002, 0x2003, 0x2004, 0x2005,
   0x2006, 0x2007, 0x2008, 0x2009, 0x200A, 0x2028, 0x2029, 0x202F, 0x205F, 0x3000]

/-- The code points of the dot, the colon and the square brackets. -/
def marks : List ℕ := [46, 58, 91, 93]

/-- `misses` on natural numbers, given the first and the last shifted code point. -/
private def CaseRange.clear (first last : ℕ) (steps : Bool) (d : CaseRange) : Bool :=
  Nat.blt last d.lo || Nat.blt d.hi first ||
    (steps && d.alternating && Nat.beq ((first + d.lo) % 2) 1)

/-- What is read off the whole table. -/
private theorem caseRanges_checked :
    caseRanges.all CaseRange.lands = true ∧
    caseRanges.all (fun e => caseRanges.all (CaseRange.clear (e.shift e.lo) (e.shift e.hi)
      (e.alternating || Nat.beq e.lo e.hi))) = true ∧
    caseRanges.all (fun e => spaces.all fun n => e.avoids n) = true ∧
    caseRanges.all (fun e => marks.all fun n => e.avoids n && !e.covers n) = true ∧
    caseRanges.all (fun e => (e.lo == 65 && e.hi == 90 && !e.alternating && e.delta == 32) ||
      (128 ≤ e.lo && (128 ≤ (e.lo : ℤ) + e.delta || (e.lo == 304 && e.hi == 304 && e.delta == -199)
        || (e.lo == 8490 && e.hi == 8490 && e.delta == -8383)))) = true ∧
    caseRanges.any (fun e => e.lo == 65 && e.hi == 90 && !e.alternating) = true ∧
    lowerRune 'İ' = 'i' := by
  decide +kernel

theorem caseRanges_lands : caseRanges.all CaseRange.lands = true := caseRanges_checked.1

private theorem misses_of_clear {e d : CaseRange} (hlands : e.lands = true)
    (h : d.clear (e.shift e.lo) (e.shift e.hi) (e.alternating || Nat.beq e.lo e.hi) = true) :
    e.misses d = true := by
  simp only [CaseRange.lands, Bool.and_eq_true, Bool.or_eq_true, decide_eq_true_eq] at hlands
  simp only [CaseRange.clear, CaseRange.shift, Bool.and_eq_true, Bool.or_eq_true,
    Nat.blt_eq, Nat.beq_eq] at h
  simp only [CaseRange.misses, Bool.and_eq_true, Bool.or_eq_true, decide_eq_true_eq, beq_iff_eq]
  rcases h with (hbelow | habove) | ⟨hsteps, hodd⟩
  · exact Or.inl (Or.inl (by omega))
  · exact Or.inl (Or.inr (by omega))
  · exact Or.inr ⟨hsteps, by omega⟩

private theorem caseRanges_clear : caseRanges.all (fun e =>
    caseRanges.all (CaseRange.clear (e.shift e.lo) (e.shift e.hi)
      (e.alternating || Nat.beq e.lo e.hi))) = true := caseRanges_checked.2.1

theorem caseRanges_misses :
    caseRanges.all (fun e => caseRanges.all fun d => e.misses d) = true := by
  refine List.all_eq_true.mpr fun e he => List.all_eq_true.mpr fun d hd => ?_
  exact misses_of_clear (List.all_eq_true.mp caseRanges_lands e he)
    (List.all_eq_true.mp (List.all_eq_true.mp caseRanges_clear e he) d hd)

theorem caseRanges_avoids_spaces :
    caseRanges.all (fun e => spaces.all fun n => e.avoids n) = true := caseRanges_checked.2.2.1

private theorem find_covering {n : ℕ} {e : CaseRange}
    (h : (caseRanges.find? fun e => e.covers n) = some e) :
    e ∈ caseRanges ∧ e.lo ≤ n ∧ n ≤ e.hi ∧ (e.alternating = true → (n - e.lo) % 2 = 0) := by
  have hcovers : e.covers n = true :=
    List.find?_some (p := fun e : CaseRange => e.covers n) h
  simp only [CaseRange.covers, Bool.and_eq_true, Bool.or_eq_true, decide_eq_true_eq,
    Bool.not_eq_true', beq_iff_eq] at hcovers
  refine ⟨List.mem_of_find?_eq_some h, hcovers.1.1, hcovers.1.2, ?_⟩
  intro halt
  rcases hcovers.2 with hno | heven
  · rw [halt] at hno
    cases hno
  · exact heven

/-- A shifted rune has the shifted code point. -/
private theorem lowerRune_toNat {c : Char} {e : CaseRange}
    (h : (caseRanges.find? fun e => e.covers c.toNat) = some e) :
    ((lowerRune c).toNat : ℤ) = c.toNat + e.delta := by
  obtain ⟨hmem, hlo, hhi, -⟩ := find_covering h
  have hlands : e.lands = true := List.all_eq_true.mp caseRanges_lands e hmem
  simp only [CaseRange.lands, Bool.and_eq_true, Bool.or_eq_true, decide_eq_true_eq] at hlands
  have hvalid : (e.shift c.toNat).isValidChar := by
    unfold CaseRange.shift Nat.isValidChar
    omega
  have hnat : (lowerRune c).toNat = e.shift c.toNat := by
    simp only [lowerRune, h]
    unfold Char.ofNat
    rw [dif_pos hvalid]
    rfl
  rw [hnat, CaseRange.shift]
  omega

/-- No lower-cased rune lies in a shifted range, so a second pass finds nothing to do. -/
theorem lowerRune_idem (c : Char) : lowerRune (lowerRune c) = lowerRune c := by
  cases h : caseRanges.find? fun e => e.covers c.toNat with
  | none =>
    have hsame : lowerRune c = c := by simp [lowerRune, h]
    rw [hsame, hsame]
  | some e =>
    obtain ⟨hmem, hlo, hhi, halt⟩ := find_covering h
    have hshift := lowerRune_toNat h
    have hnone : (caseRanges.find? fun e => e.covers (lowerRune c).toNat) = none := by
      refine List.find?_eq_none.mpr ?_
      intro d hd hcovers
      have hmiss : e.misses d = true :=
        List.all_eq_true.mp (List.all_eq_true.mp caseRanges_misses e hmem) d hd
      simp only [CaseRange.misses, CaseRange.covers, Bool.and_eq_true, Bool.or_eq_true,
        decide_eq_true_eq, Bool.not_eq_true', beq_iff_eq] at hmiss hcovers
      obtain ⟨⟨hdlo, hdhi⟩, hdalt⟩ := hcovers
      rcases hmiss with (hbelow | habove) | ⟨⟨hsteps, hdalternating⟩, hodd⟩
      · omega
      · omega
      · rw [hdalternating] at hdalt
        have heven : ((lowerRune c).toNat - d.lo) % 2 = 0 := by simpa using hdalt
        rcases hsteps with he | he
        · have := halt he
          omega
        · omega
    simp only [lowerRune] at hnone ⊢
    simp [hnone]

theorem isSpace_iff (c : Char) : isSpace c = true ↔ c.toNat ∈ spaces := by
  simp only [isSpace, spaces, Bool.or_eq_true, Bool.and_eq_true, decide_eq_true_eq,
    List.contains_eq_mem, List.mem_cons, List.not_mem_nil, or_false]
  omega

theorem isSpace_lowerRune {c : Char} (h : isSpace c = false) : isSpace (lowerRune c) = false := by
  cases hfind : caseRanges.find? fun e => e.covers c.toNat with
  | none => simpa [lowerRune, hfind] using h
  | some e =>
    obtain ⟨hmem, hlo, hhi, -⟩ := find_covering hfind
    have hshift := lowerRune_toNat hfind
    rw [← Bool.not_eq_true, isSpace_iff]
    intro hspace
    have havoid : e.avoids (lowerRune c).toNat = true :=
      List.all_eq_true.mp (List.all_eq_true.mp caseRanges_avoids_spaces e hmem) _ hspace
    simp only [CaseRange.avoids, Bool.or_eq_true, decide_eq_true_eq] at havoid
    omega

/-- Text that `strings.TrimSpace` leaves alone. -/
def Trimmed (s : String) : Prop :=
  (∀ c, s.toList.head? = some c → isSpace c = false) ∧
    ∀ c, s.toList.getLast? = some c → isSpace c = false

theorem trimSpace_of_trimmed {s : String} (h : Trimmed s) : trimSpace s = s := by
  have hleft : s.toList.dropWhile isSpace = s.toList := by
    cases hs : s.toList with
    | nil => rfl
    | cons c rest =>
      have hc := h.1 c (by rw [hs]; rfl)
      rw [List.dropWhile_cons, hc]
      rfl
  have hright : s.toList.rdropWhile isSpace = s.toList := by
    rw [List.rdropWhile_eq_self_iff]
    intro hne
    have hlast := h.2 (s.toList.getLast hne) (List.getLast?_eq_some_getLast hne)
    simp [hlast]
  rw [trimSpace, hleft, hright, String.ofList_toList]

theorem trimmed_trimSpace (s : String) : Trimmed (trimSpace s) := by
  constructor
  · intro c hc
    rw [trimSpace, String.toList_ofList] at hc
    obtain ⟨rest, hrest⟩ := List.rdropWhile_prefix isSpace (s.toList.dropWhile isSpace)
    have hhead : (s.toList.dropWhile isSpace).head? = some c := by
      rw [← hrest, List.head?_append, hc]
      rfl
    have hnot := List.head?_dropWhile_not isSpace s.toList
    rw [hhead] at hnot
    exact hnot
  · intro c hc
    rw [trimSpace, String.toList_ofList] at hc
    have hne : (s.toList.dropWhile isSpace).rdropWhile isSpace ≠ [] := by
      intro hnil
      rw [hnil] at hc
      cases hc
    have hlast := List.rdropWhile_last_not isSpace _ hne
    rw [List.getLast?_eq_some_getLast hne, Option.some.injEq] at hc
    rw [hc] at hlast
    simpa using hlast

theorem trimmed_toLower {s : String} (h : Trimmed s) : Trimmed (toLower s) := by
  constructor
  · intro c hc
    rw [toLower, String.toList_ofList, List.head?_map] at hc
    obtain ⟨a, ha, rfl⟩ := Option.map_eq_some_iff.mp hc
    exact isSpace_lowerRune (h.1 a ha)
  · intro c hc
    rw [toLower, String.toList_ofList, List.getLast?_map] at hc
    obtain ⟨a, ha, rfl⟩ := Option.map_eq_some_iff.mp hc
    exact isSpace_lowerRune (h.2 a ha)

theorem toLower_idem (s : String) : toLower (toLower s) = toLower s := by
  have hrune : lowerRune ∘ lowerRune = lowerRune := funext lowerRune_idem
  simp [toLower, hrune]

theorem caseRanges_avoids_marks :
    caseRanges.all (fun e => marks.all fun n => e.avoids n && !e.covers n) = true :=
  caseRanges_checked.2.2.2.1

/-- No rune becomes one of these marks, and they stay what they are. -/
theorem lowerRune_mark {c : Char} {n : ℕ} (hn : n ∈ marks) :
    (lowerRune c).toNat = n ↔ c.toNat = n := by
  cases hfind : caseRanges.find? fun e => e.covers c.toNat with
  | none => simp only [lowerRune, hfind]
  | some e =>
    obtain ⟨hmem, hlo, hhi, -⟩ := find_covering hfind
    have hshift := lowerRune_toNat hfind
    have hmark : (e.avoids n && !e.covers n) = true :=
      List.all_eq_true.mp (List.all_eq_true.mp caseRanges_avoids_marks e hmem) n hn
    simp only [CaseRange.avoids, Bool.and_eq_true, Bool.or_eq_true, decide_eq_true_eq,
      Bool.not_eq_true'] at hmark
    constructor
    · intro hlow
      omega
    · intro hsame
      have hcovers : e.covers c.toNat = true :=
        List.find?_some (p := fun e : CaseRange => e.covers c.toNat) hfind
      rw [hsame, hmark.2] at hcovers
      cases hcovers

/-- The letters from A to Z in lower case, every other character as it is. -/
def asciiLower (c : Char) : Char :=
  if 65 ≤ c.toNat ∧ c.toNat ≤ 90 then Char.ofNat (c.toNat + 32) else c

/-- Two characters outside ASCII have a lower case inside: the dotted İ and the Kelvin sign. -/
theorem caseRanges_ascii :
    caseRanges.all (fun e => (e.lo == 65 && e.hi == 90 && !e.alternating && e.delta == 32) ||
      (128 ≤ e.lo && (128 ≤ (e.lo : ℤ) + e.delta || (e.lo == 304 && e.hi == 304 && e.delta == -199)
        || (e.lo == 8490 && e.hi == 8490 && e.delta == -8383)))) = true :=
  caseRanges_checked.2.2.2.2.1

theorem asciiLower_toNat {c : Char} (h : 65 ≤ c.toNat ∧ c.toNat ≤ 90) :
    (asciiLower c).toNat = c.toNat + 32 := by
  have hvalid : (c.toNat + 32).isValidChar := by
    unfold Nat.isValidChar
    omega
  rw [asciiLower, if_pos h]
  unfold Char.ofNat
  rw [dif_pos hvalid]
  rfl

/-- The capital letters are in the first range of the table. -/
theorem covered_of_capital {c : Char} (h : 65 ≤ c.toNat ∧ c.toNat ≤ 90) :
    (caseRanges.find? fun e => e.covers c.toNat) ≠ none := by
  intro hnone
  have hfirst : caseRanges.any (fun e => e.lo == 65 && e.hi == 90 && !e.alternating) = true :=
    caseRanges_checked.2.2.2.2.2.1
  obtain ⟨e, he, hrange⟩ := List.any_eq_true.mp hfirst
  have hnot := List.find?_eq_none.mp hnone e he
  simp only [Bool.and_eq_true, beq_iff_eq, Bool.not_eq_true'] at hrange
  simp only [CaseRange.covers, hrange.1.1, hrange.1.2, hrange.2, Bool.not_false, Bool.true_or,
    Bool.and_true, Bool.and_eq_true, decide_eq_true_eq] at hnot
  exact hnot h

theorem lowerRune_cases (c : Char) :
    lowerRune c = asciiLower c ∨ (128 ≤ c.toNat ∧ 128 ≤ (lowerRune c).toNat) ∨
      (c.toNat = 304 ∧ (lowerRune c).toNat = 105) ∨
      (c.toNat = 8490 ∧ (lowerRune c).toNat = 107) := by
  cases hfind : caseRanges.find? fun e => e.covers c.toNat with
  | none =>
    have hno : ¬(65 ≤ c.toNat ∧ c.toNat ≤ 90) := fun h => covered_of_capital h hfind
    refine Or.inl ?_
    simp only [lowerRune, hfind, asciiLower, if_neg hno]
  | some e =>
    obtain ⟨hmem, hlo, hhi, -⟩ := find_covering hfind
    have hshift := lowerRune_toNat hfind
    have hrange := List.all_eq_true.mp caseRanges_ascii e hmem
    simp only [Bool.and_eq_true, Bool.or_eq_true, decide_eq_true_eq, beq_iff_eq,
      Bool.not_eq_true'] at hrange
    rcases hrange with ⟨⟨⟨hlo', hhi'⟩, -⟩, hdelta⟩ | ⟨houtside, (hfar | hdotted) | hkelvin⟩
    · have hcapital : 65 ≤ c.toNat ∧ c.toNat ≤ 90 := by omega
      have hsame := asciiLower_toNat hcapital
      refine Or.inl (Char.toNat_inj.mp ?_)
      omega
    · omega
    · omega
    · omega

/-- Lower case agrees on the letters of ASCII but for i and k. -/
theorem lowerRune_eq_iff {c x : Char} (hx : x.toNat < 128) (hi : x ≠ 'i') (hk : x ≠ 'k') :
    lowerRune c = x ↔ asciiLower c = x := by
  have hi : x.toNat ≠ 105 := fun h => hi (Char.toNat_inj.mp h)
  have hk : x.toNat ≠ 107 := fun h => hk (Char.toNat_inj.mp h)
  rcases lowerRune_cases c with hsame | hother
  · rw [hsame]
  · have houtside : asciiLower c = c := by
      rw [asciiLower, if_neg (by omega)]
    rw [houtside, ← Char.toNat_inj, ← Char.toNat_inj]
    omega

/-- The lower case of the dotted İ is an i like any other. -/
theorem lowerRune_eq_i {c : Char} : lowerRune c = 'i' ↔ asciiLower c = 'i' ∨ c = 'İ' := by
  have hi : 'i'.toNat = 105 := by decide
  have hdotted : 'İ'.toNat = 304 := by decide
  have hmapped : lowerRune 'İ' = 'i' := caseRanges_checked.2.2.2.2.2.2
  constructor
  · intro hlow
    rcases lowerRune_cases c with hsame | hother
    · exact Or.inl (hsame.symm.trans hlow)
    · refine Or.inr (Char.toNat_inj.mp ?_)
      rw [hlow] at hother
      omega
  · rintro (hsame | rfl)
    · rcases lowerRune_cases c with hlow | hother
      · exact hlow.trans hsame
      · have houtside : asciiLower c = c := by
          rw [asciiLower, if_neg (by omega)]
        rw [houtside] at hsame
        rw [hsame] at hother
        omega
    · exact hmapped

theorem asciiLower_eq_dotted {c : Char} : asciiLower c = 'İ' ↔ c = 'İ' := by
  have hdotted : 'İ'.toNat = 304 := by decide
  by_cases hcapital : 65 ≤ c.toNat ∧ c.toNat ≤ 90
  · have hlow := asciiLower_toNat hcapital
    rw [← Char.toNat_inj, ← Char.toNat_inj]
    omega
  · rw [asciiLower, if_neg hcapital]

end PapeSdk.LetterCase
