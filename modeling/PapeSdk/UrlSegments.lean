import PapeSdk.FilePaths
import PapeSdk.TextCodecs

/-!
Path segments of a URL. A byte that has a meaning in a URL, or none, is written as a
percent sign and two upper-case digits. No escaped segment has a slash in it, so
segments joined by slashes come apart again.
-/

namespace PapeSdk.UrlSegments

open BlockModes AsciiBytes TextCodecs FilePaths

def percent : UInt8 := 37

def upperHexDigit (n : ℕ) : UInt8 := UInt8.ofNat (if n < 10 then 48 + n else 55 + n)

def isAlphanumeric (b : UInt8) : Bool :=
  (97 ≤ b && b ≤ 122) || (65 ≤ b && b ≤ 90) || (48 ≤ b && b ≤ 57)

/-- Bytes that stand for themselves in a segment. -/
def keeps (b : UInt8) : Bool := isAlphanumeric b || (bytesOf "-_.~$&+:=@").contains b

def escapeByte (b : UInt8) : Bytes :=
  if keeps b then [b]
  else [percent, upperHexDigit (b.toNat / 16), upperHexDigit (b.toNat % 16)]

/-- `url.PathEscape`. -/
def pathEscape (segment : Bytes) : Bytes := segment.flatMap escapeByte

/-- `url.PathUnescape`. -/
def pathUnescape : Bytes → Option Bytes
  | [] => some []
  | b :: rest =>
    if b = percent then
      match rest with
      | x :: y :: rest =>
        match hexValue x, hexValue y with
        | some m, some n => (pathUnescape rest).map (UInt8.ofNat (16 * m + n) :: ·)
        | _, _ => none
      | _ => none
    else (pathUnescape rest).map (b :: ·)

theorem hexValue_upperHexDigit : ∀ n < 16, hexValue (upperHexDigit n) = some n := by decide

theorem keeps_percent : keeps percent = false := by decide +kernel

theorem keeps_slash : keeps slash = false := by decide +kernel

theorem upperHexDigit_ne_slash : ∀ n < 16, upperHexDigit n ≠ slash := by decide

theorem pathUnescape_kept {b : UInt8} (h : b ≠ percent) (rest : Bytes) :
    pathUnescape (b :: rest) = (pathUnescape rest).map (b :: ·) := by
  rw [pathUnescape.eq_def]
  dsimp only
  rw [if_neg h]

theorem pathUnescape_triple {x y : UInt8} {m n : ℕ} (hx : hexValue x = some m)
    (hy : hexValue y = some n) (rest : Bytes) :
    pathUnescape (percent :: x :: y :: rest) =
      (pathUnescape rest).map (UInt8.ofNat (16 * m + n) :: ·) := by
  rw [pathUnescape.eq_def]
  dsimp only
  rw [if_pos rfl, hx, hy]

theorem pathUnescape_escapeByte (b : UInt8) (rest : Bytes) :
    pathUnescape (escapeByte b ++ rest) = (pathUnescape rest).map (b :: ·) := by
  have hlt : b.toNat < 256 := b.toNat_lt
  unfold escapeByte
  split
  · next hkeep =>
    have hne : b ≠ percent := by
      rintro rfl
      rw [keeps_percent] at hkeep
      cases hkeep
    exact pathUnescape_kept hne rest
  · have hvalue : 16 * (b.toNat / 16) + b.toNat % 16 = b.toNat := by omega
    have htriple := pathUnescape_triple (hexValue_upperHexDigit (b.toNat / 16) (by omega))
      (hexValue_upperHexDigit (b.toNat % 16) (by omega)) rest
    rw [hvalue, UInt8.ofNat_toNat] at htriple
    exact htriple

theorem pathUnescape_pathEscape (segment : Bytes) :
    pathUnescape (pathEscape segment) = some segment := by
  induction segment with
  | nil => rfl
  | cons b rest ih =>
    rw [pathEscape, List.flatMap_cons, pathUnescape_escapeByte]
    change (pathUnescape (pathEscape rest)).map _ = _
    rw [ih]
    rfl

theorem slash_not_mem_pathEscape (segment : Bytes) : slash ∉ pathEscape segment := by
  intro hmem
  obtain ⟨b, -, hb⟩ := List.mem_flatMap.mp hmem
  have hlt : b.toNat < 256 := b.toNat_lt
  unfold escapeByte at hb
  split at hb
  · next hkeep =>
    rw [← List.mem_singleton.mp hb, keeps_slash] at hkeep
    cases hkeep
  · simp only [List.mem_cons, List.not_mem_nil, or_false] at hb
    rcases hb with hpercent | hhigh | hlow
    · exact absurd hpercent (by decide)
    · exact upperHexDigit_ne_slash _ (by omega) hhigh.symm
    · exact upperHexDigit_ne_slash _ (by omega) hlow.symm

/-- Escaped segments come apart at the slashes, and each one is read back. -/
theorem unescape_joined {segments : List Bytes} (h : segments ≠ []) :
    (([slash].intercalate (segments.map pathEscape)).splitOn slash).mapM pathUnescape =
      some segments := by
  have hread : (segments.map pathEscape).mapM pathUnescape = some segments := by
    rw [List.mapM_map]
    have hall : ∀ l : List Bytes, l.mapM (fun s => pathUnescape (pathEscape s)) = some l := by
      intro l
      simp only [pathUnescape_pathEscape]
      exact (List.mapM_pure (m := Option) (f := id)).trans (congrArg some (List.map_id l))
    exact hall segments
  rw [List.splitOn_intercalate slash ?_ (by simpa using h)]
  · exact hread
  · intro l hl
    obtain ⟨segment, -, rfl⟩ := List.mem_map.mp hl
    exact slash_not_mem_pathEscape segment

end PapeSdk.UrlSegments
