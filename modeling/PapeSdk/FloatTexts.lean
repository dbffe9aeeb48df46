import Mathlib.Algebra.Order.Field.Power
import Mathlib.Data.List.DropRight
import Mathlib.Data.Rat.Cast.Order
import Mathlib.Tactic.Common
import Mathlib.Tactic.Linarith
import Mathlib.Tactic.NormNum
import Mathlib.Tactic.Positivity
import Mathlib.Tactic.Ring

/-!
The text of a floating-point number in the shortest precision. The number is
given by its decimal digits, without zeros at the end, and the place of the
decimal point; a large or a small exponent is written out, any other number
is printed in plain digits. For integers the digits are the shortest ones that
tell the number from its neighbours, and the text is the integer's own exactly
up to six digits.
-/

namespace PapeSdk.FloatTexts

/-- The digits behind a point, times ten to the power `point`. -/
structure Decimal where
  negative : Bool
  digits : List Char
  point : ℤ
  deriving DecidableEq, Repr

namespace Decimal

def sign (d : Decimal) : List Char := if d.negative then ['-'] else []

/-- The exponent with its sign and at least two digits. -/
def exponentText (exp : ℤ) : List Char :=
  (if exp < 0 then '-' else '+') ::
    ((if exp.natAbs < 10 then ['0'] else []) ++ Nat.toDigits 10 exp.natAbs)

/-- One digit, a point and the others, and the exponent. -/
def fmtE (d : Decimal) : List Char :=
  d.sign ++ d.digits.headD '0' :: (if 1 < d.digits.length then '.' :: d.digits.tail else []) ++
    'e' :: exponentText (if d.digits = [] then 0 else d.point - 1)

/-- The digit at a position counted from the point, zero outside the digits. -/
def digitAt (d : Decimal) (i : ℤ) : Char :=
  if 0 ≤ d.point + i then d.digits.getD (d.point + i).toNat '0' else '0'

/-- Plain digits, with zeros up to the point and from it. -/
def fmtF (d : Decimal) : List Char :=
  let whole := d.point.toNat
  let fraction := (d.digits.length - d.point).toNat
  d.sign ++
    (if 0 < d.point then d.digits.take whole ++ List.replicate (whole - d.digits.length) '0'
      else ['0']) ++
    if 0 < fraction then '.' :: (List.range fraction).map fun i => d.digitAt i else []

/-- The general format: an exponent below -4 or from 6 on is written out. -/
def formatG (d : Decimal) : List Char :=
  let exp := d.point - 1
  if exp < -4 ∨ 6 ≤ exp then d.fmtE else d.fmtF

end Decimal

/-- The digits of a positive number without the zeros at its end. -/
def significand (n : ℕ) : List Char := (Nat.toDigits 10 n).rdropWhile (· == '0')

def Decimal.ofInt (n : ℤ) : Decimal where
  negative := decide (n < 0)
  digits := if n = 0 then [] else significand n.natAbs
  point := if n = 0 then 0 else (Nat.toDigits 10 n.natAbs).length

/-- The text of a floating-point number that is an integer. -/
def sprintFloat (n : ℤ) : String := String.ofList (Decimal.ofInt n).formatG

example : sprintFloat 120000 = "120000" := by decide
example : sprintFloat (-1700000000) = "-1.7e+09" := by decide

/-- Cutting the zeros off and writing them again gives the number back. -/
theorem significand_zeros (n : ℕ) :
    significand n ++
      List.replicate ((Nat.toDigits 10 n).length - (significand n).length) '0' =
        Nat.toDigits 10 n := by
  have hsplit : (Nat.toDigits 10 n).rdropWhile (· == '0') ++
      (Nat.toDigits 10 n).rtakeWhile (· == '0') = Nat.toDigits 10 n :=
    List.rdropWhile_append_rtakeWhile
  have hzeros : (Nat.toDigits 10 n).rtakeWhile (· == '0') =
      List.replicate ((Nat.toDigits 10 n).length - (significand n).length) '0' := by
    apply List.eq_replicate_iff.mpr
    constructor
    · have hlen := congrArg List.length hsplit
      rw [List.length_append] at hlen
      unfold significand
      omega
    · intro c hc
      have hzero : (c == '0') = true := List.mem_rtakeWhile_imp (p := fun c => c == '0') hc
      exact beq_iff_eq.mp hzero
  rw [← hzeros]
  exact hsplit

theorem length_significand_le (n : ℕ) :
    (significand n).length ≤ (Nat.toDigits 10 n).length :=
  (List.rdropWhile_prefix (· == '0') _).length_le

theorem toList_natCast (m : ℕ) : (toString m).toList = Nat.toDigits 10 m := by
  rw [Nat.toString_eq_ofList_toDigits, String.toList_ofList]

/-- The digits of an integer's own text. -/
theorem toList_toString (n : ℤ) :
    (toString n).toList = (if n < 0 then ['-'] else []) ++ Nat.toDigits 10 n.natAbs := by
  cases n with
  | ofNat m =>
    change (toString m).toList = _
    rw [toList_natCast, if_neg (show ¬Int.ofNat m < 0 from not_lt.mpr (Int.natCast_nonneg m))]
    rfl
  | negSucc m =>
    change ("-" ++ toString (m + 1)).toList = _
    rw [String.toList_append, toList_natCast, if_pos (Int.negSucc_lt_zero m)]
    rfl

theorem sign_ofInt (n : ℤ) : (Decimal.ofInt n).sign = if n < 0 then ['-'] else [] := by
  unfold Decimal.sign Decimal.ofInt
  simp only [decide_eq_true_eq]

/-- Plain digits are the integer's own. -/
theorem fmtF_ofInt (n : ℤ) : (Decimal.ofInt n).fmtF = (toString n).toList := by
  rw [toList_toString, Decimal.fmtF, sign_ofInt]
  by_cases hzero : n = 0
  · subst hzero
    rfl
  have hle := length_significand_le n.natAbs
  have hpos : 0 < (Nat.toDigits 10 n.natAbs).length := Nat.length_toDigits_pos
  have hpoint : (Decimal.ofInt n).point = (Nat.toDigits 10 n.natAbs).length := if_neg hzero
  have hdigits : (Decimal.ofInt n).digits = significand n.natAbs := if_neg hzero
  have hfraction : ¬0 < ((significand n.natAbs).length -
      ((Nat.toDigits 10 n.natAbs).length : ℤ)).toNat := by omega
  have hwhole : 0 < ((Nat.toDigits 10 n.natAbs).length : ℤ) := by omega
  rw [hpoint, hdigits, if_neg hfraction, if_pos hwhole, Int.toNat_natCast,
    List.take_of_length_le hle, significand_zeros, List.append_nil]

theorem mem_fmtE (d : Decimal) : 'e' ∈ d.fmtE := by
  unfold Decimal.fmtE
  exact List.mem_append_right _ List.mem_cons_self

theorem not_mem_toString (n : ℤ) : 'e' ∉ (toString n).toList := by
  rw [toList_toString]
  intro hmem
  rcases List.mem_append.mp hmem with hsign | hdigit
  · split at hsign
    · exact absurd hsign (by decide)
    · cases hsign
  · have hisDigit := Nat.isDigit_of_mem_toDigits (by omega) (by omega) hdigit
    exact absurd hisDigit (by decide)

/-- Up to six digits the text is the integer's own, and from seven on it is not. -/
theorem sprintFloat_eq_iff (n : ℤ) : sprintFloat n = toString n ↔ n.natAbs < 10 ^ 6 := by
  have hlist : sprintFloat n = toString n ↔ (Decimal.ofInt n).formatG = (toString n).toList := by
    rw [sprintFloat, ← String.toList_inj, String.toList_ofList]
  have hlen : (Nat.toDigits 10 n.natAbs).length ≤ 6 ↔ n.natAbs < 10 ^ 6 :=
    Nat.length_toDigits_le_iff (by omega) (by omega)
  have hpoint : (Decimal.ofInt n).point - 1 < -4 ∨ 6 ≤ (Decimal.ofInt n).point - 1 ↔
      ¬n.natAbs < 10 ^ 6 := by
    by_cases hzero : n = 0
    · subst hzero
      decide
    · have hdigits : (Decimal.ofInt n).point = (Nat.toDigits 10 n.natAbs).length := if_neg hzero
      rw [hdigits, ← hlen]
      omega
  rw [hlist, Decimal.formatG]
  by_cases hsmall : n.natAbs < 10 ^ 6
  · rw [if_neg (fun h => hpoint.mp h hsmall)]
    exact ⟨fun _ => hsmall, fun _ => fmtF_ofInt n⟩
  · rw [if_pos (hpoint.mpr hsmall)]
    constructor
    · intro htext
      exact absurd (htext ▸ mem_fmtE _) (not_mem_toString n)
    · intro h
      exact absurd h hsmall

theorem toDigits_mul_pow {m : ℕ} (hm : 0 < m) (k : ℕ) :
    Nat.toDigits 10 (m * 10 ^ k) = Nat.toDigits 10 m ++ List.replicate k '0' := by
  induction k with
  | zero => simp
  | succ k ih =>
    have hpos : 0 < m * 10 ^ k := Nat.mul_pos hm (Nat.pow_pos (by omega))
    have hten : m * 10 ^ (k + 1) = 10 * (m * 10 ^ k) + 0 := by ring
    rw [hten, ← Nat.toDigits_append_toDigits (by omega) hpos (by omega), ih, Nat.toDigits_zero,
      List.append_assoc, ← List.replicate_succ']

theorem significand_mul_pow {m : ℕ} (hm : 0 < m) (k : ℕ) :
    significand (m * 10 ^ k) = significand m := by
  unfold significand
  rw [toDigits_mul_pow hm]
  induction k with
  | zero => rw [List.replicate_zero, List.append_nil]
  | succ k ih =>
    rw [List.replicate_succ', ← List.append_assoc, List.rdropWhile_concat_pos _ _ _ (by decide), ih]

theorem lt_length_toDigits {n k : ℕ} (h : 10 ^ k ≤ n) : k < (Nat.toDigits 10 n).length := by
  by_contra hle
  have hpos : 0 < (Nat.toDigits 10 n).length := Nat.length_toDigits_pos
  have hlt := (Nat.length_toDigits_le_iff (b := 10) (n := n) (k := k) (by omega) (by omega)).mp
    (by omega)
  omega

/-- A decimal without a fraction that is near the number is the number. -/
theorem significand_of_whole {n m k : ℕ} (hn : 0 < n)
    (hnear : |(m : ℚ) * 10 ^ k - n| ≤ 1 / 2) :
    (significand n).length ≤ (Nat.toDigits 10 m).length := by
  have hint : |((m * 10 ^ k : ℕ) : ℤ) - n| < 1 := by
    have hlt : |(((m * 10 ^ k : ℕ) : ℤ) - n : ℚ)| < 1 := by
      push_cast
      linarith
    exact_mod_cast hlt
  have hsame : n = m * 10 ^ k := by
    have hzero := Int.abs_lt_one_iff.mp hint
    omega
  have hm : 0 < m := by
    rcases Nat.eq_zero_or_pos m with hzero | hpos
    · rw [hzero, Nat.zero_mul] at hsame
      omega
    · exact hpos
  rw [hsame, significand_mul_pow hm]
  exact length_significand_le m

/-- A decimal with a fraction has at least the digits of the number before its point. -/
theorem significand_of_fraction {n m k : ℕ} (hn : 0 < n)
    (hnear : |(m : ℚ) / 10 ^ k - n| ≤ 1 / 2) :
    (significand n).length ≤ (Nat.toDigits 10 m).length := by
  have hpow : (0 : ℚ) < 10 ^ k := by positivity
  have hscaled : 10 ^ k * (2 * n - 1) ≤ 2 * m := by
    have hlow := (abs_le.mp hnear).1
    have hdiv : (n : ℚ) - 1 / 2 ≤ m / 10 ^ k := by linarith
    have hmul : ((n : ℚ) - 1 / 2) * 10 ^ k ≤ m := (le_div_iff₀ hpow).mp hdiv
    have hcast : ((10 ^ k * (2 * n - 1) : ℕ) : ℚ) ≤ ((2 * m : ℕ) : ℚ) := by
      have hone : 1 ≤ 2 * n := by omega
      push_cast [Nat.cast_sub hone]
      linarith
    exact_mod_cast hcast
  obtain ⟨d, hd⟩ : ∃ d, (Nat.toDigits 10 n).length = d + 1 := by
    have hpos : 0 < (Nat.toDigits 10 n).length := Nat.length_toDigits_pos
    exact ⟨(Nat.toDigits 10 n).length - 1, by omega⟩
  have hpositive : 0 < (Nat.toDigits 10 m).length := Nat.length_toDigits_pos
  have hlower : 10 ^ d ≤ n := by
    by_contra hlt
    rcases Nat.eq_zero_or_pos d with hzero | hdpos
    · rw [hzero, pow_zero] at hlt
      omega
    · have hle := (Nat.length_toDigits_le_iff (b := 10) (n := n) (by omega) hdpos).mpr (by omega)
      omega
  by_cases hpower : n = 10 ^ d
  · have hone : significand n = significand 1 := by
      rw [hpower, ← significand_mul_pow (m := 1) (by omega) d, Nat.one_mul]
    have hlen : (significand 1).length = 1 := by decide
    rw [hone, hlen]
    omega
  · have hlarge : 10 ^ d ≤ m := by
      have hk : 1 ≤ 10 ^ k := Nat.one_le_pow _ _ (by omega)
      have hmul : 2 * n - 1 ≤ 10 ^ k * (2 * n - 1) := Nat.le_mul_of_pos_left _ (by omega)
      omega
    have hlong := lt_length_toDigits hlarge
    have hle := length_significand_le n
    omega

/-- No decimal within one half of a positive number has fewer digits than the
number has without its zeros. Floating-point numbers up to the fifty-third
power of two are told from their neighbours within that distance. -/
theorem significand_shortest {n m : ℕ} {e : ℤ} (hn : 0 < n)
    (hnear : |(m : ℚ) * 10 ^ e - n| ≤ 1 / 2) :
    (significand n).length ≤ (Nat.toDigits 10 m).length := by
  cases e with
  | ofNat k =>
    rw [Int.ofNat_eq_natCast, zpow_natCast] at hnear
    exact significand_of_whole hn hnear
  | negSucc k =>
    rw [zpow_negSucc, ← div_eq_mul_inv] at hnear
    exact significand_of_fraction hn hnear

end PapeSdk.FloatTexts
