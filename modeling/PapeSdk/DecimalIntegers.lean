import Mathlib.Algebra.Ring.Int.Defs
import Mathlib.Algebra.Ring.Nat
import Mathlib.Tactic.Common

/-!
Integers of sixty-four bits read from decimal text, as `strconv.ParseInt` and
`strconv.Atoi` read them. The digits are scanned from the left, and a number
that is too large ends the scan before a wrong character behind it is seen. A
number out of range still has a value, the bound on its side, which callers
that ignore the error go on with.
-/

namespace PapeSdk.DecimalIntegers

inductive NumError
  | errSyntax
  | errRange
  deriving DecidableEq, Repr

def maxUint64 : ℕ := 2 ^ 64 - 1

/-- The digits behind a value that has been read. -/
def scanDigits (n : ℕ) : List Char → Except NumError ℕ
  | [] => .ok n
  | c :: rest =>
    if c.isDigit then
      let m := 10 * n + (c.toNat - '0'.toNat)
      if maxUint64 < m then .error .errRange else scanDigits m rest
    else .error .errSyntax

def parseUint (digits : List Char) : Except NumError ℕ :=
  if digits = [] then .error .errSyntax else scanDigits 0 digits

/-- Whether a minus sign was cut off, and the rest. -/
def cutSign : List Char → Bool × List Char
  | '-' :: rest => (true, rest)
  | '+' :: rest => (false, rest)
  | text => (false, text)

/-- The value and the error, if there is one. -/
def parseInt (s : String) : ℤ × Option NumError :=
  let (negative, digits) := cutSign s.toList
  match parseUint digits with
  | .error .errSyntax => (0, some .errSyntax)
  | .error .errRange => (if negative then -2 ^ 63 else 2 ^ 63 - 1, some .errRange)
  | .ok n =>
    if !negative && 2 ^ 63 ≤ n then (2 ^ 63 - 1, some .errRange)
    else if negative && 2 ^ 63 < n then (-2 ^ 63, some .errRange)
    else (if negative then -n else n, none)

/-- The value lies in the range, with an error or without. -/
theorem parseInt_range (s : String) : -2 ^ 63 ≤ (parseInt s).1 ∧ (parseInt s).1 < 2 ^ 63 := by
  unfold parseInt
  rcases cutSign s.toList with ⟨negative, digits⟩
  dsimp only
  cases parseUint digits with
  | error e => cases e <;> cases negative <;> decide
  | ok n =>
    cases negative with
    | true =>
      by_cases hn : 2 ^ 63 < n
      · simp only [Bool.not_true, Bool.false_and, Bool.true_and, decide_eq_true_eq, hn, if_true,
          Bool.false_eq_true, if_false]
        decide
      · simp only [Bool.not_true, Bool.false_and, Bool.true_and, decide_eq_true_eq, hn, if_false,
          Bool.false_eq_true, if_true]
        omega
    | false =>
      by_cases hn : 2 ^ 63 ≤ n
      · simp only [Bool.not_false, Bool.true_and, decide_eq_true_eq, hn, if_true]
        decide
      · simp only [Bool.not_false, Bool.true_and, Bool.false_and, decide_eq_true_eq, hn, if_false,
          Bool.false_eq_true]
        omega

end PapeSdk.DecimalIntegers
