import Mathlib.Tactic.Common

/-!
What the program takes from its surroundings: random bytes, the address
parser of net/mail and the bcrypt functions. The model quantifies over all of
them; a property that needs more of one of them says so.
-/

namespace PapeSdk

structure Externals where
  /-- The text of the `n`-th draw of `randomHex`. -/
  rand : ℕ → String
  /-- `mail.ParseAddress`: the bare address of a well formed text. -/
  parseAddress : String → Option String
  /-- `bcrypt.CompareHashAndPassword` succeeds. -/
  comparesHash : String → String → Bool
  /-- The hash that `bcrypt.GenerateFromPassword` makes with the `n`-th salt. -/
  saltedHash : ℕ → String → String

namespace Externals

def makeToken (env : Externals) (pre : String) (n : ℕ) : String := pre ++ "_" ++ env.rand n

/-- `makeToken` never returns one value in two calls. -/
def NeverRepeats (env : Externals) : Prop :=
  ∀ p q i j, env.makeToken p i = env.makeToken q j → i = j

theorem makeToken_ne_empty (env : Externals) (pre : String) (n : ℕ) :
    env.makeToken pre n ≠ "" := by
  intro h
  have hlist := congrArg String.toList h
  simp [makeToken] at hlist

/-- Access and refresh tokens differ in their first letter. -/
theorem access_ne_refresh (env : Externals) (i j : ℕ) :
    env.makeToken "pt" i ≠ env.makeToken "rt" j := by
  intro h
  have hlist := congrArg String.toList h
  simp [makeToken] at hlist

/-- Surroundings whose draws grow by one letter each, for runs that are written out. -/
def unary : Externals where
  rand n := String.ofList (List.replicate n 'a')
  parseAddress s := if s.toList.contains '@' then some s else none
  comparesHash hash password := hash == password
  saltedHash _ password := password

theorem eq_of_replicate_append {i j : ℕ} {x y : List Char}
    (h : List.replicate i 'a' ++ '_' :: x = List.replicate j 'a' ++ '_' :: y) : i = j := by
  induction i generalizing j with
  | zero =>
    cases j with
    | zero => rfl
    | succ j => simp [List.replicate_succ] at h
  | succ i ih =>
    cases j with
    | zero => simp [List.replicate_succ] at h
    | succ j =>
      simp only [List.replicate_succ, List.cons_append, List.cons.injEq, true_and] at h
      rw [ih h]

theorem unary_neverRepeats : unary.NeverRepeats := by
  intro p q i j h
  have hlist := congrArg (fun s => s.toList.reverse) h
  simp only [makeToken, unary, String.toList_append, String.toList_ofList, List.reverse_append,
    List.reverse_replicate] at hlist
  exact eq_of_replicate_append hlist

end Externals

end PapeSdk
