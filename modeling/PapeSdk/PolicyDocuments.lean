import PapeSdk.AsciiBytes
import PapeSdk.TextCodecs
import PapeSdk.Utf8Texts

/-!
Upload policies as JSON text. A policy is a list of conditions, each pinning a form
field or bounding the length of the content, and an expiration. The writer replaces
bytes that are no UTF-8, the reader gives back what was written.
-/

namespace PapeSdk.PolicyDocuments

open BlockModes AsciiBytes TextCodecs Utf8Texts
open Authorities (Rune Text)

inductive Condition where
  | equals (field value : Bytes)
  | lengthRange (low high : ℕ)
  deriving DecidableEq

structure Policy where
  conditions : List Condition
  expiration : Bytes
  deriving DecidableEq

namespace Policy

/-- The value that the policy asks of a form field. -/
def pinned (p : Policy) (field : Bytes) : Option Bytes :=
  p.conditions.findSome? fun
    | .equals name value => if name = field then some value else none
    | .lengthRange _ _ => none

/-- The least and the greatest length of the content. -/
def limit (p : Policy) : Option (ℕ × ℕ) :=
  p.conditions.findSome? fun
    | .equals _ _ => none
    | .lengthRange low high => some (low, high)

theorem pinned_head (field value : Bytes) (conditions : List Condition) (expiration : Bytes) :
    (Policy.mk (.equals field value :: conditions) expiration).pinned field = some value := by
  simp [pinned]

end Policy

def openArray : UInt8 := 91

def closeArray : UInt8 := 93

def openObject : UInt8 := 123

def closeObject : UInt8 := 125

/-- The letters of the short escapes, and the bytes they stand for. -/
def shortEscapes : List (UInt8 × UInt8) :=
  [(34, 34), (92, 92), (98, 8), (102, 12), (110, 10), (114, 13), (116, 9)]

/-- Bytes below the space, and the ones that mean something in HTML. -/
def isUnsafe (b : UInt8) : Bool := b < 32 || b == 38 || b == 60 || b == 62

def escapeASCII (b : UInt8) : Bytes :=
  match shortEscapes.find? fun e => e.2 == b with
  | some e => [backslash, e.1]
  | none =>
    if isUnsafe b then
      [backslash, 117, 48, 48, hexDigit (b.toNat / 16), hexDigit (b.toNat % 16)]
    else [b]

def escapeRune : Rune → Bytes
  | .invalid _ => bytesOf "\\ufffd"
  | .char c =>
    if c.toNat < 128 then escapeASCII (UInt8.ofNat c.toNat)
    else if c.toNat = 0x2028 then bytesOf "\\u2028"
    else if c.toNat = 0x2029 then bytesOf "\\u2029"
    else String.utf8EncodeChar c

def jsonString (value : Bytes) : Bytes := quote :: ((decode value).flatMap escapeRune ++ [quote])

def Condition.json : Condition → Bytes
  | .equals field value =>
    openObject :: (jsonString field ++ colon :: (jsonString value ++ [closeObject]))
  | .lengthRange low high =>
    openArray :: (jsonString (bytesOf "content-length-range") ++
      comma :: (decimal low ++ comma :: (decimal high ++ [closeArray])))

/-- The fields in the order of their names. -/
def Policy.json (p : Policy) : Bytes :=
  openObject :: (jsonString (bytesOf "conditions") ++ colon :: openArray ::
    ([comma].intercalate (p.conditions.map Condition.json) ++ closeArray :: comma ::
      (jsonString (bytesOf "expiration") ++ colon :: (jsonString p.expiration ++ [closeObject]))))

/-- The bytes that an escape stands for, and how many bytes it takes. -/
def readEscape : Bytes → Option (Bytes × ℕ)
  | [] => none
  | e :: rest =>
    if e = 117 then
      match rest with
      | a :: b :: c :: d :: _ =>
        match hexValue a, hexValue b, hexValue c, hexValue d with
        | some a, some b, some c, some d =>
          let n := 4096 * a + 256 * b + 16 * c + d
          if n.isValidChar then some (String.utf8EncodeChar (Char.ofNat n), 5) else none
        | _, _, _, _ => none
      | _ => none
    else (shortEscapes.find? fun s => s.1 == e).map fun s => ([s.2], 1)

/-- What comes before the closing quote, and after it; so many bytes are left out first. -/
def readChars : ℕ → Bytes → Option (Bytes × Bytes)
  | _, [] => none
  | skip + 1, _ :: rest => readChars skip rest
  | 0, b :: rest =>
    if b = quote then some ([], rest)
    else if b = backslash then
      match readEscape rest with
      | some (value, used) => (readChars used rest).map fun r => (value ++ r.1, r.2)
      | none => none
    else (readChars 0 rest).map fun r => (b :: r.1, r.2)

def readString : Bytes → Option (Bytes × Bytes)
  | [] => none
  | b :: rest => if b = quote then readChars 0 rest else none

def isDigit (b : UInt8) : Bool := 48 ≤ b && b ≤ 57

def readNumber (text : Bytes) : Option (ℕ × Bytes) :=
  if text.takeWhile isDigit = [] then none
  else some (Nat.ofDigitChars 10 ((text.takeWhile isDigit).map fun b => Char.ofNat b.toNat) 0,
    text.dropWhile isDigit)

/-- The text behind the given beginning. -/
def readWord (word text : Bytes) : Option Bytes :=
  if word.isPrefixOf text then some (text.drop word.length) else none

def readCondition (text : Bytes) : Option (Condition × Bytes) :=
  match readWord [openObject] text with
  | some rest => do
    let (field, rest) ← readString rest
    let rest ← readWord [colon] rest
    let (value, rest) ← readString rest
    let rest ← readWord [closeObject] rest
    pure (.equals field value, rest)
  | none => do
    let rest ← readWord [openArray] text
    let (name, rest) ← readString rest
    if name = bytesOf "content-length-range" then
      let rest ← readWord [comma] rest
      let (low, rest) ← readNumber rest
      let rest ← readWord [comma] rest
      let (high, rest) ← readNumber rest
      let rest ← readWord [closeArray] rest
      pure (.lengthRange low high, rest)
    else none

/-- Conditions up to the closing bracket, not more than `bound` of them. -/
def readConditions : ℕ → Bytes → Option (List Condition × Bytes)
  | 0, _ => none
  | bound + 1, text => do
    let (condition, rest) ← readCondition text
    match readWord [comma] rest with
    | some rest =>
      let (conditions, rest) ← readConditions bound rest
      pure (condition :: conditions, rest)
    | none =>
      let rest ← readWord [closeArray] rest
      pure ([condition], rest)

def readPolicy (text : Bytes) : Option Policy := do
  let rest ← readWord (openObject :: (jsonString (bytesOf "conditions") ++ [colon, openArray])) text
  let (conditions, rest) ← readConditions rest.length rest
  let rest ← readWord (comma :: (jsonString (bytesOf "expiration") ++ [colon])) rest
  let (expiration, rest) ← readString rest
  if rest = [closeObject] then pure ⟨conditions, expiration⟩ else none

section
variable {rest : Bytes}

theorem readChars_skip (l : Bytes) : readChars l.length (l ++ rest) = readChars 0 rest := by
  induction l with
  | nil => rfl
  | cons b l ih => exact ih

theorem readChars_plain {b : UInt8} (hquote : b ≠ quote) (hback : b ≠ backslash) :
    readChars 0 (b :: rest) = (readChars 0 rest).map fun r => (b :: r.1, r.2) := by
  rw [readChars.eq_def]
  dsimp only
  rw [if_neg hquote, if_neg hback]

theorem readChars_plains {l : Bytes} (h : ∀ b ∈ l, b ≠ quote ∧ b ≠ backslash) :
    readChars 0 (l ++ rest) = (readChars 0 rest).map fun r => (l ++ r.1, r.2) := by
  induction l with
  | nil => simp
  | cons b l ih =>
    obtain ⟨hquote, hback⟩ := h b List.mem_cons_self
    rw [List.cons_append, readChars_plain hquote hback,
      ih fun b hb => h b (List.mem_cons_of_mem _ hb), Option.map_map]
    rfl

theorem readChars_escape {e value : Bytes}
    (h : readEscape (e ++ rest) = some (value, e.length)) :
    readChars 0 (backslash :: (e ++ rest)) =
      (readChars 0 rest).map fun r => (value ++ r.1, r.2) := by
  rw [readChars.eq_def]
  dsimp only
  rw [if_neg (by decide), if_pos rfl, h]
  dsimp only
  rw [readChars_skip]

theorem shortEscapes_read :
    (shortEscapes.all fun e => e.1 != 117 && shortEscapes.find? (fun s => s.1 == e.1) == some e) =
      true := by decide

theorem readEscape_short {e : UInt8 × UInt8} (he : e ∈ shortEscapes) :
    readEscape (e.1 :: rest) = some ([e.2], 1) := by
  have hread := List.all_eq_true.mp shortEscapes_read e he
  simp only [Bool.and_eq_true, bne_iff_ne, beq_iff_eq] at hread
  rw [readEscape.eq_def]
  dsimp only
  rw [if_neg hread.1, hread.2]
  rfl

theorem readEscape_hex {a b c d : UInt8} {i j k l : ℕ} (ha : hexValue a = some i)
    (hb : hexValue b = some j) (hc : hexValue c = some k) (hd : hexValue d = some l)
    (hvalid : (4096 * i + 256 * j + 16 * k + l).isValidChar) :
    readEscape (117 :: a :: b :: c :: d :: rest) =
      some (String.utf8EncodeChar (Char.ofNat (4096 * i + 256 * j + 16 * k + l)), 5) := by
  rw [readEscape.eq_def]
  dsimp only
  rw [if_pos rfl, ha, hb, hc, hd]
  dsimp only
  rw [if_pos hvalid]

/-- A byte of ASCII is read back from its escape. -/
theorem readChars_escapeASCII {b : UInt8} (hb : b.toNat < 128) :
    readChars 0 (escapeASCII b ++ rest) = (readChars 0 rest).map fun r => (b :: r.1, r.2) := by
  unfold escapeASCII
  split
  · next e he =>
    have hmem := List.mem_of_find?_eq_some he
    have hsame : e.2 = b :=
      beq_iff_eq.mp (List.find?_some (p := fun e : UInt8 × UInt8 => e.2 == b) he)
    have hshort : readEscape (e.1 :: rest) = some ([e.2], 1) := readEscape_short hmem
    have hread := readChars_escape (e := [e.1]) hshort
    rwa [hsame] at hread
  · next hnone =>
    split
    · have hzero : hexValue 48 = some 0 := by decide
      have hvalue : 4096 * 0 + 256 * 0 + 16 * (b.toNat / 16) + b.toNat % 16 = b.toNat := by omega
      have hread : readEscape (117 :: 48 :: 48 :: hexDigit (b.toNat / 16) ::
          hexDigit (b.toNat % 16) :: rest) = some (_, 5) :=
        readEscape_hex hzero hzero (hexValue_hexDigit (b.toNat / 16) (by omega))
          (hexValue_hexDigit (b.toNat % 16) (by omega)) (by rw [hvalue]; exact Or.inl (by omega))
      rw [hvalue, utf8EncodeChar_ascii hb] at hread
      exact readChars_escape (e := [117, 48, 48, _, _]) hread
    · have hnot := List.find?_eq_none.mp hnone
      have hquote : b ≠ quote := by
        rintro rfl
        exact hnot (34, 34) (by decide) (by decide)
      have hback : b ≠ backslash := by
        rintro rfl
        exact hnot (92, 92) (by decide) (by decide)
      exact readChars_plain hquote hback

/-- A rune is read back from its escape, a byte that is none as the replacement character. -/
theorem readChars_escapeRune (r : Rune) :
    readChars 0 (escapeRune r ++ rest) =
      (readChars 0 rest).map fun p => (runeBytes (Rune.replaced r) ++ p.1, p.2) := by
  cases r with
  | invalid b =>
    have hread : readEscape (117 :: 102 :: 102 :: 102 :: 100 :: rest) = some (_, 5) :=
      readEscape_hex (i := 15) (j := 15) (k := 15) (l := 13) (by decide) (by decide) (by decide)
        (by decide) (by decide)
    exact readChars_escape (e := [117, 102, 102, 102, 100]) hread
  | char c =>
    rw [escapeRune]
    rcases utf8EncodeChar_cases c with ⟨hlow, hone⟩ | ⟨hhigh, hbytes⟩
    · rw [if_pos hlow]
      have hb : (UInt8.ofNat c.toNat).toNat < 128 := by
        rw [UInt8.toNat_ofNat']
        omega
      rw [readChars_escapeASCII hb]
      simp only [Rune.replaced, runeBytes, hone, List.singleton_append]
    · rw [if_neg (by omega)]
      split
      · next hline =>
        have hread : readEscape (117 :: 50 :: 48 :: 50 :: 56 :: rest) = some (_, 5) :=
          readEscape_hex (i := 2) (j := 0) (k := 2) (l := 8) (by decide) (by decide) (by decide)
            (by decide) (by decide)
        have hsame : c = Char.ofNat 0x2028 := by rw [← hline, Char.ofNat_toNat]
        rw [hsame]
        exact readChars_escape (e := [117, 50, 48, 50, 56]) hread
      split
      · next hparagraph =>
        have hread : readEscape (117 :: 50 :: 48 :: 50 :: 57 :: rest) = some (_, 5) :=
          readEscape_hex (i := 2) (j := 0) (k := 2) (l := 9) (by decide) (by decide) (by decide)
            (by decide) (by decide)
        have hsame : c = Char.ofNat 0x2029 := by rw [← hparagraph, Char.ofNat_toNat]
        rw [hsame]
        exact readChars_escape (e := [117, 50, 48, 50, 57]) hread
      refine readChars_plains fun b hb => ?_
      have hhigh := hbytes b hb
      refine ⟨?_, ?_⟩
      · rintro rfl
        exact absurd hhigh (by decide)
      · rintro rfl
        exact absurd hhigh (by decide)

theorem readString_jsonString (value : Bytes) :
    readString (jsonString value ++ rest) = some (replaceInvalid value, rest) := by
  have hrunes : ∀ t : Text, readChars 0 (t.flatMap escapeRune ++ quote :: rest) =
      some (encode (t.map Rune.replaced), rest) := by
    intro t
    induction t with
    | nil =>
      rw [List.flatMap_nil, List.nil_append, readChars.eq_def]
      rfl
    | cons r t ih =>
      rw [List.flatMap_cons, List.append_assoc, readChars_escapeRune, ih]
      rfl
  rw [jsonString, List.cons_append, List.append_assoc, readString, if_pos rfl]
  exact hrunes (decode value)

theorem isDigit_of_mem_decimal {n : ℕ} {b : UInt8} (h : b ∈ decimal n) : isDigit b = true := by
  have hdigit := digit_of_mem_decimal h
  simpa only [isDigit, Bool.and_eq_true, decide_eq_true_eq] using hdigit

theorem readNumber_decimal {n : ℕ} {b : UInt8} (hb : isDigit b = false) :
    readNumber (decimal n ++ b :: rest) = some (n, b :: rest) := by
  have hdigits : ∀ d ∈ decimal n, isDigit d = true := fun d hd => isDigit_of_mem_decimal hd
  have htake : (decimal n ++ b :: rest).takeWhile isDigit = decimal n := by
    rw [List.takeWhile_append_of_pos hdigits, List.takeWhile_cons_of_neg (by simp [hb]),
      List.append_nil]
  have hdrop : (decimal n ++ b :: rest).dropWhile isDigit = b :: rest := by
    rw [List.dropWhile_append_of_pos hdigits, List.dropWhile_cons_of_neg (by simp [hb])]
  rw [readNumber, htake, hdrop, if_neg (decimal_ne_nil n), map_decimal,
    Nat.ofDigitChars_ten_toDigits]

theorem readWord_append (word : Bytes) : readWord word (word ++ rest) = some rest := by
  unfold readWord
  rw [if_pos (List.isPrefixOf_iff_prefix.mpr (List.prefix_append word rest)), List.drop_left]

theorem readWord_cons (b : UInt8) (text : Bytes) : readWord [b] (b :: text) = some text :=
  readWord_append [b]

theorem readWord_other {b c : UInt8} (h : b ≠ c) : readWord [b] (c :: rest) = none := by
  unfold readWord
  rw [if_neg]
  rw [List.isPrefixOf_iff_prefix, List.cons_prefix_cons]
  exact fun hprefix => h hprefix.1

/-- The condition without invalid bytes. -/
def Condition.replaced : Condition → Condition
  | .equals field value => .equals (replaceInvalid field) (replaceInvalid value)
  | .lengthRange low high => .lengthRange low high

def Policy.replaced (p : Policy) : Policy :=
  ⟨p.conditions.map Condition.replaced, replaceInvalid p.expiration⟩

theorem readCondition_json (c : Condition) :
    readCondition (c.json ++ rest) = some (c.replaced, rest) := by
  cases c with
  | equals field value =>
    simp only [Condition.json, List.cons_append, List.append_assoc, List.nil_append, readCondition,
      readWord_cons, readString_jsonString, Option.bind_eq_bind, Option.bind_some]
    rfl
  | lengthRange low high =>
    have hother : ∀ text, readWord [openObject] (openArray :: text) = none :=
      fun text => readWord_other (by decide)
    have hname : replaceInvalid (bytesOf "content-length-range") =
        bytesOf "content-length-range" := replaceInvalid_of_valid (by decide +kernel)
    have hcomma : isDigit comma = false := by decide
    have hclose : isDigit closeArray = false := by decide
    simp only [Condition.json, List.cons_append, List.append_assoc, List.nil_append, readCondition,
      hother, readWord_cons, readString_jsonString, hname, if_true, readNumber_decimal hcomma,
      readNumber_decimal hclose, Option.bind_eq_bind, Option.bind_some]
    rfl

theorem readConditions_json {conditions : List Condition} {bound : ℕ} (hne : conditions ≠ [])
    (hbound : conditions.length ≤ bound) :
    readConditions bound ([comma].intercalate (conditions.map Condition.json) ++
      closeArray :: rest) = some (conditions.map Condition.replaced, rest) := by
  induction conditions generalizing bound with
  | nil => exact absurd rfl hne
  | cons c others ih =>
    obtain ⟨bound, rfl⟩ : ∃ n, bound = n + 1 :=
      ⟨bound - 1, by rw [List.length_cons] at hbound; omega⟩
    have hother : ∀ text, readWord [comma] (closeArray :: text) = none :=
      fun text => readWord_other (by decide)
    cases others with
    | nil =>
      simp only [List.map_cons, List.map_nil, List.intercalate_singleton, readConditions,
        readCondition_json, hother, readWord_cons, Option.bind_eq_bind, Option.bind_some]
      rfl
    | cons next others =>
      have hrest := ih (List.cons_ne_nil next others) (Nat.le_of_succ_le_succ hbound)
      simp only [List.map_cons, List.intercalate_cons_cons, List.append_assoc, List.cons_append,
        List.nil_append] at hrest ⊢
      simp only [readConditions, readCondition_json, readWord_cons, hrest, Option.bind_eq_bind,
        Option.bind_some]
      rfl

theorem length_conditions (conditions : List Condition) :
    conditions.length ≤ ([comma].intercalate (conditions.map Condition.json)).length := by
  induction conditions with
  | nil => exact Nat.zero_le _
  | cons c others ih =>
    have hpos : 0 < c.json.length := by
      cases c with
      | equals field value => exact Nat.succ_pos _
      | lengthRange low high => exact Nat.succ_pos _
    cases others with
    | nil =>
      rw [List.map_singleton, List.intercalate_singleton]
      exact hpos
    | cons next others =>
      rw [List.map_cons, List.map_cons, List.intercalate_cons_cons, ← List.map_cons,
        List.length_append, List.length_append, List.length_cons]
      omega

/-- What is read of a policy is what was written, with invalid bytes replaced. -/
theorem readPolicy_json {p : Policy} (h : p.conditions ≠ []) :
    readPolicy p.json = some p.replaced := by
  have htext : p.json = (openObject :: (jsonString (bytesOf "conditions") ++ [colon, openArray])) ++
      ([comma].intercalate (p.conditions.map Condition.json) ++ closeArray ::
        ((comma :: (jsonString (bytesOf "expiration") ++ [colon])) ++
          (jsonString p.expiration ++ [closeObject]))) := by
    simp only [Policy.json, List.cons_append, List.append_assoc, List.nil_append]
  have hbound := length_conditions p.conditions
  rw [readPolicy, htext, readWord_append]
  simp only [Option.bind_eq_bind, Option.bind_some]
  rw [readConditions_json h (by rw [List.length_append]; omega)]
  simp only [Option.bind_some]
  rw [readWord_append]
  simp only [Option.bind_some, readString_jsonString, if_true]
  rfl

end

end PapeSdk.PolicyDocuments
