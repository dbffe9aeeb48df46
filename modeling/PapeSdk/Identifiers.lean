import PapeSdk.Externals
import PapeSdk.LetterCase

/-!
Login identifiers: mainland phone numbers and email addresses, as
`internal/store/bindings.go` normalizes them. A normalized identifier is
either eleven digits or an address with an at sign; normalizing it again
returns it, and the two kinds never overlap. A deleted account keeps its
identifier in front of a marker, which contains a hash sign that no phone
number has.
-/

namespace PapeSdk.Identifiers

open LetterCase

/-- `strings.Contains(s, "@")`. -/
def hasAt (s : String) : Bool := s.toList.contains '@'

/-- The pattern `^1[3-9][0-9]{9}$`. -/
def chinaMobilePattern (s : String) : Bool :=
  match s.toList with
  | one :: second :: rest =>
    one == '1' && ('3' ≤ second && second ≤ '9') && rest.length == 9 &&
      rest.all fun c => '0' ≤ c && c ≤ '9'
  | _ => false

/-- `strings.ContainsAny(s, "\r\n")`. -/
def hasLineBreak (s : String) : Bool := s.toList.any fun c => c == '\r' || c == '\n'

/-- The email check of `NormalizeAccount`, on text already in lower case. -/
def emailAccepted (env : Externals) (value : String) : Bool :=
  env.parseAddress value == some value && value.utf8ByteSize ≤ 254 && !hasLineBreak value

def normalizeAccount (env : Externals) (value : String) : Except String String :=
  let value := trimSpace value
  if hasAt value then
    let value := toLower value
    if emailAccepted env value then .ok value else .error "请输入正确的邮箱地址"
  else if chinaMobilePattern value then .ok value
  else .error "请输入正确的中国大陆手机号或邮箱"

def validateBindings (env : Externals) (phone email : String) :
    Except String (String × String) :=
  let phone := trimSpace phone
  let email := trimSpace email
  if phone = "" ∧ email = "" then .error "手机号和邮箱至少保留一个"
  else if phone ≠ "" ∧ chinaMobilePattern phone = false then .error "请输入正确的中国大陆手机号"
  else if email = "" then .ok (phone, email)
  else
    match normalizeAccount env email with
    | .ok email => if hasAt email then .ok (phone, email) else .error "请输入正确的邮箱地址"
    | .error _ => .error "请输入正确的邮箱地址"

def deletedMark : String := "#deleted#"

/-- The primary identifier of an account deleted at `now`. -/
def markDeleted (phone : String) (now : ℕ) : String := phone ++ deletedMark ++ toString now

/-- The text in front of the first occurrence of `mark`, or all of it. -/
def cutBefore (mark : List Char) : List Char → List Char
  | [] => []
  | c :: rest => if mark.isPrefixOf (c :: rest) then [] else c :: cutBefore mark rest

/-- `strings.SplitN(s, "#deleted#", 2)[0]`. -/
def beforeDeletedMark (s : String) : String :=
  String.ofList (cutBefore deletedMark.toList s.toList)

def IsPhone (s : String) : Prop := chinaMobilePattern s = true

def IsEmail (env : Externals) (s : String) : Prop :=
  hasAt s = true ∧ normalizeAccount env s = .ok s

/-- What `NormalizeAccount` returns. -/
def IsIdentifier (env : Externals) (s : String) : Prop := IsPhone s ∨ IsEmail env s

section
variable {env : Externals}

theorem digits_of_pattern {s : String} (h : IsPhone s) :
    s.toList ≠ [] ∧ ∀ c ∈ s.toList, 48 ≤ c.toNat ∧ c.toNat ≤ 57 := by
  unfold IsPhone chinaMobilePattern at h
  split at h
  · next one second rest hs =>
    simp only [Bool.and_eq_true, beq_iff_eq, decide_eq_true_eq, List.all_eq_true] at h
    obtain ⟨⟨⟨rfl, hlow, hhigh⟩, -⟩, hrest⟩ := h
    have hthree : 51 ≤ second.toNat := hlow
    refine ⟨by simp [hs], ?_⟩
    intro c hc
    rw [hs, List.mem_cons, List.mem_cons] at hc
    rcases hc with rfl | rfl | hc
    · exact ⟨by decide, by decide⟩
    · exact ⟨by omega, hhigh⟩
    · exact hrest c hc
  · cases h

theorem not_mem_of_phone {s : String} (h : IsPhone s) {c : Char}
    (hc : c.toNat < 48 ∨ 57 < c.toNat) : c ∉ s.toList := by
  intro hmem
  have hdigit := (digits_of_pattern h).2 c hmem
  omega

theorem hasAt_of_phone {s : String} (h : IsPhone s) : hasAt s = false := by
  have hat := not_mem_of_phone h (c := '@') (Or.inr (by decide))
  simpa [hasAt] using hat

theorem ne_empty_of_phone {s : String} (h : IsPhone s) : s ≠ "" := by
  rintro rfl
  exact (digits_of_pattern h).1 rfl

theorem isSpace_of_digit {c : Char} (h : 48 ≤ c.toNat ∧ c.toNat ≤ 57) : isSpace c = false := by
  rw [← Bool.not_eq_true, isSpace_iff]
  intro hspace
  simp only [spaces, List.mem_cons, List.not_mem_nil, or_false] at hspace
  omega

theorem trimmed_of_phone {s : String} (h : IsPhone s) : Trimmed s := by
  have hdigits := (digits_of_pattern h).2
  constructor
  · intro c hc
    exact isSpace_of_digit (hdigits c (List.mem_of_mem_head? hc))
  · intro c hc
    exact isSpace_of_digit (hdigits c (List.mem_of_mem_getLast? hc))

theorem normalizeAccount_phone {s : String} (h : IsPhone s) : normalizeAccount env s = .ok s := by
  have hpattern : chinaMobilePattern s = true := h
  simp [normalizeAccount, trimSpace_of_trimmed (trimmed_of_phone h), hasAt_of_phone h, hpattern]

theorem isEmail_of_accepted {s : String} (htrim : Trimmed s) (hat : hasAt s = true)
    (hlower : toLower s = s) (hok : emailAccepted env s = true) : IsEmail env s := by
  refine ⟨hat, ?_⟩
  simp [normalizeAccount, trimSpace_of_trimmed htrim, hat, hlower, hok]

/-- The at sign has no other case, so lower-casing keeps it. -/
theorem hasAt_toLower {s : String} (h : hasAt s = true) : hasAt (toLower s) = true := by
  simp only [hasAt, List.contains_iff_mem, toLower, String.toList_ofList, List.mem_map] at h ⊢
  exact ⟨'@', h, by decide +kernel⟩

/-- A normalized account is a phone number or a normalized email. -/
theorem isIdentifier_of_normalize {value x : String} (h : normalizeAccount env value = .ok x) :
    IsIdentifier env x := by
  unfold normalizeAccount at h
  simp only at h
  split at h
  · next hat =>
    split at h
    · next hok =>
      rw [← Except.ok.inj h]
      exact Or.inr (isEmail_of_accepted (trimmed_toLower (trimmed_trimSpace value))
        (hasAt_toLower hat) (toLower_idem _) hok)
    · cases h
  · split at h
    · next hpattern =>
      rw [← Except.ok.inj h]
      exact Or.inl hpattern
    · cases h

theorem IsIdentifier.normalize {x : String} (h : IsIdentifier env x) :
    normalizeAccount env x = .ok x := by
  rcases h with hphone | hemail
  · exact normalizeAccount_phone hphone
  · exact hemail.2

theorem normalizeAccount_idem {value x : String} (h : normalizeAccount env value = .ok x) :
    normalizeAccount env x = .ok x := (isIdentifier_of_normalize h).normalize

theorem IsIdentifier.isEmail {x : String} (h : IsIdentifier env x) (hat : hasAt x = true) :
    IsEmail env x := by
  rcases h with hphone | hemail
  · rw [hasAt_of_phone hphone] at hat
    cases hat
  · exact hemail

theorem IsIdentifier.isPhone {x : String} (h : IsIdentifier env x) (hat : hasAt x = false) :
    IsPhone x := by
  rcases h with hphone | hemail
  · exact hphone
  · rw [hemail.1] at hat
    cases hat

theorem ne_empty_of_email {x : String} (h : IsEmail env x) : x ≠ "" := by
  rintro rfl
  exact absurd h.1 (by decide)

theorem phone_ne_email {x y : String} (hx : IsPhone x) (hy : IsEmail env y) : x ≠ y := by
  rintro rfl
  have hat := hy.1
  rw [hasAt_of_phone hx] at hat
  cases hat

/-- Accepted bindings: at least one of the two, each empty or well formed. -/
theorem validateBindings_ok {phone email p e : String}
    (h : validateBindings env phone email = .ok (p, e)) :
    (p = "" ∨ IsPhone p) ∧ (e = "" ∨ IsEmail env e) ∧ (p ≠ "" ∨ e ≠ "") := by
  unfold validateBindings at h
  simp only at h
  split at h
  · cases h
  next hsome =>
  split at h
  · cases h
  next hpattern =>
  have hp : trimSpace phone = "" ∨ IsPhone (trimSpace phone) := by
    by_cases hempty : trimSpace phone = ""
    · exact Or.inl hempty
    · apply Or.inr
      by_contra hbad
      exact hpattern ⟨hempty, by simpa [IsPhone] using hbad⟩
  split at h
  · next hempty =>
    simp only [Except.ok.injEq, Prod.mk.injEq] at h
    obtain ⟨rfl, rfl⟩ := h
    exact ⟨hp, Or.inl hempty, Or.inl fun hphone => hsome ⟨hphone, hempty⟩⟩
  · split at h
    · next normalized hnormalized =>
      split at h
      · next hat =>
        simp only [Except.ok.injEq, Prod.mk.injEq] at h
        obtain ⟨rfl, rfl⟩ := h
        have hemail := (isIdentifier_of_normalize hnormalized).isEmail hat
        exact ⟨hp, Or.inr hemail, Or.inr (ne_empty_of_email hemail)⟩
      · cases h
    · cases h

theorem trimmed_of_normalized {x : String} (h : normalizeAccount env x = .ok x) : Trimmed x := by
  unfold normalizeAccount at h
  simp only at h
  split at h
  · split at h
    · rw [← Except.ok.inj h]
      exact trimmed_toLower (trimmed_trimSpace x)
    · cases h
  · split at h
    · rw [← Except.ok.inj h]
      exact trimmed_trimSpace x
    · cases h

theorem trimSpace_empty : trimSpace "" = "" := by decide

theorem validateBindings_email {x : String} (h : IsEmail env x) :
    validateBindings env "" x = .ok ("", x) := by
  have htrim := trimSpace_of_trimmed (trimmed_of_normalized h.2)
  simp [validateBindings, trimSpace_empty, htrim, ne_empty_of_email h, h.1, h.2]

theorem validateBindings_phone {x : String} (h : IsPhone x) :
    validateBindings env x "" = .ok (x, "") := by
  have htrim := trimSpace_of_trimmed (trimmed_of_phone h)
  have hpattern : chinaMobilePattern x = true := h
  simp [validateBindings, trimSpace_empty, htrim, ne_empty_of_phone h, hpattern]

theorem normalizeAccount_empty {x : String} : normalizeAccount env "" ≠ .ok x := by
  have hempty : normalizeAccount env "" = .error "请输入正确的中国大陆手机号或邮箱" := by
    simp [normalizeAccount, trimSpace_empty, hasAt, chinaMobilePattern]
  rw [hempty]
  simp

theorem hash_mem_markDeleted (phone : String) (now : ℕ) :
    '#' ∈ (markDeleted phone now).toList := by
  simp [markDeleted, deletedMark]

theorem phone_ne_marked {s : String} (h : '#' ∈ s.toList) : ¬ IsPhone s := by
  intro hphone
  exact not_mem_of_phone hphone (Or.inl (by decide)) h

end

end PapeSdk.Identifiers
