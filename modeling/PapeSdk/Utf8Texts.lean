import PapeSdk.Authorities
import PapeSdk.BlockModes

/-!
Byte strings and the characters that they spell. Decoding goes from the left and lets
a byte that begins no character stand for itself, so that encoding gives the bytes
back. A byte of ASCII is a character of its own wherever it stands, and cuts the
decoding in two.
-/

namespace PapeSdk.Utf8Texts

open BlockModes Authorities

def runeBytes : Rune → Bytes
  | .char c => String.utf8EncodeChar c
  | .invalid b => [b]

def encode (t : Text) : Bytes := t.flatMap runeBytes

/-- The rune that a byte begins, in front of the others. -/
def runeAt (b : UInt8) (rest : Bytes) : Rune :=
  match (b :: rest).toByteArray.utf8DecodeChar? 0 with
  | some c => .char c
  | none => .invalid b

/-- The runes behind so many bytes that belong to the rune before. -/
def decodeFrom : ℕ → Bytes → Text
  | _, [] => []
  | skip + 1, _ :: rest => decodeFrom skip rest
  | 0, b :: rest => runeAt b rest :: decodeFrom ((runeBytes (runeAt b rest)).length - 1) rest

def decode (data : Bytes) : Text := decodeFrom 0 data

def Rune.isChar : Rune → Bool
  | .char _ => true
  | .invalid _ => false

/-- `utf8.ValidString`. -/
def validString (data : Bytes) : Bool := (decode data).all Rune.isChar

/-- `strings.TrimSpace`. -/
def trimSpace (data : Bytes) : Bytes := encode (Authorities.trimSpace (decode data))

/-- `strings.ToLower`. -/
def toLower (data : Bytes) : Bytes := encode ((decode data).map Rune.lower)

/-- The replacement character for a byte that begins no character. -/
def Rune.replaced : Rune → Rune
  | .char c => .char c
  | .invalid _ => .char (Char.ofNat 0xFFFD)

/-- Without invalid bytes, the way texts leave an encoder. -/
def replaceInvalid (data : Bytes) : Bytes := encode ((decode data).map Rune.replaced)

theorem runeBytes_ne (r : Rune) : runeBytes r ≠ [] := by
  cases r with
  | char c => exact String.utf8EncodeChar_ne_nil
  | invalid b => exact List.cons_ne_nil b []

theorem runeBytes_leads (b : UInt8) (rest : Bytes) :
    runeBytes (runeAt b rest) <+: b :: rest := by
  unfold runeAt
  split
  · next c hc =>
    obtain ⟨tail, htail⟩ := ByteArray.exists_of_utf8DecodeChar?_eq_some hc
    refine ⟨tail.data.toList, ?_⟩
    have hlist := congrArg (fun a => a.data.toList) htail
    simpa [runeBytes] using hlist.symm
  · exact ⟨rest, rfl⟩

theorem encode_decodeFrom (skip : ℕ) (data : Bytes) :
    encode (decodeFrom skip data) = data.drop skip := by
  induction data generalizing skip with
  | nil => simp [decodeFrom, encode]
  | cons b rest ih =>
    cases skip with
    | succ skip => exact ih skip
    | zero =>
      obtain ⟨tail, htail⟩ := runeBytes_leads b rest
      obtain ⟨first, others, hbytes⟩ := List.exists_cons_of_ne_nil (runeBytes_ne (runeAt b rest))
      rw [decodeFrom, encode, List.flatMap_cons]
      change runeBytes (runeAt b rest) ++ encode (decodeFrom _ rest) = _
      rw [ih]
      rw [hbytes, List.cons_append] at htail
      obtain ⟨rfl, rfl⟩ := List.cons.inj htail
      rw [hbytes, List.length_cons, Nat.add_sub_cancel, List.drop_left]
      exact htail

/-- Nothing is lost in decoding. -/
theorem encode_decode (data : Bytes) : encode (decode data) = data := encode_decodeFrom 0 data

/-- A character of ASCII is one byte, and no byte of another character is in ASCII. -/
theorem utf8EncodeChar_cases (c : Char) :
    (c.toNat < 128 ∧ String.utf8EncodeChar c = [UInt8.ofNat c.toNat]) ∨
      (128 ≤ c.toNat ∧ ∀ b ∈ String.utf8EncodeChar c, 128 ≤ b.toNat) := by
  have hv : c.toNat = c.val.toNat := rfl
  unfold String.utf8EncodeChar
  dsimp only
  by_cases hone : c.val.toNat ≤ 0x7f
  · rw [if_pos hone]
    exact Or.inl ⟨by omega, rfl⟩
  · rw [if_neg hone]
    refine Or.inr ⟨by omega, ?_⟩
    have hhigh : ∀ n, 128 ≤ n % 256 → 128 ≤ (UInt8.ofNat n).toNat := by
      intro n hn
      rwa [UInt8.toNat_ofNat']
    intro b hb
    split at hb
    · simp only [List.mem_cons, List.not_mem_nil, or_false] at hb
      rcases hb with rfl | rfl
      · exact hhigh _ (by omega)
      · exact hhigh _ (by omega)
    · split at hb
      · simp only [List.mem_cons, List.not_mem_nil, or_false] at hb
        rcases hb with rfl | rfl | rfl
        · exact hhigh _ (by omega)
        · exact hhigh _ (by omega)
        · exact hhigh _ (by omega)
      · simp only [List.mem_cons, List.not_mem_nil, or_false] at hb
        rcases hb with rfl | rfl | rfl | rfl
        · exact hhigh _ (by omega)
        · exact hhigh _ (by omega)
        · exact hhigh _ (by omega)
        · exact hhigh _ (by omega)

theorem runeAt_eq_char_iff {b : UInt8} {rest : Bytes} {c : Char} :
    runeAt b rest = .char c ↔ String.utf8EncodeChar c <+: b :: rest := by
  constructor
  · intro h
    have hprefix := runeBytes_leads b rest
    rwa [h] at hprefix
  · rintro ⟨tail, htail⟩
    have hdecode := ByteArray.utf8DecodeChar?_utf8EncodeChar_append (b := tail.toByteArray) (c := c)
    rw [← List.toByteArray_append, htail] at hdecode
    unfold runeAt
    rw [hdecode]

/-- A byte of ASCII ends the rune before it. -/
theorem runeAt_append {x b : UInt8} {a rest : Bytes} (hb : b.toNat < 128) :
    runeAt x (a ++ b :: rest) = runeAt x a := by
  have hchar : ∀ c, runeAt x (a ++ b :: rest) = .char c ↔ runeAt x a = .char c := by
    intro c
    rw [runeAt_eq_char_iff, runeAt_eq_char_iff]
    constructor
    · intro hprefix
      have hshort : x :: a <+: x :: (a ++ b :: rest) := List.prefix_append (x :: a) _
      rcases List.prefix_or_prefix_of_prefix hprefix hshort with h | ⟨tail, htail⟩
      · exact h
      · cases tail with
        | nil =>
          rw [List.append_nil] at htail
          rw [htail]
        | cons y tail =>
          have hsame : y = b := by
            rw [← htail, ← List.cons_append, List.prefix_append_right_inj] at hprefix
            exact (List.cons_prefix_cons.mp hprefix).1
          rcases utf8EncodeChar_cases c with ⟨-, hone⟩ | ⟨-, hhigh⟩
          · have hlength := congrArg List.length htail
            rw [hone] at hlength
            simp only [List.length_append, List.length_cons, List.length_nil] at hlength
            omega
          · have hmem : b ∈ String.utf8EncodeChar c := by
              rw [← htail, hsame]
              exact List.mem_append_right _ List.mem_cons_self
            have hfar := hhigh b hmem
            omega
    · intro hprefix
      exact hprefix.trans (List.prefix_append (x :: a) _)
  cases hlong : runeAt x (a ++ b :: rest) with
  | char c => exact ((hchar c).mp hlong).symm
  | invalid y =>
    have hfirst : ∀ rest y, runeAt x rest = .invalid y → y = x := by
      intro rest y h
      have hprefix := runeBytes_leads x rest
      rw [h] at hprefix
      exact (List.cons_prefix_cons.mp hprefix).1
    cases hshort : runeAt x a with
    | char c =>
      rw [(hchar c).mpr hshort] at hlong
      cases hlong
    | invalid z => rw [hfirst _ _ hlong, hfirst _ _ hshort]

theorem decodeFrom_append {skip : ℕ} {a rest : Bytes} {b : UInt8} (hb : b.toNat < 128)
    (hskip : skip ≤ a.length) :
    decodeFrom skip (a ++ b :: rest) = decodeFrom skip a ++ decode (b :: rest) := by
  induction a generalizing skip with
  | nil =>
    obtain rfl : skip = 0 := Nat.le_zero.mp hskip
    rfl
  | cons x a ih =>
    cases skip with
    | succ skip => exact ih (Nat.le_of_succ_le_succ hskip)
    | zero =>
      rw [List.cons_append, decodeFrom, decodeFrom, runeAt_append hb, ih, List.cons_append]
      have hlength := (runeBytes_leads x a).length_le
      rw [List.length_cons] at hlength
      omega

theorem utf8EncodeChar_ascii {b : UInt8} (hb : b.toNat < 128) :
    String.utf8EncodeChar (Char.ofNat b.toNat) = [b] := by
  have hvalid : b.toNat.isValidChar := Or.inl (by omega)
  have hnat : (Char.ofNat b.toNat).toNat = b.toNat := by
    unfold Char.ofNat
    rw [dif_pos hvalid]
    rfl
  rcases utf8EncodeChar_cases (Char.ofNat b.toNat) with ⟨-, hone⟩ | ⟨hhigh, -⟩
  · rw [hone, hnat, UInt8.ofNat_toNat]
  · omega

/-- The decoding is cut at a byte of ASCII. -/
theorem decode_append {a rest : Bytes} {b : UInt8} (hb : b.toNat < 128) :
    decode (a ++ b :: rest) = decode a ++ .char (Char.ofNat b.toNat) :: decode rest := by
  have hfirst : runeAt b rest = .char (Char.ofNat b.toNat) := by
    rw [runeAt_eq_char_iff, utf8EncodeChar_ascii hb]
    exact ⟨rest, rfl⟩
  rw [decode, decodeFrom_append hb (Nat.zero_le _), decode, decode, decodeFrom, hfirst, runeBytes,
    utf8EncodeChar_ascii hb]
  rfl

theorem decode_char (c : Char) (rest : Bytes) :
    decode (String.utf8EncodeChar c ++ rest) = .char c :: decode rest := by
  obtain ⟨first, others, hbytes⟩ :=
    List.exists_cons_of_ne_nil (String.utf8EncodeChar_ne_nil (c := c))
  have hfirst : runeAt first (others ++ rest) = .char c := by
    rw [runeAt_eq_char_iff, hbytes]
    exact ⟨rest, rfl⟩
  have hskip : ∀ tail : Bytes, decodeFrom tail.length (tail ++ rest) = decode rest := by
    intro tail
    induction tail with
    | nil => rfl
    | cons b tail ih => exact ih
  rw [hbytes, List.cons_append, decode, decodeFrom, hfirst, runeBytes, hbytes, List.length_cons,
    Nat.add_sub_cancel, hskip]

theorem decode_encode {t : Text} (h : t.all Rune.isChar = true) : decode (encode t) = t := by
  induction t with
  | nil => rfl
  | cons r t ih =>
    simp only [List.all_cons, Bool.and_eq_true] at h
    cases r with
    | char c =>
      rw [encode, List.flatMap_cons]
      exact (decode_char c _).trans (congrArg _ (ih h.2))
    | invalid b => cases h.1

theorem replaceInvalid_of_valid {data : Bytes} (h : validString data = true) :
    replaceInvalid data = data := by
  have hsame : (decode data).map Rune.replaced = decode data := by
    refine (List.map_congr_left fun r hr => ?_).trans (List.map_id _)
    have hchar := List.all_eq_true.mp h r hr
    cases r with
    | char c => rfl
    | invalid b => cases hchar
  rw [replaceInvalid, hsame, encode_decode]

/-- Replacing changes exactly the texts that are not valid. -/
theorem replaceInvalid_eq_self_iff {data : Bytes} :
    replaceInvalid data = data ↔ validString data = true := by
  refine ⟨fun h => ?_, replaceInvalid_of_valid⟩
  have hall : ((decode data).map Rune.replaced).all Rune.isChar = true := by
    apply List.all_eq_true.mpr
    intro r hr
    obtain ⟨a, -, rfl⟩ := List.mem_map.mp hr
    cases a with
    | char c => rfl
    | invalid b => rfl
  have hdecode := decode_encode hall
  rw [show encode ((decode data).map Rune.replaced) = data from h] at hdecode
  rw [validString, hdecode]
  exact hall

theorem validString_append {a rest : Bytes} {b : UInt8} (hb : b.toNat < 128) :
    validString (a ++ b :: rest) = (validString a && validString rest) := by
  rw [validString, decode_append hb, List.all_append, List.all_cons]
  rfl

theorem validString_of_ascii {data : Bytes} (h : ∀ b ∈ data, b.toNat < 128) :
    validString data = true := by
  induction data with
  | nil => rfl
  | cons b rest ih =>
    have hsplit : validString ([] ++ b :: rest) = (validString [] && validString rest) :=
      validString_append (h b List.mem_cons_self)
    rw [List.nil_append, ih fun c hc => h c (List.mem_cons_of_mem _ hc)] at hsplit
    rw [hsplit]
    rfl

theorem mem_encode {b : UInt8} {t : Text} : b ∈ encode t ↔ ∃ r ∈ t, b ∈ runeBytes r :=
  List.mem_flatMap

/-- Trimming leaves only bytes that were there. -/
theorem mem_of_mem_trimSpace {b : UInt8} {data : Bytes} (h : b ∈ trimSpace data) : b ∈ data := by
  obtain ⟨r, hr, hb⟩ := mem_encode.mp h
  have hmem : r ∈ decode data :=
    (List.dropWhile_suffix _).subset ((List.rdropWhile_prefix _ _).subset hr)
  rw [← encode_decode data]
  exact mem_encode.mpr ⟨r, hmem, hb⟩

end PapeSdk.Utf8Texts
