import PapeSdk.BlockModes

/-!
Bytes written as text: two lower-case digits a byte, or four letters for
every three bytes with padding at the end. Both decoders read back exactly
what their encoder wrote. They also accept texts no encoder writes, upper-case
digits and line breaks among the letters.
-/

namespace PapeSdk.TextCodecs

open BlockModes

/-- The bytes of a string. -/
def bytesOf (s : String) : Bytes := s.toUTF8.data.toList

inductive DecodeError where
  | invalidByte (b : UInt8)
  | oddLength
  | corruptInput
  deriving DecidableEq, Repr

def hexDigit (n : ℕ) : UInt8 := UInt8.ofNat (if n < 10 then 48 + n else 87 + n)

def hexValue (b : UInt8) : Option ℕ :=
  if 48 ≤ b.toNat ∧ b.toNat ≤ 57 then some (b.toNat - 48)
  else if 97 ≤ b.toNat ∧ b.toNat ≤ 102 then some (b.toNat - 87)
  else if 65 ≤ b.toNat ∧ b.toNat ≤ 70 then some (b.toNat - 55)
  else none

def hexEncode : Bytes → Bytes
  | [] => []
  | b :: rest => hexDigit (b.toNat / 16) :: hexDigit (b.toNat % 16) :: hexEncode rest

def hexDecode : Bytes → Except DecodeError Bytes
  | [] => .ok []
  | [b] => if (hexValue b).isNone then .error (.invalidByte b) else .error .oddLength
  | a :: b :: rest =>
    match hexValue a, hexValue b with
    | none, _ => .error (.invalidByte a)
    | some _, none => .error (.invalidByte b)
    | some x, some y =>
      match hexDecode rest with
      | .error e => .error e
      | .ok out => .ok (UInt8.ofNat (16 * x + y) :: out)

theorem hexValue_hexDigit : ∀ n < 16, hexValue (hexDigit n) = some n := by decide

@[simp] theorem length_hexEncode (data : Bytes) : (hexEncode data).length = 2 * data.length := by
  induction data with
  | nil => rfl
  | cons b rest ih =>
    simp only [hexEncode, List.length_cons, ih]
    omega

theorem hexDecode_hexEncode (data : Bytes) : hexDecode (hexEncode data) = .ok data := by
  induction data with
  | nil => rfl
  | cons b rest ih =>
    have hb : b.toNat < 256 := b.toNat_lt
    have hhigh := hexValue_hexDigit (b.toNat / 16) (by omega)
    have hlow := hexValue_hexDigit (b.toNat % 16) (by omega)
    have hjoin : 16 * (b.toNat / 16) + b.toNat % 16 = b.toNat := by omega
    simp only [hexEncode, hexDecode, hhigh, hlow, ih, hjoin, UInt8.ofNat_toNat]

def base64Letters : Bytes :=
  bytesOf "ABCDEFGHIJKLMNOPQRSTUVWXYZabcdefghijklmnopqrstuvwxyz0123456789+/"

def base64Letter (n : ℕ) : UInt8 := base64Letters.getD n 0

def base64Value (b : UInt8) : Option ℕ := base64Letters.idxOf? b

def padChar : UInt8 := 61

/-- The `i`-th of the three bytes in a number of twenty-four bits. -/
def byteAt (i v : ℕ) : UInt8 := UInt8.ofNat (v / 256 ^ (2 - i))

def letterAt (i v : ℕ) : UInt8 := base64Letter (v / 64 ^ (3 - i) % 64)

def base64Encode : Bytes → Bytes
  | [] => []
  | [a] =>
    let v := a.toNat * 65536
    [letterAt 0 v, letterAt 1 v, padChar, padChar]
  | [a, b] =>
    let v := a.toNat * 65536 + b.toNat * 256
    [letterAt 0 v, letterAt 1 v, letterAt 2 v, padChar]
  | a :: b :: c :: rest =>
    let v := a.toNat * 65536 + b.toNat * 256 + c.toNat
    letterAt 0 v :: letterAt 1 v :: letterAt 2 v :: letterAt 3 v :: base64Encode rest

/-- Reads four letters at a time; padding ends the text. -/
def base64Quanta : Bytes → Except DecodeError Bytes
  | [] => .ok []
  | a :: b :: c :: d :: rest =>
    match base64Value a, base64Value b, base64Value c, base64Value d with
    | some w, some x, some y, some z =>
      let v := w * 64 ^ 3 + x * 64 ^ 2 + y * 64 + z
      match base64Quanta rest with
      | .error e => .error e
      | .ok out => .ok (byteAt 0 v :: byteAt 1 v :: byteAt 2 v :: out)
    | some w, some x, some y, none =>
      let v := w * 64 ^ 3 + x * 64 ^ 2 + y * 64
      if d = padChar ∧ rest = [] then .ok [byteAt 0 v, byteAt 1 v] else .error .corruptInput
    | some w, some x, none, _ =>
      let v := w * 64 ^ 3 + x * 64 ^ 2
      if c = padChar ∧ d = padChar ∧ rest = [] then .ok [byteAt 0 v] else .error .corruptInput
    | _, _, _, _ => .error .corruptInput
  | _ => .error .corruptInput

def isLineBreak (b : UInt8) : Bool := b == 10 || b == 13

def base64Decode (data : Bytes) : Except DecodeError Bytes :=
  base64Quanta (data.filter fun b => !isLineBreak b)

theorem base64Value_letter : ∀ n < 64, base64Value (base64Letter n) = some n := by
  decide +kernel

theorem base64Value_letterAt (i v : ℕ) :
    base64Value (letterAt i v) = some (v / 64 ^ (3 - i) % 64) :=
  base64Value_letter _ (Nat.mod_lt _ (by omega))

theorem base64Value_padChar : base64Value padChar = none := by decide +kernel

/-- Letters and padding are printable: no space and no line break. -/
theorem base64Letter_printable : ∀ n < 64, 32 < base64Letter n := by decide +kernel

theorem letterAt_printable (i v : ℕ) : 32 < letterAt i v :=
  base64Letter_printable _ (Nat.mod_lt _ (by omega))

theorem base64Encode_printable (data : Bytes) : ∀ b ∈ base64Encode data, 32 < b := by
  induction data using base64Encode.induct with
  | case1 => simp [base64Encode]
  | case2 a =>
    simp only [base64Encode, List.mem_cons, List.not_mem_nil, or_false, forall_eq_or_imp,
      forall_eq]
    exact ⟨letterAt_printable _ _, letterAt_printable _ _, by decide, by decide⟩
  | case3 a b =>
    simp only [base64Encode, List.mem_cons, List.not_mem_nil, or_false, forall_eq_or_imp,
      forall_eq]
    exact ⟨letterAt_printable _ _, letterAt_printable _ _, letterAt_printable _ _, by decide⟩
  | case4 a b c rest ih =>
    simp only [base64Encode, List.mem_cons, forall_eq_or_imp]
    exact ⟨letterAt_printable _ _, letterAt_printable _ _, letterAt_printable _ _,
      letterAt_printable _ _, ih⟩

/-- Four letters carry the whole number they were cut from. -/
theorem letters_join {v : ℕ} (h : v < 64 ^ 4) :
    v / 64 ^ 3 % 64 * 64 ^ 3 + v / 64 ^ 2 % 64 * 64 ^ 2 + v / 64 % 64 * 64 + v % 64 = v := by
  omega

theorem byteAt_eq {i v : ℕ} {b : UInt8} (h : v / 256 ^ (2 - i) % 256 = b.toNat) :
    byteAt i v = b := by
  apply UInt8.toNat_inj.mp
  rw [byteAt, UInt8.toNat_ofNat', h]

theorem base64Quanta_encode (data : Bytes) : base64Quanta (base64Encode data) = .ok data := by
  induction data using base64Encode.induct with
  | case1 => rfl
  | case2 a =>
    have ha : a.toNat < 256 := a.toNat_lt
    simp only [base64Encode, base64Quanta, base64Value_letterAt, base64Value_padChar, true_and,
      if_true]
    have hbyte : ∀ v, v = a.toNat * 65536 →
        byteAt 0 (v / 64 ^ 3 % 64 * 64 ^ 3 + v / 64 ^ 2 % 64 * 64 ^ 2) = a := by
      intro v hv
      exact byteAt_eq (by omega)
    simpa using hbyte _ rfl
  | case3 a b =>
    have ha : a.toNat < 256 := a.toNat_lt
    have hb : b.toNat < 256 := b.toNat_lt
    simp only [base64Encode, base64Quanta, base64Value_letterAt, base64Value_padChar, true_and,
      if_true]
    have hbytes : ∀ v w, v = a.toNat * 65536 + b.toNat * 256 →
        w = v / 64 ^ 3 % 64 * 64 ^ 3 + v / 64 ^ 2 % 64 * 64 ^ 2 + v / 64 % 64 * 64 →
        byteAt 0 w = a ∧ byteAt 1 w = b := by
      intro v w hv hw
      exact ⟨byteAt_eq (by omega), byteAt_eq (by omega)⟩
    obtain ⟨h0, h1⟩ := hbytes _ _ rfl rfl
    simpa using ⟨h0, h1⟩
  | case4 a b c rest ih =>
    have ha : a.toNat < 256 := a.toNat_lt
    have hb : b.toNat < 256 := b.toNat_lt
    have hc : c.toNat < 256 := c.toNat_lt
    simp only [base64Encode, base64Quanta, base64Value_letterAt, ih]
    have hbytes : ∀ v, v = a.toNat * 65536 + b.toNat * 256 + c.toNat →
        byteAt 0 v = a ∧ byteAt 1 v = b ∧ byteAt 2 v = c := by
      intro v hv
      exact ⟨byteAt_eq (by omega), byteAt_eq (by omega), byteAt_eq (by omega)⟩
    obtain ⟨h0, h1, h2⟩ := hbytes _ rfl
    have hjoin := letters_join (v := a.toNat * 65536 + b.toNat * 256 + c.toNat) (by omega)
    simp only [Nat.sub_zero, Nat.reduceSub, pow_one, pow_zero, Nat.div_one]
    rw [hjoin, h0, h1, h2]

theorem base64Decode_base64Encode (data : Bytes) :
    base64Decode (base64Encode data) = .ok data := by
  have hkeep : (base64Encode data).filter (fun b => !isLineBreak b) = base64Encode data := by
    apply List.filter_eq_self.mpr
    intro b hb
    have hlow := base64Encode_printable data b hb
    have h10 : b ≠ 10 := by rintro rfl; exact absurd hlow (by decide)
    have h13 : b ≠ 13 := by rintro rfl; exact absurd hlow (by decide)
    simp [isLineBreak, h10, h13]
  rw [base64Decode, hkeep, base64Quanta_encode]

end PapeSdk.TextCodecs
