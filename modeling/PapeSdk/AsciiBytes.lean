import PapeSdk.BlockModes

/-!
The bytes of the ASCII alphabet that text formats share, and numbers in decimal.
The digits of a number are read back as the number, so two numbers with the same
digits are the same.
-/

namespace PapeSdk.AsciiBytes

open BlockModes

@[match_pattern] abbrev quote : UInt8 := 34
@[match_pattern] abbrev comma : UInt8 := 44
@[match_pattern] abbrev dot : UInt8 := 46
@[match_pattern] abbrev slash : UInt8 := 47
@[match_pattern] abbrev colon : UInt8 := 58
@[match_pattern] abbrev backslash : UInt8 := 92

def decimal (n : ℕ) : Bytes := (Nat.toDigits 10 n).map fun c => c.toNat.toUInt8

theorem digit_of_mem_toDigits {n : ℕ} {c : Char} (h : c ∈ Nat.toDigits 10 n) :
    48 ≤ c.toNat ∧ c.toNat ≤ 57 :=
  Char.isDigit_iff_toNat.mp (Nat.isDigit_of_mem_toDigits (by omega) (by omega) h)

theorem toNat_toUInt8_of_digit {c : Char} (h : 48 ≤ c.toNat ∧ c.toNat ≤ 57) :
    c.toNat.toUInt8.toNat = c.toNat := by
  rw [Nat.toUInt8, UInt8.toNat_ofNat', Nat.mod_eq_of_lt (by omega)]

theorem digit_of_mem_decimal {n : ℕ} {b : UInt8} (h : b ∈ decimal n) : 48 ≤ b ∧ b ≤ 57 := by
  obtain ⟨c, hc, rfl⟩ := List.mem_map.mp h
  have hdigit := digit_of_mem_toDigits hc
  rw [UInt8.le_iff_toNat_le, UInt8.le_iff_toNat_le, toNat_toUInt8_of_digit hdigit]
  exact hdigit

/-- The bytes of a number are the codes of its digits. -/
theorem map_decimal (n : ℕ) :
    ((decimal n).map fun b => Char.ofNat b.toNat) = Nat.toDigits 10 n := by
  rw [decimal, List.map_map]
  have hid : ∀ c ∈ Nat.toDigits 10 n, Char.ofNat c.toNat.toUInt8.toNat = c := by
    intro c hc
    rw [toNat_toUInt8_of_digit (digit_of_mem_toDigits hc), Char.ofNat_toNat]
  exact (List.map_congr_left hid).trans (List.map_id' _)

theorem decimal_ne_nil (n : ℕ) : decimal n ≠ [] := by
  intro hnil
  have hmap := map_decimal n
  rw [hnil] at hmap
  exact Nat.toDigits_ne_nil hmap.symm

theorem decimal_injective {m n : ℕ} (h : decimal m = decimal n) : m = n := by
  have hdigits : Nat.toDigits 10 m = Nat.toDigits 10 n := by
    rw [← map_decimal m, ← map_decimal n, h]
  have hvalue := congrArg (fun digits => Nat.ofDigitChars 10 digits 0) hdigits
  simpa [Nat.ofDigitChars_toDigits] using hvalue

end PapeSdk.AsciiBytes
