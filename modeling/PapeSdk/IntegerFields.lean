import PapeSdk.EnvelopeRoundTrip
import PapeSdk.FloatTexts

/-!
Integers in the encrypted data. The reader turns every JSON number into a
floating-point number, which holds the integers below the fifty-third power of
two exactly, and prints it in the general format. The printed text is the
integer's own up to six digits; longer integers come back with an exponent.
-/

namespace PapeSdk

open BlockModes TextCodecs FloatTexts

/-- The floating-point numbers of the JSON reader that are integers. -/
structure Primitives.Floats (x : Primitives) where
  ofInt : ℤ → x.Number
  showNumber_ofInt : ∀ n : ℤ, n.natAbs < 2 ^ 53 → x.showNumber (ofInt n) = sprintFloat n

namespace Primitives.Floats

variable {x : Primitives} (c : x.Floats)

/-- An object of integers as the encoder sees it. -/
def object (m : StrMap ℤ) : JSONValue x.Number :=
  .object (m.toList.map fun (k, n) => (k, .number (c.ofInt n)))

/-- The codec writes visible text for the object and reads the same numbers back. -/
def RoundTrips (m : StrMap ℤ) : Prop :=
  ∃ text, x.marshal (c.object m) = .ok text ∧
    (∃ b ∈ text.head?, Visible b) ∧ (∃ b ∈ text.getLast?, Visible b) ∧
    x.unmarshal text = .ok (m.map fun _ n => .number (c.ofInt n))

end Primitives.Floats

/-- The range in which every integer is a floating-point number. -/
def ExactIntegers (m : StrMap ℤ) : Prop := ∀ (k : String) n, m[k]? = some n → n.natAbs < 2 ^ 53

section
variable {x : Primitives} {c : x.Floats} {m : StrMap ℤ}

theorem printed_integers (hexact : ExactIntegers m) :
    (m.map fun _ n => JSONValue.number (c.ofInt n)).map
      (fun _ v => v.sprint x.showNumber) = m.map fun _ n => sprintFloat n := by
  rw [Std.ExtTreeMap.map_map]
  apply Std.ExtTreeMap.ext_getElem?
  intro k
  rw [Std.ExtTreeMap.getElem?_map, Std.ExtTreeMap.getElem?_map]
  cases hfield : m[k]? with
  | none => rfl
  | some n =>
    have hshown := c.showNumber_ofInt n (hexact k n hfield)
    exact congrArg some hshown

/-- Opening reads every integer as the text of its floating-point number. -/
theorem Primitives.Floats.RoundTrips.readFields (h : c.RoundTrips m) (hexact : ExactIntegers m) :
    ∃ text, x.marshalJSON (c.object m) = .ok text ∧
      x.readFields text = .ok (m.map fun _ n => sprintFloat n) := by
  obtain ⟨text, hmarshal, hfirst, hlast, hunmarshal⟩ := h
  refine ⟨text, ?_, ?_⟩
  · rw [Primitives.marshalJSON, hmarshal]
    rfl
  · rw [Primitives.readFields, bytesTrimSpace_visible hfirst hlast, hunmarshal]
    exact congrArg Except.ok (printed_integers hexact)

theorem decryptData_integers (hjson : c.RoundTrips m) (hexact : ExactIntegers m) {b : BFF}
    {timestamp : Int64} {value : Bytes}
    (hsealed : b.encryptData x (c.object m) timestamp = .ok value) :
    b.decryptData x value timestamp = .ok (m.map fun _ n => sprintFloat n) := by
  obtain ⟨plain, hplain, hfields⟩ := hjson.readFields hexact
  exact decryptData_of_sealed hplain hfields hsealed

/-- Every integer of a sealed object comes back in its plain digits exactly if
none of them has more than six. -/
theorem integers_survive_iff (hjson : c.RoundTrips m) (hexact : ExactIntegers m) {b : BFF}
    {timestamp : Int64} {value : Bytes}
    (hsealed : b.encryptData x (c.object m) timestamp = .ok value) :
    (∃ fields, b.decryptData x value timestamp = .ok fields ∧
        ∀ (k : String) n, m[k]? = some n → fields[k]? = some (toString n)) ↔
      ∀ (k : String) n, m[k]? = some n → n.natAbs < 10 ^ 6 := by
  have hopened := decryptData_integers hjson hexact hsealed
  have hfield : ∀ (k : String) n, m[k]? = some n →
      (m.map fun _ n => sprintFloat n)[k]? = some (sprintFloat n) := by
    intro k n hn
    rw [Std.ExtTreeMap.getElem?_map, hn]
    rfl
  constructor
  · intro ⟨fields, hfields, hplain⟩ k n hn
    have hsame : fields = m.map fun _ n => sprintFloat n :=
      Except.ok.inj (hfields.symm.trans hopened)
    have htext := hplain k n hn
    rw [hsame, hfield k n hn] at htext
    exact (sprintFloat_eq_iff n).mp (Option.some.inj htext)
  · intro hsmall
    refine ⟨_, hopened, fun k n hn => ?_⟩
    rw [hfield k n hn, (sprintFloat_eq_iff n).mpr (hsmall k n hn)]

end

/-- A codec for one integer, with the cipher block of its recorded text. -/
def exchangeOf (text : String) (n : ℤ) (before after : Bytes) (hbefore : before.length = 16)
    (hafter : after.length = 16) : Primitives :=
  { recorded with
    aes := fun _ => swapCipher 16 (Nat.succ_pos 15) before after hbefore hafter
    aes_blockSize := fun _ => rfl
    Number := ℤ
    showNumber := sprintFloat
    marshal := fun _ => .ok (bytesOf text)
    unmarshal := fun read =>
      if read = bytesOf text then .ok ((∅ : StrMap _).insert "id" (.number n))
      else .error "unexpected end of JSON input" }

def sixDigits : Primitives :=
  exchangeOf "\x7b\"id\":123456\x7d" 123456
    [25, 16, 80, 84, 20, 2, 83, 6, 86, 3, 84, 82, 79, 58, 103, 48]
    [184, 220, 11, 148, 87, 92, 15, 234, 190, 102, 196, 5, 248, 219, 15, 220] rfl rfl

def sevenDigits : Primitives :=
  exchangeOf "\x7b\"id\":1234567\x7d" 1234567
    [25, 16, 80, 84, 20, 2, 83, 6, 86, 3, 84, 82, 5, 68, 102, 49]
    [234, 85, 206, 162, 190, 234, 95, 183, 228, 19, 131, 182, 62, 92, 176, 183] rfl rfl

def sixFloats : sixDigits.Floats := ⟨id, fun _ _ => rfl⟩

def sevenFloats : sevenDigits.Floats := ⟨id, fun _ _ => rfl⟩

def idField (n : ℤ) : StrMap ℤ := (∅ : StrMap ℤ).insert "id" n

theorem getElem?_idField {n a : ℤ} {k : String} (h : (idField n)[k]? = some a) : a = n := by
  rw [idField, Std.ExtTreeMap.getElem?_insert] at h
  split at h
  · exact (Option.some.inj h).symm
  · rw [Std.ExtTreeMap.getElem?_empty] at h
    cases h

theorem sixDigits_roundTrips : sixFloats.RoundTrips (idField 123456) :=
  ⟨bytesOf "\x7b\"id\":123456\x7d", rfl, by decide, by decide, rfl⟩

theorem sevenDigits_roundTrips : sevenFloats.RoundTrips (idField 1234567) :=
  ⟨bytesOf "\x7b\"id\":1234567\x7d", rfl, by decide, by decide, rfl⟩

theorem six_digits_survive :
    recordedApp.encryptData sixDigits (sixFloats.object (idField 123456)) 1700000001 =
        .ok (bytesOf "uNwLlFdcD+q+ZsQF+NsP3A==") ∧
      ∃ fields, recordedApp.decryptData sixDigits (bytesOf "uNwLlFdcD+q+ZsQF+NsP3A==")
          1700000001 = .ok fields ∧
        ∀ (k : String) n, (idField 123456)[k]? = some n → fields[k]? = some (toString n) := by
  have hsealed : recordedApp.encryptData sixDigits (sixFloats.object (idField 123456))
      1700000001 = .ok (bytesOf "uNwLlFdcD+q+ZsQF+NsP3A==") := by decide +kernel
  refine ⟨hsealed, (integers_survive_iff sixDigits_roundTrips ?_ hsealed).mpr ?_⟩
  · intro k n hn
    rw [getElem?_idField hn]
    decide
  · intro k n hn
    rw [getElem?_idField hn]
    decide

/-- The id 1234567 comes back as 1.234567e+06. -/
theorem seven_digits_lost :
    ¬ ∀ (x : Primitives) (c : x.Floats) (m : StrMap ℤ) (b : BFF) (timestamp : Int64)
        (value : Bytes), c.RoundTrips m → ExactIntegers m →
      b.encryptData x (c.object m) timestamp = .ok value →
      ∃ fields, b.decryptData x value timestamp = .ok fields ∧
        ∀ (k : String) n, m[k]? = some n → fields[k]? = some (toString n) := by
  intro hclaim
  have hsealed : recordedApp.encryptData sevenDigits (sevenFloats.object (idField 1234567))
      1700000001 = .ok (bytesOf "6lXOor7qX7fkE4O2Plywtw==") := by decide +kernel
  have hexact : ExactIntegers (idField 1234567) := by
    intro k n hn
    rw [getElem?_idField hn]
    decide
  obtain ⟨fields, hfields, hplain⟩ := hclaim sevenDigits sevenFloats (idField 1234567) recordedApp
    1700000001 _ sevenDigits_roundTrips hexact hsealed
  have hopened := decryptData_integers sevenDigits_roundTrips hexact hsealed
  have hsame := Except.ok.inj (hfields.symm.trans hopened)
  have htext := hplain "id" 1234567 rfl
  rw [hsame, show ((idField 1234567).map fun _ n => sprintFloat n)["id"]? =
    some "1.234567e+06" by rfl] at htext
  exact absurd (Option.some.inj htext) (by decide)

end PapeSdk
