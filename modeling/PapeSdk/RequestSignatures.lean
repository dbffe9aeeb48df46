import PapeSdk.Envelopes
import PapeSdk.JoinedPairs
import Mathlib.Data.List.Sort

/-!
The signature of a request. The outer fields are sorted by name and joined
into one text without escaping, and the text is authenticated with the
application's key. A text tells fields apart as long as no name holds one of
the two separators and no value can be taken for a value and another field.
-/

namespace PapeSdk

open BlockModes TextCodecs JoinedPairs

/-- The fields of a request, in the order in which they happen to be listed. -/
structure OuterFields where
  entries : List (Bytes × Bytes)
  distinct : (entries.map Prod.fst).Nodup

namespace OuterFields

/-- The value of a field; a field that is absent reads as the empty string. -/
def get (outer : OuterFields) (k : Bytes) : Bytes :=
  ((outer.entries.find? (·.1 == k)).map Prod.snd).getD []

/-- The names that never take part in a signature. -/
def unsigned : List Bytes := [bytesOf "sign", bytesOf "sig", bytesOf "data"]

def isSigned (outer : OuterFields) (k : Bytes) : Bool :=
  k != bytesOf "sign" && k != bytesOf "sig" && k != bytesOf "data" && outer.get k != []

def signedKeys (outer : OuterFields) : List Bytes :=
  (outer.entries.map Prod.fst).filter outer.isSigned

/-- Names in the order of their bytes. -/
def sortStrings (keys : List Bytes) : List Bytes := keys.insertionSort (· ≤ ·)

def parts (outer : OuterFields) : List Bytes :=
  (sortStrings outer.signedKeys).map fun k => k ++ bytesOf "=" ++ outer.get k

/-- The text that is authenticated. -/
def signedText (outer : OuterFields) : Bytes := (bytesOf "&").intercalate outer.parts

end OuterFields

/-- Authentication with a key, over blocks of sixty-four bytes. -/
def hmacMD5 (x : Primitives) (key text : Bytes) : Bytes :=
  let short := if 64 < key.length then x.md5 key else key
  let block := short ++ List.replicate (64 - short.length) 0
  let inner := x.md5 (block.map (· ^^^ 0x36) ++ text)
  x.md5 (block.map (· ^^^ 0x5c) ++ inner)

def BFF.sign (x : Primitives) (b : BFF) (outer : OuterFields) : Bytes :=
  hexEncode (hmacMD5 x b.appKey outer.signedText)

namespace OuterFields

theorem mem_keys_of_get {outer : OuterFields} {k : Bytes} (h : outer.get k ≠ []) :
    k ∈ outer.entries.map Prod.fst := by
  cases hfind : outer.entries.find? (·.1 == k) with
  | none =>
    rw [get, hfind] at h
    exact absurd rfl h
  | some entry =>
    have hkey : entry.1 = k := by simpa using List.find?_some hfind
    rw [← hkey]
    exact List.mem_map_of_mem (List.mem_of_find?_eq_some hfind)

/-- The signed names are those of the nonempty fields that may be signed. -/
theorem mem_signedKeys (outer : OuterFields) (k : Bytes) :
    k ∈ outer.signedKeys ↔ k ∉ unsigned ∧ outer.get k ≠ [] := by
  have hsigned : outer.isSigned k = true ↔ k ∉ unsigned ∧ outer.get k ≠ [] := by
    simp only [isSigned, unsigned, Bool.and_eq_true, bne_iff_ne, List.mem_cons, List.not_mem_nil,
      or_false, not_or]
    tauto
  rw [signedKeys, List.mem_filter, hsigned]
  constructor
  · intro h
    exact h.2
  · intro h
    exact ⟨mem_keys_of_get h.2, h⟩

theorem mem_sortStrings (keys : List Bytes) (k : Bytes) : k ∈ sortStrings keys ↔ k ∈ keys :=
  (List.perm_insertionSort _ keys).mem_iff

/-- The signed fields in the order of the text. -/
def signedPairs (outer : OuterFields) : List (Bytes × Bytes) :=
  (sortStrings outer.signedKeys).map fun k => (k, outer.get k)

theorem mem_signedPairs (outer : OuterFields) (k v : Bytes) :
    (k, v) ∈ outer.signedPairs ↔ k ∈ outer.signedKeys ∧ outer.get k = v := by
  rw [signedPairs, List.mem_map]
  constructor
  · intro ⟨key, hkey, hpair⟩
    obtain ⟨hk, hv⟩ := Prod.mk.inj hpair
    rw [← hk]
    exact ⟨(mem_sortStrings _ key).mp hkey, hv⟩
  · intro ⟨hk, hv⟩
    exact ⟨k, (mem_sortStrings _ k).mpr hk, by rw [hv]⟩

/-- The separators between fields and behind a name. -/
def ampersand : UInt8 := 38

def equals : UInt8 := 61

theorem signedText_eq (outer : OuterFields) :
    outer.signedText = joined ampersand equals outer.signedPairs := by
  rw [signedText, parts, joined, signedPairs, List.map_map]
  rfl

/-- Names and values of signed fields hold no separator where it would be
taken for the end of a name or for the start of another field. -/
def Unescaped (outer : OuterFields) : Prop :=
  ∀ k ∈ outer.signedKeys, Readable ampersand equals (k, outer.get k)

instance (outer : OuterFields) : Decidable outer.Unescaped :=
  inferInstanceAs (Decidable (∀ k ∈ outer.signedKeys, _))

theorem Unescaped.signedPairs {outer : OuterFields} (h : outer.Unescaped) :
    ∀ pair ∈ outer.signedPairs, Readable ampersand equals pair := by
  intro pair hpair
  obtain ⟨k, v⟩ := pair
  obtain ⟨hk, hv⟩ := (mem_signedPairs outer k v).mp hpair
  rw [← hv]
  exact h k hk

theorem get_of_signedPairs {f g : OuterFields} (h : f.signedPairs = g.signedPairs) {k : Bytes}
    (hk : k ∉ unsigned) (hvalue : f.get k ≠ []) : g.get k = f.get k := by
  have hmem : (k, f.get k) ∈ f.signedPairs :=
    (mem_signedPairs f k _).mpr ⟨(mem_signedKeys f k).mpr ⟨hk, hvalue⟩, rfl⟩
  rw [h] at hmem
  exact ((mem_signedPairs g k _).mp hmem).2

/-- The listing order, the signature fields and empty fields leave no trace in
the text. -/
theorem signedText_of_get {f g : OuterFields} (h : ∀ k ∉ unsigned, f.get k = g.get k) :
    f.signedText = g.signedText := by
  have hkeys : ∀ k, k ∈ f.signedKeys ↔ k ∈ g.signedKeys := by
    intro k
    rw [mem_signedKeys, mem_signedKeys]
    by_cases hk : k ∈ unsigned
    · simp only [hk, not_true_eq_false, false_and]
    · rw [h k hk]
  have hperm : f.signedKeys.Perm g.signedKeys :=
    (List.perm_ext_iff_of_nodup (f.distinct.filter _) (g.distinct.filter _)).mpr hkeys
  have hsorted : sortStrings f.signedKeys = sortStrings g.signedKeys := by
    have hall := (List.perm_insertionSort (· ≤ ·) f.signedKeys).trans
      (hperm.trans (List.perm_insertionSort (· ≤ ·) g.signedKeys).symm)
    exact hall.eq_of_pairwise' (List.pairwise_insertionSort _ _)
      (List.pairwise_insertionSort _ _)
  have hparts : f.parts = g.parts := by
    rw [parts, parts, ← hsorted]
    apply List.map_congr_left
    intro k hk
    have hsigned := (mem_signedKeys f k).mp ((mem_sortStrings _ k).mp hk)
    rw [h k hsigned.1]
  rw [signedText, signedText, hparts]

theorem sign_of_get (x : Primitives) (b : BFF) {f g : OuterFields}
    (h : ∀ k ∉ unsigned, f.get k = g.get k) : b.sign x f = b.sign x g := by
  rw [BFF.sign, BFF.sign, signedText_of_get h]

/-- One signed text stands for one choice of values: two requests with the
same text agree on every field that may be signed. -/
theorem signedText_determines (f g : OuterFields) (hf : f.Unescaped) (hg : g.Unescaped)
    (h : f.signedText = g.signedText) (k : Bytes)
    (hk : k ≠ bytesOf "sign" ∧ k ≠ bytesOf "sig" ∧ k ≠ bytesOf "data") : f.get k = g.get k := by
  have hunsigned : k ∉ unsigned := by
    simpa only [unsigned, List.mem_cons, List.not_mem_nil, or_false, not_or] using hk
  have hpairs : f.signedPairs = g.signedPairs := by
    rw [signedText_eq, signedText_eq] at h
    exact joined_injective (by decide) hf.signedPairs hg.signedPairs h
  by_cases hvalue : f.get k = []
  · by_cases hother : g.get k = []
    · rw [hvalue, hother]
    · exact get_of_signedPairs hpairs.symm hunsigned hother
  · exact (get_of_signedPairs hpairs hunsigned hvalue).symm

def signedLogin : OuterFields :=
  ⟨[(bytesOf "app_id", bytesOf "1010001"), (bytesOf "nick", bytesOf "a=b&c"),
    (bytesOf "sign", bytesOf "0a"), (bytesOf "timestamp", bytesOf "1700000001")], by decide⟩

def relistedLogin : OuterFields :=
  ⟨[(bytesOf "timestamp", bytesOf "1700000001"), (bytesOf "nick", bytesOf "a=b&c"),
    (bytesOf "channel", []), (bytesOf "app_id", bytesOf "1010001")], by decide⟩

theorem signedText_determines_login :
    relistedLogin.signedText = bytesOf "app_id=1010001&nick=a=b&c&timestamp=1700000001" ∧
      signedLogin.get (bytesOf "nick") = relistedLogin.get (bytesOf "nick") :=
  ⟨by decide, signedText_determines signedLogin relistedLogin (by decide) (by decide)
    (by decide) (bytesOf "nick") (by decide)⟩

/-- A value that reads like a value and another field. -/
def folded : OuterFields := ⟨[(bytesOf "nick", bytesOf "a&uid=7")], by decide⟩

def unfolded : OuterFields :=
  ⟨[(bytesOf "uid", bytesOf "7"), (bytesOf "nick", bytesOf "a")], by decide⟩

/-- A name with the sign in it, and a name with the separator in it. -/
def longName : OuterFields := ⟨[(bytesOf "a=b", bytesOf "c")], by decide⟩

def shortName : OuterFields := ⟨[(bytesOf "a", bytesOf "b=c")], by decide⟩

def cutName : OuterFields :=
  ⟨[(bytesOf "a", bytesOf "1"), (bytesOf "b&c", bytesOf "2")], by decide⟩

def wholeName : OuterFields :=
  ⟨[(bytesOf "a", bytesOf "1&b"), (bytesOf "c", bytesOf "2")], by decide⟩

theorem signedText_ambiguous :
    (folded.signedText = unfolded.signedText ∧
      folded.get (bytesOf "uid") = [] ∧ unfolded.get (bytesOf "uid") = bytesOf "7") ∧
    (longName.signedText = shortName.signedText ∧
      longName.get (bytesOf "a") = [] ∧ shortName.get (bytesOf "a") = bytesOf "b=c") ∧
    cutName.signedText = wholeName.signedText ∧
      cutName.get (bytesOf "c") = [] ∧ wholeName.get (bytesOf "c") = bytesOf "2" := by
  decide

end OuterFields

end PapeSdk
