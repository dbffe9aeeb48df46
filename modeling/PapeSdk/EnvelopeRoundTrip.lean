import PapeSdk.Envelopes

/-!
What an envelope holds comes back out of it. Every choice of cipher, mode and
encoding is made from the application and the timestamp alone, so opening
makes the choices that sealing made; the padding, the block mode and the text
encoding of each pipeline are undone one by one.
-/

namespace PapeSdk

open BlockModes TextCodecs

theorem trimFront_visible {runes : List Bytes} {data : Bytes} (n : ℕ)
    (hrunes : ∀ rune ∈ runes, ∃ b ∈ rune.head?, ¬Visible b) (h : ∃ b ∈ data.head?, Visible b) :
    trimFront runes n data = data := by
  have hnone : runes.find? (·.isPrefixOf data) = none := by
    apply List.find?_eq_none.mpr
    intro rune hrune hprefix
    obtain ⟨b, hb, hhidden⟩ := hrunes rune hrune
    obtain ⟨c, hc, hvisible⟩ := h
    obtain ⟨rest, rfl⟩ := List.isPrefixOf_iff_prefix.mp hprefix
    have hhead : (rune ++ rest).head? = some b := by
      rw [List.head?_append, Option.mem_def.mp hb, Option.some_or]
    rw [Option.mem_def, hhead, Option.some.injEq] at hc
    exact hhidden (hc ▸ hvisible)
  cases n with
  | zero => rfl
  | succ n => rw [trimFront, hnone]

/-- Text that begins and ends visibly has no white space to lose. -/
theorem bytesTrimSpace_visible {data : Bytes} (hfirst : ∃ b ∈ data.head?, Visible b)
    (hlast : ∃ b ∈ data.getLast?, Visible b) : bytesTrimSpace data = data := by
  have hreverse : ∃ b ∈ data.reverse.head?, Visible b := by rwa [List.head?_reverse]
  rw [bytesTrimSpace, trimFront_visible _ spaceRunes_first hfirst,
    trimFront_visible _ spaceRunes_last hreverse, List.reverse_reverse]

theorem pkcs7Pad_padded (data : Bytes) {size : ℕ} (hpos : 0 < size) (hsize : size < 256) :
    Padded size data (pkcs7Pad data size) := by
  have hmod : data.length % size < size := Nat.mod_lt _ hpos
  refine ⟨size - data.length % size, by omega, by omega, by omega, ?_, rfl⟩
  have hsum : data.length + (size - data.length % size) = size * (data.length / size + 1) := by
    have hdiv := Nat.div_add_mod data.length size
    rw [Nat.mul_succ]
    omega
  rw [hsum, Nat.mul_mod_right]

theorem pkcs7Unpad_padded {size : ℕ} {data padded : Bytes} (h : Padded size data padded) :
    pkcs7Unpad padded size = .ok data := by
  obtain ⟨-, halign⟩ := h.length
  obtain ⟨k, hpos, hle, hbyte, -, rfl⟩ := h
  have hlast : (data ++ List.replicate k (UInt8.ofNat k)).getLast? = some (UInt8.ofNat k) := by
    rw [List.getLast?_append, List.getLast?_replicate, if_neg (by omega), Option.some_or]
  have hnat : (UInt8.ofNat k).toNat = k := UInt8.toNat_ofNat_of_lt hbyte
  have hlength : (data ++ List.replicate k (UInt8.ofNat k)).length - k = data.length := by simp
  have hall : (List.replicate k (UInt8.ofNat k)).all (fun b => b.toNat == k) = true := by
    rw [List.all_eq_true]
    intro b hb
    rw [List.eq_of_mem_replicate hb, hnat, beq_self_eq_true]
  have hbounds : ¬(k = 0 ∨ size < k ∨ (data ++ List.replicate k (UInt8.ofNat k)).length < k) := by
    simp only [List.length_append, List.length_replicate]
    omega
  simp only [pkcs7Unpad, hlast, halign, hnat, hlength, List.drop_left, List.take_left, hall,
    ne_eq, not_true_eq_false, if_false, if_true, if_neg hbounds]

/-- The number of padding bytes is determined by the data and the block size. -/
theorem pkcs7Pad_of_padded {size : ℕ} {data padded : Bytes} (h : Padded size data padded) :
    padded = pkcs7Pad data size := by
  obtain ⟨k, hpos, hle, -, hmod, rfl⟩ := h
  have hk : k = size - data.length % size := by
    have hlt : data.length % size < size := Nat.mod_lt _ (by omega)
    by_cases hfull : k = size
    · rw [hfull, Nat.add_mod_right] at hmod
      omega
    · have hsplit : (data.length % size + k) % size = 0 := by
        rw [Nat.mod_add_mod]
        exact hmod
      by_cases hsmall : data.length % size + k < size
      · rw [Nat.mod_eq_of_lt hsmall] at hsplit
        omega
      · have hrest : data.length % size + k - size < size := by omega
        rw [Nat.mod_eq_sub_mod (by omega), Nat.mod_eq_of_lt hrest] at hsplit
        omega
  rw [pkcs7Pad, ← hk]

/-- Data that is accepted ends in as many copies of its last byte as that byte
says, and never in more of them than a block holds. -/
theorem padded_of_pkcs7Unpad {size : ℕ} {data padded : Bytes}
    (h : pkcs7Unpad padded size = .ok data) : Padded size data padded := by
  unfold pkcs7Unpad at h
  split at h
  · cases h
  · next last hlast =>
    by_cases halign : padded.length % size ≠ 0
    · rw [if_pos halign] at h
      cases h
    rw [if_neg halign] at h
    dsimp only at h
    by_cases hbounds : last.toNat = 0 ∨ size < last.toNat ∨ padded.length < last.toNat
    · rw [if_pos hbounds] at h
      cases h
    rw [if_neg hbounds] at h
    split at h
    · next hall =>
      have hdata : padded.take (padded.length - last.toNat) = data := Except.ok.inj h
      have htail : padded.drop (padded.length - last.toNat) =
          List.replicate last.toNat (UInt8.ofNat last.toNat) := by
        apply List.eq_replicate_iff.mpr
        constructor
        · rw [List.length_drop]
          omega
        · intro b hb
          have hbyte : b.toNat = last.toNat := by
            simpa using List.all_eq_true.mp hall b hb
          rw [← hbyte, UInt8.ofNat_toNat]
      have hlen : data.length = padded.length - last.toNat := by
        rw [← hdata, List.length_take]
        omega
      refine ⟨last.toNat, by omega, by omega, last.toNat_lt, ?_, ?_⟩
      · have hsum : data.length + last.toNat = padded.length := by omega
        rw [hsum]
        omega
      · rw [← htail, ← hdata, List.take_append_drop]
    · cases h

/-- Removing padding succeeds on padded data and on nothing else, and padded
data fills one block or more. -/
theorem padding_exact (size : ℕ) (hpos : 1 ≤ size) (hsize : size ≤ 255) (data : Bytes) :
    pkcs7Unpad (pkcs7Pad data size) size = .ok data ∧
    (∀ padded, pkcs7Unpad padded size = .ok data ↔ padded = pkcs7Pad data size) ∧
    ∃ blocks, 0 < blocks ∧ (pkcs7Pad data size).length = blocks * size := by
  have hpadded : Padded size data (pkcs7Pad data size) :=
    pkcs7Pad_padded data (by omega) (by omega)
  refine ⟨pkcs7Unpad_padded hpadded, ?_, ?_⟩
  · intro padded
    constructor
    · intro h
      exact pkcs7Pad_of_padded (padded_of_pkcs7Unpad h)
    · intro h
      rw [h]
      exact pkcs7Unpad_padded hpadded
  · obtain ⟨hnonempty, halign⟩ := hpadded.length
    obtain ⟨blocks, hblocks⟩ := Nat.dvd_of_mod_eq_zero halign
    refine ⟨blocks, ?_, ?_⟩
    · by_contra hzero
      have hlen : (pkcs7Pad data size).length = 0 := by
        rw [hblocks, Nat.eq_zero_of_not_pos hzero, Nat.mul_zero]
      exact hnonempty (List.eq_nil_of_length_eq_zero hlen)
    · rw [hblocks, Nat.mul_comm]

/-- A full block of data takes a whole block of padding. -/
theorem padding_exact_full :
    (1 ≤ 4 ∧ 4 ≤ 255) ∧ pkcs7Unpad [1, 2, 3, 4, 4, 4, 4, 4] 4 = .ok [1, 2, 3, 4] :=
  ⟨by decide, ((padding_exact 4 (by decide) (by decide) [1, 2, 3, 4]).2.1 _).mpr rfl⟩

theorem ecbLoop_blocks {size n : ℕ} (crypt : Bytes → Bytes) {blocks : List Bytes}
    (hpos : 0 < size) (h : Blocks size blocks) (hn : blocks.length ≤ n) :
    ecbLoop size crypt n blocks.flatten = .ok (blocks.map crypt).flatten := by
  induction blocks generalizing n with
  | nil =>
    cases n with
    | zero => rfl
    | succ n => rfl
  | cons b bs ih =>
    cases n with
    | zero => simp at hn
    | succ n =>
      have hlen := h.head
      have hnonempty : ¬(b ++ bs.flatten).length = 0 := by
        rw [List.length_append]
        omega
      have hfits : size ≤ (b ++ bs.flatten).length := by
        rw [List.length_append]
        omega
      have hrest := ih h.tail (n := n) (by simpa using hn)
      rw [List.flatten_cons, ecbLoop, if_neg hnonempty, sliceTo, if_pos hfits,
        List.take_left' hlen, List.drop_left' hlen, hrest]
      rfl

theorem ecbCrypt_blocks {size : ℕ} (crypt : Bytes → Bytes) {blocks : List Bytes}
    (hpos : 0 < size) (h : Blocks size blocks) :
    ecbLoop size crypt blocks.flatten.length blocks.flatten = .ok (blocks.map crypt).flatten := by
  apply ecbLoop_blocks crypt hpos h
  rw [h.length_flatten]
  exact Nat.le_mul_of_pos_right _ hpos

/-- One round trip through a block cipher in a mode that can be undone. -/
def Undoes (src : Bytes) (encrypt decrypt : Bytes → Except Fault Bytes) : Prop :=
  ∃ out, encrypt src = .ok out ∧ out.length = src.length ∧ decrypt out = .ok src

theorem ecbDecrypt_ecbEncrypt (c : BlockCipher) {src : Bytes}
    (h : src.length % c.blockSize = 0) : Undoes src (ecbEncrypt c) (ecbDecrypt c) := by
  obtain ⟨blocks, hblocks, rfl⟩ := blocks_of_aligned h
  have hout := hblocks.map c.length_encrypt
  refine ⟨_, ecbCrypt_blocks c.encrypt c.blockSize_pos hblocks, ?_, ?_⟩
  · exact map_flatten_length hblocks c.length_encrypt
  · rw [ecbDecrypt, ecbCrypt_blocks c.decrypt c.blockSize_pos hout, map_decrypt_encrypt c hblocks]

theorem cbcDecryptBlocks_cbcEncryptBlocks (c : BlockCipher) {iv src : Bytes}
    (hiv : iv.length = c.blockSize) (h : src.length % c.blockSize = 0) :
    Undoes src (cbcEncryptBlocks c iv) (cbcDecryptBlocks c iv) := by
  have hlen := length_cbcEncrypt c hiv h
  refine ⟨cbcEncrypt c iv src, ?_, hlen, ?_⟩
  · rw [cbcEncryptBlocks, if_neg (not_not.mpr hiv), if_neg (not_not.mpr h)]
  · rw [cbcDecryptBlocks, if_neg (not_not.mpr hiv), hlen, if_neg (not_not.mpr h),
      cbcDecrypt_cbcEncrypt c hiv h]

/-- Key, initial vector and block size fit the algorithm and the mode. -/
structure Params.Fits (p : Params) : Prop where
  key : p.key.length = match p.algorithm with | .des => 8 | .aes => 32
  blockSize : p.blockSize = match p.algorithm with | .des => 8 | .aes => 16
  iv : p.mode = .cbc → p.iv.length = p.blockSize

theorem sliceTo_ok {data : Bytes} {n : ℕ} (h : n ≤ data.length) :
    sliceTo data n = .ok (data.take n) := by
  rw [sliceTo, if_pos h]

/-- The thirty-two digits of a digest suffice for every key and every vector. -/
theorem paramsWithEncoder_fits (x : Primitives) (b : BFF) (timestamp : Int64) (encoder : Encoder) :
    ∃ p, b.paramsWithEncoder x timestamp encoder = .ok p ∧ p.encoder = encoder ∧ p.Fits := by
  rw [BFF.paramsWithEncoder]
  dsimp only
  generalize (if b.aesKey.head?.any isOdd then Algorithm.aes else Algorithm.des) = algorithm
  generalize (if b.appID.getLast?.any isOdd then Mode.cbc else Mode.ecb) = mode
  generalize hmaterial : hexEncode (x.md5 _) = material
  have hlen : material.length = 32 := by rw [← hmaterial, length_hexEncode, x.length_md5]
  have hslice : ∀ n ≤ 32, sliceTo material n = .ok (material.take n) := by
    intro n hn
    exact sliceTo_ok (by omega)
  have htake : ∀ n ≤ 32, (material.take n).length = n := by
    intro n hn
    rw [List.length_take, hlen, Nat.min_eq_left hn]
  have h8 := hslice 8 (by omega)
  have h16 := hslice 16 (by omega)
  have h32 := hslice 32 (by omega)
  cases algorithm with
  | des =>
    cases mode with
    | ecb =>
      simp only [h8, reduceCtorEq, if_false, if_true]
      exact ⟨_, rfl, rfl, ⟨htake 8 (by omega), rfl, fun h => by cases h⟩⟩
    | cbc =>
      simp only [h8, reduceCtorEq, if_false]
      exact ⟨_, rfl, rfl, ⟨htake 8 (by omega), rfl, fun _ => htake 8 (by omega)⟩⟩
  | aes =>
    cases mode with
    | ecb =>
      simp only [h32, if_true]
      exact ⟨_, rfl, rfl, ⟨htake 32 (by omega), rfl, fun h => by cases h⟩⟩
    | cbc =>
      simp only [h16, h32, reduceCtorEq, if_false, if_true]
      exact ⟨_, rfl, rfl, ⟨htake 32 (by omega), rfl, fun _ => htake 16 (by omega)⟩⟩

theorem newBlock_fits (x : Primitives) {p : Params} (h : p.Fits) :
    ∃ c, x.newBlock p = .ok c ∧ c.blockSize = p.blockSize := by
  have hkey := h.key
  have hblock := h.blockSize
  cases halg : p.algorithm with
  | des =>
    rw [halg] at hkey hblock
    refine ⟨x.des p.key, ?_, (x.des_blockSize _).trans hblock.symm⟩
    rw [Primitives.newBlock, halg]
    simp only [Primitives.newDES, hkey, if_true]
  | aes =>
    rw [halg] at hkey hblock
    refine ⟨x.aes p.key, ?_, (x.aes_blockSize _).trans hblock.symm⟩
    rw [Primitives.newBlock, halg]
    simp only [Primitives.newAES, hkey, or_true, if_true]

theorem Params.Fits.blockSize_range {p : Params} (h : p.Fits) :
    0 < p.blockSize ∧ p.blockSize < 256 := by
  have hblock := h.blockSize
  cases halg : p.algorithm with
  | des =>
    simp only [halg] at hblock
    omega
  | aes =>
    simp only [halg] at hblock
    omega

/-- A map of strings as the encoder sees it; a map that was never made is null. -/
def jsonOf {Number : Type} : Option (StrMap String) → JSONValue Number
  | none => .null
  | some m => .object (m.toList.map fun (k, v) => (k, .string v))

/-- The codec writes visible text for the map and reads the same map back. -/
def Primitives.RoundTrips (x : Primitives) (m : Option (StrMap String)) : Prop :=
  ∃ text, x.marshal (jsonOf m) = .ok text ∧
    (∃ b ∈ text.head?, Visible b) ∧ (∃ b ∈ text.getLast?, Visible b) ∧
    x.unmarshal text = .ok ((m.getD ∅).map fun _ v => .string v)

theorem Primitives.RoundTrips.readFields {x : Primitives} {m : Option (StrMap String)}
    (h : x.RoundTrips m) :
    ∃ text, x.marshalJSON (jsonOf m) = .ok text ∧ x.readFields text = .ok (m.getD ∅) := by
  obtain ⟨text, hmarshal, hfirst, hlast, hunmarshal⟩ := h
  refine ⟨text, ?_, ?_⟩
  · rw [Primitives.marshalJSON, hmarshal]
    rfl
  · rw [Primitives.readFields, bytesTrimSpace_visible hfirst hlast, hunmarshal]
    have hprint : ((m.getD ∅).map fun _ v => JSONValue.string v).map
        (fun _ v => JSONValue.sprint x.showNumber v) = m.getD ∅ := by
      rw [Std.ExtTreeMap.map_map]
      simp only [JSONValue.sprint]
      exact Std.ExtTreeMap.map_id
    exact congrArg Except.ok hprint

theorem encryptBlocks_undoes {p : Params} (h : p.Fits) {c : BlockCipher}
    (hc : c.blockSize = p.blockSize) {src : Bytes} (hsrc : src.length % p.blockSize = 0) :
    Undoes src (encryptBlocks p c) (decryptBlocks p c) := by
  rw [← hc] at hsrc
  unfold encryptBlocks decryptBlocks
  cases hmode : p.mode with
  | ecb => exact ecbDecrypt_ecbEncrypt c hsrc
  | cbc => exact cbcDecryptBlocks_cbcEncryptBlocks c ((h.iv hmode).trans hc.symm) hsrc

theorem Encoder.decode_encode (e : Encoder) (data : Bytes) :
    e.decode (e.encode data) = .ok data := by
  cases e with
  | hex => exact hexDecode_hexEncode data
  | base64 => exact base64Decode_base64Encode data

/-- What the parameters seal, the same parameters open. -/
theorem decryptDataWithParams_sealed (x : Primitives) {p : Params} (hp : p.Fits) {c : BlockCipher}
    (hc : x.newBlock p = .ok c) (hsize : c.blockSize = p.blockSize) {plain : Bytes}
    {fields : StrMap String} (hfields : x.readFields plain = .ok fields) :
    ∃ encrypted, encryptBlocks p c (pkcs7Pad plain p.blockSize) = .ok encrypted ∧
      decryptDataWithParams x (p.encoder.encode encrypted) p = .ok fields := by
  have hrange := hp.blockSize_range
  have hpadded := pkcs7Pad_padded plain hrange.1 hrange.2
  obtain ⟨out, hencrypt, hlen, hdecrypt⟩ := encryptBlocks_undoes hp hsize hpadded.length.2
  refine ⟨out, hencrypt, ?_⟩
  have haligned : ¬out.length % p.blockSize ≠ 0 := by rw [hlen, hpadded.length.2]; simp
  rw [decryptDataWithParams, p.encoder.decode_encode, hc]
  simp only [Except.mapError, bind, Except.bind, haligned, if_false, hdecrypt,
    pkcs7Unpad_padded hpadded, hfields]

theorem restorePlus_base64Encode (data : Bytes) :
    restorePlus (base64Encode data) = base64Encode data := by
  have hid : ∀ b ∈ base64Encode data, (if b = 32 then 43 else b) = b := by
    intro b hb
    have hne : b ≠ 32 := by
      rintro rfl
      exact absurd (base64Encode_printable data _ hb) (by decide)
    rw [if_neg hne]
  rw [restorePlus, List.map_congr_left hid, List.map_id']

/-- Outside the account center sealing always succeeds, and opening undoes it. -/
theorem decryptData_encryptData (x : Primitives) (b : BFF) (timestamp : Int64)
    {obj : JSONValue x.Number} {plain : Bytes} {fields : StrMap String}
    (hplain : x.marshalJSON obj = .ok plain) (hfields : x.readFields plain = .ok fields)
    (hother : b.isAccountCenter = false) :
    ∃ value, b.encryptData x obj timestamp = .ok value ∧
      b.decryptData x value timestamp = .ok fields := by
  obtain ⟨p, hparams, -, hp⟩ : ∃ p, b.params x timestamp = .ok p ∧ _ ∧ p.Fits :=
    paramsWithEncoder_fits x b timestamp _
  obtain ⟨c, hc, hsize⟩ := newBlock_fits x hp
  obtain ⟨encrypted, hencrypt, hdecrypt⟩ := decryptDataWithParams_sealed x hp hc hsize hfields
  refine ⟨p.encoder.encode encrypted, ?_, ?_⟩
  · rw [BFF.encryptData, hother]
    simp only [Bool.false_eq_true, if_false, hparams, hplain, bind, Except.bind, hc, hencrypt,
      pure, Except.pure]
  · rw [BFF.decryptData, hother]
    simp only [Bool.false_eq_true, if_false, hparams, bind, Except.bind, hdecrypt]

theorem newAES_ok (x : Primitives) {key : Bytes}
    (h : key.length = 16 ∨ key.length = 24 ∨ key.length = 32) :
    x.newAES key = .ok (x.aes key) := by
  rw [Primitives.newAES, if_pos h]

/-- The account center seals with a key of legal length, and opening undoes it. -/
theorem decryptData_accountCenter (x : Primitives) (b : BFF) (timestamp : Int64)
    {obj : JSONValue x.Number} {plain : Bytes} {fields : StrMap String}
    (hplain : x.marshalJSON obj = .ok plain) (hfields : x.readFields plain = .ok fields)
    (hcenter : b.isAccountCenter = true)
    (hkey : b.aesKey.length = 16 ∨ b.aesKey.length = 24 ∨ b.aesKey.length = 32) :
    ∃ value, b.encryptData x obj timestamp = .ok value ∧
      b.decryptData x value timestamp = .ok fields := by
  have hsize : (x.aes b.aesKey).blockSize = 16 := x.aes_blockSize _
  have hslice : sliceTo b.aesKey 16 = .ok (b.aesKey.take 16) := sliceTo_ok (by omega)
  have hiv : (b.aesKey.take 16).length = (x.aes b.aesKey).blockSize := by
    rw [List.length_take, hsize]
    omega
  have hpadded := @pkcs7Pad_padded plain 16 (by omega) (by omega)
  obtain ⟨out, hencrypt, hlen, hdecrypt⟩ := cbcDecryptBlocks_cbcEncryptBlocks (x.aes b.aesKey)
    hiv (by rw [hsize]; exact hpadded.length.2)
  have haligned : ¬out.length % 16 ≠ 0 := by rw [hlen, hpadded.length.2]; simp
  refine ⟨base64Encode out, ?_, ?_⟩
  · rw [BFF.encryptData, hcenter, if_pos rfl, BFF.encryptAccountCenterData, hplain,
      newAES_ok x hkey]
    simp only [bind, Except.bind, hsize, hslice, hencrypt, pure, Except.pure]
  · rw [BFF.decryptData, hcenter, if_pos rfl, BFF.decryptAccountCenterData,
      restorePlus_base64Encode, base64Decode_base64Encode, newAES_ok x hkey]
    simp only [Except.mapError, bind, Except.bind, hsize, haligned, if_false, hslice, hdecrypt,
      pkcs7Unpad_padded hpadded, hfields]

theorem encryptData_badKey (x : Primitives) (b : BFF) (timestamp : Int64)
    {obj : JSONValue x.Number} {plain : Bytes} (hplain : x.marshalJSON obj = .ok plain)
    (hcenter : b.isAccountCenter = true)
    (hkey : ¬(b.aesKey.length = 16 ∨ b.aesKey.length = 24 ∨ b.aesKey.length = 32)) :
    b.encryptData x obj timestamp = .error (.keySize .aes b.aesKey.length) := by
  rw [BFF.encryptData, hcenter, if_pos rfl, BFF.encryptAccountCenterData, hplain,
    Primitives.newAES, if_neg hkey]
  rfl

/-- Whatever was sealed, opening reads the text that was sealed. Sealing fails
for nothing but an account center key of a length the cipher does not take. -/
theorem sealed_cases (x : Primitives) (b : BFF) (timestamp : Int64)
    {obj : JSONValue x.Number} {plain : Bytes} {fields : StrMap String}
    (hplain : x.marshalJSON obj = .ok plain) (hfields : x.readFields plain = .ok fields) :
    (∃ value, b.encryptData x obj timestamp = .ok value ∧
      b.decryptData x value timestamp = .ok fields) ∨
    ∃ e, b.encryptData x obj timestamp = .error e ∧ b.appID = accountCenterID ∧
      b.aesKey.length ≠ 16 ∧ b.aesKey.length ≠ 24 ∧ b.aesKey.length ≠ 32 := by
  cases hcenter : b.isAccountCenter with
  | false => exact Or.inl (decryptData_encryptData x b timestamp hplain hfields hcenter)
  | true =>
    have hid : b.appID = accountCenterID := by simpa [BFF.isAccountCenter] using hcenter
    by_cases hkey : b.aesKey.length = 16 ∨ b.aesKey.length = 24 ∨ b.aesKey.length = 32
    · exact Or.inl (decryptData_accountCenter x b timestamp hplain hfields hcenter hkey)
    · exact Or.inr ⟨_, encryptData_badKey x b timestamp hplain hcenter hkey, hid, by omega,
        by omega, by omega⟩

/-- What was sealed opens to the fields that its text is read as. -/
theorem decryptData_of_sealed {x : Primitives} {b : BFF} {timestamp : Int64}
    {obj : JSONValue x.Number} {plain value : Bytes} {fields : StrMap String}
    (hplain : x.marshalJSON obj = .ok plain) (hfields : x.readFields plain = .ok fields)
    (hsealed : b.encryptData x obj timestamp = .ok value) :
    b.decryptData x value timestamp = .ok fields := by
  rcases sealed_cases x b timestamp hplain hfields with
    ⟨value', hencrypt, hdecrypt⟩ | ⟨e, hencrypt, -⟩
  · rw [hencrypt] at hsealed
    cases hsealed
    exact hdecrypt
  · rw [hencrypt] at hsealed
    cases hsealed

/-- Only what the encoder writes is sealed. -/
theorem marshalJSON_of_sealed {x : Primitives} {b : BFF} {timestamp : Int64}
    {obj : JSONValue x.Number} {value : Bytes} (h : b.encryptData x obj timestamp = .ok value) :
    ∃ plain, x.marshalJSON obj = .ok plain := by
  cases hplain : x.marshalJSON obj with
  | ok plain => exact ⟨plain, rfl⟩
  | error e =>
    rw [BFF.encryptData] at h
    split at h
    · rw [BFF.encryptAccountCenterData, hplain] at h
      cases h
    · obtain ⟨p, hparams, -, -⟩ : ∃ p, b.params x timestamp = .ok p ∧ _ ∧ p.Fits :=
        paramsWithEncoder_fits x b timestamp _
      rw [hparams, hplain] at h
      cases h

/-- Opening returns the map that was sealed, and sealing fails for nothing but
an account center key of a length the cipher does not take. -/
theorem envelope_round_trip (x : Primitives) (b : BFF) (timestamp : Int64)
    (m : Option (StrMap String)) (hjson : x.RoundTrips m) :
    (∀ value, b.encryptData x (jsonOf m) timestamp = .ok value →
      b.decryptData x value timestamp = .ok (m.getD ∅)) ∧
    (∀ e, b.encryptData x (jsonOf m) timestamp = .error e →
      b.appID = accountCenterID ∧
        b.aesKey.length ≠ 16 ∧ b.aesKey.length ≠ 24 ∧ b.aesKey.length ≠ 32) := by
  obtain ⟨plain, hplain, hfields⟩ := hjson.readFields
  rcases sealed_cases x b timestamp hplain hfields with
    ⟨value, hencrypt, hdecrypt⟩ | ⟨e, hencrypt, hcenter⟩
  · rw [hencrypt]
    constructor
    · rintro _ ⟨⟩
      exact hdecrypt
    · intro e h
      cases h
  · rw [hencrypt]
    constructor
    · intro value h
      cases h
    · intro e' _
      exact hcenter

/-- The cipher that exchanges two blocks and keeps every other. -/
def swapCipher (size : ℕ) (hpos : 0 < size) (a b : Bytes) (ha : a.length = size)
    (hb : b.length = size) : BlockCipher where
  blockSize := size
  encrypt block := if block = a then b else if block = b then a else block
  decrypt block := if block = a then b else if block = b then a else block
  blockSize_pos := hpos
  length_encrypt := by
    intro block h
    split_ifs <;> assumption
  length_decrypt := by
    intro block h
    split_ifs <;> assumption
  decrypt_encrypt := by
    intro block _
    split_ifs <;> simp_all

/-- The digest, the cipher block and the JSON text of one recorded exchange. -/
def recorded : Primitives where
  md5 _ := [178, 144, 104, 180, 231, 173, 41, 211, 112, 150, 184, 56, 196, 129, 99, 254]
  length_md5 _ := rfl
  des _ := swapCipher 8 (by decide) (List.replicate 8 0) (List.replicate 8 0) rfl rfl
  des_blockSize _ := rfl
  aes _ := swapCipher 16 (by decide)
    [25, 16, 88, 18, 12, 26, 83, 22, 24, 48, 102, 99, 53, 62, 99, 52]
    [155, 177, 100, 241, 51, 73, 68, 122, 75, 4, 130, 247, 79, 14, 145, 191] rfl rfl
  aes_blockSize _ := rfl
  Number := ℕ
  showNumber := toString
  marshal _ := .ok (bytesOf "\x7b\"a\":\"1\"\x7d")
  unmarshal text :=
    if text = bytesOf "\x7b\"a\":\"1\"\x7d" then .ok ((∅ : StrMap _).insert "a" (.string "1"))
    else .error "unexpected end of JSON input"

def recordedFields : StrMap String := (∅ : StrMap String).insert "a" "1"

def recordedApp : BFF := ⟨bytesOf "1010001", bytesOf "key", bytesOf "abc"⟩

theorem recorded_roundTrips : recorded.RoundTrips (some recordedFields) := by
  refine ⟨bytesOf "\x7b\"a\":\"1\"\x7d", rfl, by decide, by decide, ?_⟩
  rfl

theorem recorded_exchange :
    recordedApp.encryptData recorded (jsonOf (some recordedFields)) 1700000001 =
        .ok (bytesOf "m7Fk8TNJRHpLBIL3Tw6Rvw==") ∧
      recordedApp.decryptData recorded (bytesOf "m7Fk8TNJRHpLBIL3Tw6Rvw==") 1700000001 =
        .ok recordedFields := by
  have hsealed : recordedApp.encryptData recorded (jsonOf (some recordedFields)) 1700000001 =
      .ok (bytesOf "m7Fk8TNJRHpLBIL3Tw6Rvw==") := by decide +kernel
  exact ⟨hsealed, (envelope_round_trip recorded recordedApp 1700000001 (some recordedFields)
    recorded_roundTrips).1 _ hsealed⟩

end PapeSdk
