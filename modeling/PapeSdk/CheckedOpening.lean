import PapeSdk.EnvelopeRoundTrip

/-!
Opening an envelope with every check of the language written out. An index, a
slice, a remainder and a call of a cipher each panic where their operands do
not fit; all of these are explicit here, over integers that may be negative
and over buffers written in place. No input reaches a panic, and the answers
are those of the plain functions.
-/

namespace PapeSdk.Checked

open BlockModes TextCodecs

def index (data : Bytes) (i : ℤ) : Except Fault UInt8 :=
  if 0 ≤ i then
    match data[i.toNat]? with
    | some b => .ok b
    | none => .error (.panic "index out of range")
  else .error (.panic "index out of range")

/-- A slice may reach past its length up to its capacity. The length is the
bound here, so that a slice allowed here is allowed by the language. -/
def sliceTo (data : Bytes) (i : ℤ) : Except Fault Bytes :=
  if 0 ≤ i ∧ i ≤ data.length then .ok (data.take i.toNat)
  else .error (.panic "slice bounds out of range")

def sliceFrom (data : Bytes) (i : ℤ) : Except Fault Bytes :=
  if 0 ≤ i ∧ i ≤ data.length then .ok (data.drop i.toNat)
  else .error (.panic "slice bounds out of range")

def remainder (a b : ℤ) : Except Fault ℤ :=
  if b = 0 then .error (.panic "integer divide by zero") else .ok (a.tmod b)

/-- One block of the source, written over the front of the destination. -/
def decryptBlock (block : BlockCipher) (dst src : Bytes) : Except Fault Bytes :=
  if src.length < block.blockSize then .error (.panic "input not full block")
  else if dst.length < block.blockSize then .error (.panic "output not full block")
  else .ok (block.decrypt (src.take block.blockSize) ++ dst.drop block.blockSize)

/-- The chained mode of the standard library, written over the destination. -/
def cryptBlocks (block : BlockCipher) (iv dst src : Bytes) : Except Fault Bytes :=
  if iv.length ≠ block.blockSize then
    .error (.panic "cipher.NewCBCDecrypter: IV length must equal block size")
  else if src.length % block.blockSize ≠ 0 then
    .error (.panic "crypto/cipher: input not full blocks")
  else if dst.length < src.length then
    .error (.panic "crypto/cipher: output smaller than input")
  else .ok (cbcDecrypt block iv src ++ dst.drop src.length)

/-- Whether the byte at the index is odd, asked of a string that has bytes. -/
def oddAt (data : Bytes) (i : ℤ) : Except Fault Bool :=
  if 0 < data.length then do
    let b ← index data i
    return isOdd b
  else .ok false

def paramsWithEncoder (x : Primitives) (b : BFF) (timestamp : Int64) (encoder : Encoder) :
    Except Fault Params := do
  let algorithm := if ← oddAt b.aesKey 0 then Algorithm.aes else Algorithm.des
  let mode := if ← oddAt b.appID (b.appID.length - 1) then Mode.cbc else Mode.ecb
  let src := (bytesOf "#").intercalate
    [b.aesKey, bytesOf algorithm.text, bytesOf mode.text, bytesOf "PKCS7Padding",
      bytesOf encoder.text, b.appID, bytesOf (toString timestamp)]
  let material := hexEncode (x.md5 src)
  let keySize := if algorithm = .aes then 32 else 8
  let blockSize := if algorithm = .aes then 16 else 8
  let key ← sliceTo material keySize
  let iv ← if mode = .ecb then .ok [] else sliceTo material blockSize
  return { algorithm, mode, encoder, key, iv, blockSize := blockSize.toNat }

/-- Block after block, until the source is used up. Running out of rounds
counts as a panic, so that the loop ends where there is none. -/
def ecbDecrypt (block : BlockCipher) : ℕ → Bytes → Bytes → Except Fault Bytes
  | 0, _, _ => .error (.panic "rounds")
  | n + 1, dst, src =>
    if src.length = 0 then .ok dst
    else do
      let out ← sliceTo dst block.blockSize
      let input ← sliceTo src block.blockSize
      let written ← decryptBlock block out input
      let src ← sliceFrom src block.blockSize
      let dst ← sliceFrom dst block.blockSize
      let rest ← ecbDecrypt block n dst src
      return written ++ rest

def decryptBlocks (p : Params) (block : BlockCipher) (dst src : Bytes) : Except Fault Bytes :=
  match p.mode with
  | .ecb => ecbDecrypt block (src.length + 1) dst src
  | .cbc => cryptBlocks block p.iv dst src

def pkcs7Unpad (data : Bytes) (size : ℤ) : Except Fault Bytes :=
  if data.length = 0 then .error (.message "invalid pkcs7 data")
  else do
    let excess ← remainder data.length size
    if excess ≠ 0 then .error (.message "invalid pkcs7 data")
    else do
      let last ← index data (data.length - 1)
      let pad : ℤ := last.toNat
      if pad = 0 ∨ size < pad ∨ data.length < pad then
        .error (.message "invalid pkcs7 padding")
      else do
        let tail ← sliceFrom data (data.length - pad)
        if tail.all (fun b => (b.toNat : ℤ) == pad) then sliceTo data (data.length - pad)
        else .error (.message "invalid pkcs7 padding")

def decryptAccountCenterData (x : Primitives) (b : BFF) (value : Bytes) :
    Except Fault (StrMap String) := do
  let encrypted ← (base64Decode (restorePlus value)).mapError Fault.decode
  let block ← x.newAES b.aesKey
  let excess ← remainder encrypted.length block.blockSize
  if excess ≠ 0 then throw (.message "encrypted data is not block aligned")
  let iv ← sliceTo b.aesKey block.blockSize
  let padded ← cryptBlocks block iv (List.replicate encrypted.length 0) encrypted
  let plain ← pkcs7Unpad padded block.blockSize
  x.readFields plain

def decryptDataWithParams (x : Primitives) (value : Bytes) (p : Params) :
    Except Fault (StrMap String) := do
  let encrypted ← (p.encoder.decode value).mapError Fault.decode
  let block ← x.newBlock p
  let excess ← remainder encrypted.length p.blockSize
  if excess ≠ 0 then throw (.message "encrypted data is not block aligned")
  let padded ← decryptBlocks p block (List.replicate encrypted.length 0) encrypted
  let plain ← pkcs7Unpad padded p.blockSize
  x.readFields plain

/-- A panic ends the call; any other error is answered by a second attempt. -/
def decryptData (x : Primitives) (b : BFF) (value : Bytes) (timestamp : Int64) :
    Except Fault (StrMap String) :=
  if b.isAccountCenter then decryptAccountCenterData x b value
  else do
    let encoder := if (timestamp % 10) &&& 1 == 1 then Encoder.base64 else Encoder.hex
    let p ← paramsWithEncoder x b timestamp encoder
    match decryptDataWithParams x value p with
    | .ok out => .ok out
    | .error (.panic text) => .error (.panic text)
    | .error e =>
      let alt ← paramsWithEncoder x b timestamp p.encoder.other
      match decryptDataWithParams x value alt with
      | .ok out => .ok out
      | .error (.panic text) => .error (.panic text)
      | .error _ => .error e

theorem sliceTo_le {data : Bytes} {n : ℕ} (h : n ≤ data.length) :
    sliceTo data n = .ok (data.take n) := by
  rw [sliceTo, if_pos ⟨by omega, by omega⟩, Int.toNat_natCast]

theorem sliceFrom_le {data : Bytes} {n : ℕ} (h : n ≤ data.length) :
    sliceFrom data n = .ok (data.drop n) := by
  rw [sliceFrom, if_pos ⟨by omega, by omega⟩, Int.toNat_natCast]

theorem remainder_pos (a : ℕ) {b : ℕ} (h : 0 < b) : remainder a b = .ok (a % b : ℕ) := by
  rw [remainder, if_neg (by omega)]
  rfl

theorem oddAt_first (data : Bytes) : oddAt data 0 = .ok (data.head?.any isOdd) := by
  cases data with
  | nil => rfl
  | cons b rest => rfl

theorem index_last {data : Bytes} {b : UInt8} (h : data.getLast? = some b) :
    index data (data.length - 1) = .ok b := by
  have hne : data ≠ [] := by
    intro hnil
    rw [hnil] at h
    cases h
  have hlen : 0 < data.length := List.length_pos_iff.mpr hne
  have hindex : ((data.length : ℤ) - 1).toNat = data.length - 1 := by omega
  rw [List.getLast?_eq_getElem?] at h
  rw [index, if_pos (by omega), hindex, h]

theorem oddAt_last (data : Bytes) :
    oddAt data (data.length - 1) = .ok (data.getLast?.any isOdd) := by
  cases hlast : data.getLast? with
  | none =>
    rw [List.getLast?_eq_none_iff.mp hlast]
    rfl
  | some b =>
    have hlen : 0 < data.length := by
      by_contra hzero
      have hnil : data = [] := List.eq_nil_of_length_eq_zero (by omega)
      rw [hnil] at hlast
      cases hlast
    rw [oddAt, if_pos hlen, index_last hlast]
    rfl

/-- The digest is long enough for every slice that is cut from it. -/
theorem paramsWithEncoder_eq (x : Primitives) (b : BFF) (timestamp : Int64) (encoder : Encoder) :
    paramsWithEncoder x b timestamp encoder = b.paramsWithEncoder x timestamp encoder := by
  rw [paramsWithEncoder, oddAt_first, oddAt_last, BFF.paramsWithEncoder]
  simp only [bind, Except.bind]
  generalize (if b.aesKey.head?.any isOdd then Algorithm.aes else Algorithm.des) = algorithm
  generalize (if b.appID.getLast?.any isOdd then Mode.cbc else Mode.ecb) = mode
  generalize hmaterial : hexEncode (x.md5 _) = material
  have hlen : material.length = 32 := by rw [← hmaterial, length_hexEncode, x.length_md5]
  have h8 : sliceTo material 8 = PapeSdk.sliceTo material 8 := by
    rw [sliceTo_ok (by omega)]
    exact @sliceTo_le material 8 (by omega)
  have h16 : sliceTo material 16 = PapeSdk.sliceTo material 16 := by
    rw [sliceTo_ok (by omega)]
    exact @sliceTo_le material 16 (by omega)
  have h32 : sliceTo material 32 = PapeSdk.sliceTo material 32 := by
    rw [sliceTo_ok (by omega)]
    exact @sliceTo_le material 32 (by omega)
  cases algorithm with
  | des =>
    simp only [reduceCtorEq, if_false, h8]
    rfl
  | aes =>
    simp only [if_true, h16, h32]
    rfl

theorem decryptBlock_ok (c : BlockCipher) {dst src : Bytes} (hdst : dst.length = c.blockSize)
    (hsrc : src.length = c.blockSize) : decryptBlock c dst src = .ok (c.decrypt src) := by
  have hdrop : dst.drop c.blockSize = [] := List.drop_eq_nil_of_le (by omega)
  have htake : src.take c.blockSize = src := List.take_of_length_le (by omega)
  rw [decryptBlock, if_neg (by omega), if_neg (by omega), hdrop, htake, List.append_nil]

/-- Whole blocks are opened one by one while the destination has as much room. -/
theorem ecbDecrypt_blocks (c : BlockCipher) {n : ℕ} {blocks : List Bytes} {dst : Bytes}
    (h : Blocks c.blockSize blocks) (hdst : dst.length = blocks.flatten.length)
    (hn : blocks.length < n) :
    ecbDecrypt c n dst blocks.flatten = .ok (blocks.map c.decrypt).flatten := by
  induction blocks generalizing n dst with
  | nil =>
    cases n with
    | zero => omega
    | succ n =>
      have hnil : dst = [] := List.eq_nil_of_length_eq_zero hdst
      rw [hnil]
      rfl
  | cons b bs ih =>
    cases n with
    | zero => omega
    | succ n =>
      have hpos := c.blockSize_pos
      have hb : b.length = c.blockSize := h.head
      have hlen : (b ++ bs.flatten).length = c.blockSize + bs.flatten.length := by
        rw [List.length_append, hb]
      rw [List.flatten_cons] at hdst ⊢
      have hout : (dst.take c.blockSize).length = c.blockSize := by
        rw [List.length_take]
        omega
      have hrest : (dst.drop c.blockSize).length = bs.flatten.length := by
        rw [List.length_drop]
        omega
      have hcount : bs.length < n := by
        rw [List.length_cons] at hn
        omega
      have htail := ih h.tail hrest hcount
      rw [ecbDecrypt, if_neg (by omega), sliceTo_le (by omega), sliceTo_le (by omega),
        List.take_left' hb]
      simp only [bind, Except.bind]
      rw [decryptBlock_ok c hout hb]
      dsimp only
      rw [sliceFrom_le (by omega), sliceFrom_le (by omega), List.drop_left' hb]
      dsimp only
      rw [htail]
      rfl

theorem cryptBlocks_eq (c : BlockCipher) {iv dst src : Bytes} (hdst : dst.length = src.length) :
    cryptBlocks c iv dst src = cbcDecryptBlocks c iv src := by
  have hdrop : dst.drop src.length = [] := List.drop_eq_nil_of_le (by omega)
  rw [cryptBlocks, cbcDecryptBlocks, if_neg (show ¬dst.length < src.length by omega), hdrop,
    List.append_nil]

theorem decryptBlocks_eq (p : Params) {c : BlockCipher} {dst src : Bytes}
    (hdst : dst.length = src.length) (h : src.length % c.blockSize = 0) :
    decryptBlocks p c dst src = PapeSdk.decryptBlocks p c src := by
  unfold decryptBlocks PapeSdk.decryptBlocks
  cases p.mode with
  | cbc => exact cryptBlocks_eq c hdst
  | ecb =>
    obtain ⟨blocks, hblocks, rfl⟩ := blocks_of_aligned h
    have hrounds : blocks.length < blocks.flatten.length + 1 := by
      have hle : blocks.length ≤ blocks.length * c.blockSize :=
        Nat.le_mul_of_pos_right _ c.blockSize_pos
      rw [hblocks.length_flatten]
      omega
    dsimp only
    rw [ecbDecrypt_blocks c hblocks hdst hrounds, PapeSdk.ecbDecrypt,
      ecbCrypt_blocks c.decrypt c.blockSize_pos hblocks]

theorem pkcs7Unpad_eq (data : Bytes) {size : ℕ} (hpos : 0 < size) :
    pkcs7Unpad data size = PapeSdk.pkcs7Unpad data size := by
  unfold PapeSdk.pkcs7Unpad
  cases hlast : data.getLast? with
  | none =>
    rw [List.getLast?_eq_none_iff.mp hlast]
    rfl
  | some last =>
    have hlen : data.length ≠ 0 := by
      intro hzero
      rw [List.eq_nil_of_length_eq_zero hzero] at hlast
      cases hlast
    rw [pkcs7Unpad, if_neg hlen, remainder_pos _ hpos]
    simp only [bind, Except.bind]
    by_cases halign : data.length % size ≠ 0
    · rw [if_pos halign, if_pos (by omega)]
    rw [if_neg halign, if_neg (by omega), index_last hlast]
    dsimp only
    by_cases hbounds : last.toNat = 0 ∨ size < last.toNat ∨ data.length < last.toNat
    · rw [if_pos hbounds, if_pos (by omega)]
    have hsub : (data.length : ℤ) - last.toNat = (data.length - last.toNat : ℕ) := by omega
    rw [if_neg hbounds, if_neg (by omega), hsub, sliceFrom_le (by omega), sliceTo_le (by omega)]
    simp only [Nat.cast_inj, beq_eq_decide]

theorem newAES_cases (x : Primitives) (key : Bytes) :
    x.newAES key = .error (.keySize .aes key.length) ∨
      16 ≤ key.length ∧ x.newAES key = .ok (x.aes key) := by
  unfold Primitives.newAES
  by_cases h : key.length = 16 ∨ key.length = 24 ∨ key.length = 32
  · exact Or.inr ⟨by omega, if_pos h⟩
  · exact Or.inl (if_neg h)

theorem decryptAccountCenterData_eq (x : Primitives) (b : BFF) (value : Bytes) :
    decryptAccountCenterData x b value = b.decryptAccountCenterData x value := by
  rw [decryptAccountCenterData, BFF.decryptAccountCenterData]
  cases base64Decode (restorePlus value) with
  | error e => rfl
  | ok encrypted =>
    simp only [Except.mapError, bind, Except.bind]
    rcases newAES_cases x b.aesKey with hkey | ⟨hlen, hkey⟩
    · rw [hkey]
    · have hsize : (x.aes b.aesKey).blockSize = 16 := x.aes_blockSize _
      have hzeros : (List.replicate encrypted.length (0 : UInt8)).length = encrypted.length :=
        List.length_replicate
      have hslice : sliceTo b.aesKey 16 = .ok (b.aesKey.take 16) := @sliceTo_le b.aesKey 16 hlen
      have hover : remainder encrypted.length 16 = .ok (encrypted.length % 16 : ℕ) :=
        @remainder_pos encrypted.length 16 (by omega)
      have hunpad : ∀ data, pkcs7Unpad data 16 = PapeSdk.pkcs7Unpad data 16 := by
        intro data
        exact @pkcs7Unpad_eq data 16 (by omega)
      simp only [hkey, hsize, Nat.cast_ofNat, hover, hslice, sliceTo_ok hlen, hunpad,
        cryptBlocks_eq _ hzeros]
      by_cases halign : encrypted.length % 16 ≠ 0
      · rw [if_pos halign, if_pos (by omega)]
      · rw [if_neg halign, if_neg (by omega)]

theorem decryptDataWithParams_eq (x : Primitives) (value : Bytes) {p : Params} (hp : p.Fits) :
    decryptDataWithParams x value p = PapeSdk.decryptDataWithParams x value p := by
  rw [decryptDataWithParams, PapeSdk.decryptDataWithParams]
  obtain ⟨c, hc, hsize⟩ := newBlock_fits x hp
  have hpos := hp.blockSize_range.1
  cases p.encoder.decode value with
  | error e => rfl
  | ok encrypted =>
    have hzeros : (List.replicate encrypted.length (0 : UInt8)).length = encrypted.length :=
      List.length_replicate
    simp only [Except.mapError, bind, Except.bind, hc, remainder_pos _ hpos, pkcs7Unpad_eq _ hpos]
    by_cases halign : encrypted.length % p.blockSize ≠ 0
    · rw [if_pos halign, if_pos (by omega)]
      rfl
    · rw [if_neg halign, if_neg (by omega), decryptBlocks_eq p hzeros (by rw [hsize]; omega)]

/-- With and without the checks, the answers are the same. -/
theorem decryptData_eq (x : Primitives) (b : BFF) (value : Bytes) (timestamp : Int64) :
    decryptData x b value timestamp = b.decryptData x value timestamp := by
  rw [decryptData, BFF.decryptData, decryptAccountCenterData_eq]
  by_cases hcenter : b.isAccountCenter = true
  · rw [if_pos hcenter, if_pos hcenter]
  rw [if_neg hcenter, if_neg hcenter, BFF.params]
  dsimp only
  generalize (if (timestamp % 10) &&& 1 == 1 then Encoder.base64 else Encoder.hex) = encoder
  obtain ⟨p, hparams, -, hp⟩ := paramsWithEncoder_fits x b timestamp encoder
  obtain ⟨alt, halt, -, hfits⟩ := paramsWithEncoder_fits x b timestamp p.encoder.other
  have hfirst := decryptDataWithParams_eq x value hp
  have hsecond := decryptDataWithParams_eq x value hfits
  cases hopened : PapeSdk.decryptDataWithParams x value p with
  | ok out => simp only [paramsWithEncoder_eq, hparams, bind, Except.bind, hfirst, hopened]
  | error e =>
    -- a panic ends the call, any other error asks for the other encoder
    cases hother : PapeSdk.decryptDataWithParams x value alt with
    | ok out =>
      cases e <;> simp only [paramsWithEncoder_eq, hparams, halt, bind, Except.bind, hfirst,
        hsecond, hopened, hother]
    | error e' =>
      cases e <;> cases e' <;> simp only [paramsWithEncoder_eq, hparams, halt, bind, Except.bind,
        hfirst, hsecond, hopened, hother]

/-- The call comes back, with a value or with an error. -/
def Returns {α : Type} (result : Except Fault α) : Prop := ∀ text, result ≠ .error (.panic text)

theorem Returns.ok {α : Type} (a : α) : Returns (.ok a) := by
  intro text h
  cases h

theorem Returns.bind {α β : Type} {result : Except Fault α} {next : α → Except Fault β}
    (h : Returns result) (hnext : ∀ a, result = .ok a → Returns (next a)) :
    Returns (result >>= next) := by
  cases result with
  | ok a => exact hnext a rfl
  | error e =>
    intro text herror
    exact h text (congrArg Except.error (Except.error.inj herror))

theorem Returns.mapError {ε α : Type} {f : ε → Fault} (hf : ∀ e text, f e ≠ .panic text)
    (result : Except ε α) : Returns (result.mapError f) := by
  cases result with
  | ok a => exact Returns.ok a
  | error e =>
    intro text herror
    exact hf e text (Except.error.inj herror)

theorem Returns.readFields (x : Primitives) (plain : Bytes) : Returns (x.readFields plain) := by
  refine (Returns.mapError ?_ _).bind ?_
  · intro e text h
    cases h
  · intro decoded _
    exact Returns.ok _

theorem Returns.message {α : Type} (text : String) :
    Returns (.error (.message text) : Except Fault α) := by
  intro other h
  cases h

theorem Returns.pkcs7Unpad (data : Bytes) (size : ℕ) :
    Returns (PapeSdk.pkcs7Unpad data size) := by
  unfold PapeSdk.pkcs7Unpad
  cases data.getLast? with
  | none => exact Returns.message _
  | some last =>
    dsimp only
    by_cases halign : data.length % size ≠ 0
    · rw [if_pos halign]
      exact Returns.message _
    rw [if_neg halign]
    by_cases hbounds : last.toNat = 0 ∨ size < last.toNat ∨ data.length < last.toNat
    · rw [if_pos hbounds]
      exact Returns.message _
    rw [if_neg hbounds]
    split
    · exact Returns.ok _
    · exact Returns.message _

theorem Returns.cbcDecryptBlocks (c : BlockCipher) {iv src : Bytes}
    (hiv : iv.length = c.blockSize) (h : src.length % c.blockSize = 0) :
    Returns (cbcDecryptBlocks c iv src) := by
  rw [PapeSdk.cbcDecryptBlocks, if_neg (not_not.mpr hiv), if_neg (not_not.mpr h)]
  exact Returns.ok _

theorem Returns.decryptBlocks {p : Params} (hp : p.Fits) {c : BlockCipher}
    (hsize : c.blockSize = p.blockSize) {src : Bytes} (h : src.length % p.blockSize = 0) :
    Returns (PapeSdk.decryptBlocks p c src) := by
  rw [← hsize] at h
  unfold PapeSdk.decryptBlocks
  cases hmode : p.mode with
  | cbc => exact Returns.cbcDecryptBlocks c ((hp.iv hmode).trans hsize.symm) h
  | ecb =>
    obtain ⟨blocks, hblocks, rfl⟩ := blocks_of_aligned h
    dsimp only
    rw [PapeSdk.ecbDecrypt, ecbCrypt_blocks c.decrypt c.blockSize_pos hblocks]
    exact Returns.ok _

theorem Returns.decryptDataWithParams (x : Primitives) (value : Bytes) {p : Params}
    (hp : p.Fits) : Returns (PapeSdk.decryptDataWithParams x value p) := by
  obtain ⟨c, hc, hsize⟩ := newBlock_fits x hp
  rw [PapeSdk.decryptDataWithParams, hc]
  refine (Returns.mapError (fun e text h => by cases h) _).bind ?_
  intro encrypted _
  simp only [Bind.bind, Except.bind]
  by_cases halign : encrypted.length % p.blockSize ≠ 0
  · rw [if_pos halign]
    exact Returns.message _
  rw [if_neg halign]
  refine (Returns.decryptBlocks hp hsize (by omega)).bind ?_
  intro padded _
  refine (Returns.pkcs7Unpad padded p.blockSize).bind ?_
  intro plain _
  exact Returns.readFields x plain

theorem Returns.decryptAccountCenterData (x : Primitives) (b : BFF) (value : Bytes) :
    Returns (b.decryptAccountCenterData x value) := by
  rw [BFF.decryptAccountCenterData]
  refine (Returns.mapError (fun e text h => by cases h) _).bind ?_
  intro encrypted _
  rcases newAES_cases x b.aesKey with hkey | ⟨hlen, hkey⟩
  · rw [hkey]
    intro text h
    cases h
  have hsize : (x.aes b.aesKey).blockSize = 16 := x.aes_blockSize _
  have hiv : (b.aesKey.take 16).length = (x.aes b.aesKey).blockSize := by
    rw [List.length_take, hsize]
    omega
  rw [hkey]
  simp only [Bind.bind, Except.bind, hsize, sliceTo_ok hlen]
  by_cases halign : encrypted.length % 16 ≠ 0
  · rw [if_pos halign]
    exact Returns.message _
  rw [if_neg halign]
  refine (Returns.cbcDecryptBlocks _ hiv (by rw [hsize]; omega)).bind ?_
  intro padded _
  refine (Returns.pkcs7Unpad padded 16).bind ?_
  intro plain _
  exact Returns.readFields x plain

/-- Whatever the keys, the time and the data, opening ends with a map or with
an error. -/
theorem decryptData_returns (x : Primitives) (b : BFF) (value : Bytes) (timestamp : Int64) :
    ∀ text, decryptData x b value timestamp ≠ .error (.panic text) := by
  change Returns (decryptData x b value timestamp)
  rw [decryptData_eq, BFF.decryptData]
  by_cases hcenter : b.isAccountCenter = true
  · rw [if_pos hcenter]
    exact Returns.decryptAccountCenterData x b value
  rw [if_neg hcenter]
  obtain ⟨p, hparams, -, hp⟩ : ∃ p, b.params x timestamp = .ok p ∧ _ ∧ p.Fits :=
    paramsWithEncoder_fits x b timestamp _
  obtain ⟨alt, halt, -, hfits⟩ := paramsWithEncoder_fits x b timestamp p.encoder.other
  have hfirst := Returns.decryptDataWithParams x value hp
  have hsecond := Returns.decryptDataWithParams x value hfits
  simp only [hparams, halt, bind, Except.bind]
  split
  · exact Returns.ok _
  · next text h => exact absurd h (hfirst text)
  · next e hne h =>
    split
    · exact Returns.ok _
    · next text h' => exact absurd h' (hsecond text)
    · intro text herror
      cases herror
      exact hne text rfl

end PapeSdk.Checked
