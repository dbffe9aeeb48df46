import PapeSdk.TextCodecs

/-!
The encrypted data field of a request and of its answer. The cipher, its mode,
the text encoding, the key and the initial vector all come from the
application's key, its identifier and the timestamp; the account center has a
pipeline of its own. Strings are byte strings here, as the program sees them.
-/

namespace PapeSdk

open BlockModes TextCodecs

/-- A map from strings, the same map whatever order its keys were written in. -/
abbrev StrMap (α : Type) := Std.ExtTreeMap String α

/-- A decoded JSON value; the entries of an object stand in key order. -/
inductive JSONValue (Number : Type) where
  | null
  | bool (b : Bool)
  | number (n : Number)
  | string (s : String)
  | array (items : List (JSONValue Number))
  | object (entries : List (String × JSONValue Number))

inductive Algorithm where
  | des
  | aes
  deriving DecidableEq, Repr

inductive Mode where
  | ecb
  | cbc
  deriving DecidableEq, Repr

inductive Encoder where
  | hex
  | base64
  deriving DecidableEq, Repr

def Algorithm.text : Algorithm → String
  | .des => "DES"
  | .aes => "AES"

def Mode.text : Mode → String
  | .ecb => "ECB"
  | .cbc => "CBC"

def Encoder.text : Encoder → String
  | .hex => "HEX"
  | .base64 => "BASE64"

/-- An error that a call returns, or the panic it ends in. -/
inductive Fault where
  | decode (e : DecodeError)
  | keySize (cipher : Algorithm) (n : ℕ)
  | json (text : String)
  | message (text : String)
  | panic (text : String)
  deriving DecidableEq, Repr

/-- The hash, the ciphers and the JSON codec that the program is linked with. -/
structure Primitives where
  md5 : Bytes → Bytes
  length_md5 : ∀ src, (md5 src).length = 16
  des : Bytes → BlockCipher
  des_blockSize : ∀ key, (des key).blockSize = 8
  aes : Bytes → BlockCipher
  aes_blockSize : ∀ key, (aes key).blockSize = 16
  Number : Type
  showNumber : Number → String
  marshal : JSONValue Number → Except String Bytes
  unmarshal : Bytes → Except String (StrMap (JSONValue Number))

mutual

def JSONValue.sprint {Number : Type} (showNumber : Number → String) : JSONValue Number → String
  | .null => "<nil>"
  | .bool b => if b then "true" else "false"
  | .number n => showNumber n
  | .string s => s
  | .array items => "[" ++ " ".intercalate (sprintItems showNumber items) ++ "]"
  | .object entries => "map[" ++ " ".intercalate (sprintEntries showNumber entries) ++ "]"

def JSONValue.sprintItems {Number : Type} (showNumber : Number → String) :
    List (JSONValue Number) → List String
  | [] => []
  | v :: rest => v.sprint showNumber :: sprintItems showNumber rest

def JSONValue.sprintEntries {Number : Type} (showNumber : Number → String) :
    List (String × JSONValue Number) → List String
  | [] => []
  | (k, v) :: rest => (k ++ ":" ++ v.sprint showNumber) :: sprintEntries showNumber rest

end

/-- The encodings of the white space characters. -/
def spaceRunes : List Bytes :=
  [[9], [10], [11], [12], [13], [32], [194, 133], [194, 160], [225, 154, 128],
    [226, 128, 128], [226, 128, 129], [226, 128, 130], [226, 128, 131], [226, 128, 132],
    [226, 128, 133], [226, 128, 134], [226, 128, 135], [226, 128, 136], [226, 128, 137],
    [226, 128, 138], [226, 128, 168], [226, 128, 169], [226, 128, 175], [226, 129, 159],
    [227, 128, 128]]

/-- Takes listed strings off the front, at most `n` of them. -/
def trimFront (runes : List Bytes) : ℕ → Bytes → Bytes
  | 0, data => data
  | n + 1, data =>
    match runes.find? (·.isPrefixOf data) with
    | some rune => trimFront runes n (data.drop rune.length)
    | none => data

def bytesTrimSpace (data : Bytes) : Bytes :=
  let left := trimFront spaceRunes data.length data
  (trimFront (spaceRunes.map List.reverse) left.length left.reverse).reverse

/-- Printable, and not a space. -/
def Visible (b : UInt8) : Prop := 32 < b ∧ b < 127

instance (b : UInt8) : Decidable (Visible b) := inferInstanceAs (Decidable (32 < b ∧ b < 127))

theorem spaceRunes_first : ∀ rune ∈ spaceRunes, ∃ b ∈ rune.head?, ¬Visible b := by
  simp only [Option.mem_def]
  decide

theorem spaceRunes_last :
    ∀ rune ∈ spaceRunes.map List.reverse, ∃ b ∈ rune.head?, ¬Visible b := by
  simp only [Option.mem_def]
  decide

def sliceTo (data : Bytes) (n : ℕ) : Except Fault Bytes :=
  if n ≤ data.length then .ok (data.take n) else .error (.panic "slice bounds out of range")

def pkcs7Pad (data : Bytes) (size : ℕ) : Bytes :=
  let pad := size - data.length % size
  data ++ List.replicate pad (UInt8.ofNat pad)

def pkcs7Unpad (data : Bytes) (size : ℕ) : Except Fault Bytes :=
  match data.getLast? with
  | none => .error (.message "invalid pkcs7 data")
  | some last =>
    if data.length % size ≠ 0 then .error (.message "invalid pkcs7 data")
    else
      let pad := last.toNat
      if pad = 0 ∨ size < pad ∨ data.length < pad then
        .error (.message "invalid pkcs7 padding")
      else if (data.drop (data.length - pad)).all (fun b => b.toNat == pad) then
        .ok (data.take (data.length - pad))
      else .error (.message "invalid pkcs7 padding")

/-- One block after another until the source is used up. Each round takes at
least one byte, so the length of the source bounds the number of rounds. -/
def ecbLoop (size : ℕ) (crypt : Bytes → Bytes) : ℕ → Bytes → Except Fault Bytes
  | 0, _ => .ok []
  | n + 1, src =>
    if src.length = 0 then .ok []
    else do
      let block ← sliceTo src size
      let rest ← ecbLoop size crypt n (src.drop size)
      return crypt block ++ rest

def ecbEncrypt (block : BlockCipher) (src : Bytes) : Except Fault Bytes :=
  ecbLoop block.blockSize block.encrypt src.length src

def ecbDecrypt (block : BlockCipher) (src : Bytes) : Except Fault Bytes :=
  ecbLoop block.blockSize block.decrypt src.length src

/-- The chained modes of the standard library, with the calls they refuse. -/
def cbcEncryptBlocks (block : BlockCipher) (iv src : Bytes) : Except Fault Bytes :=
  if iv.length ≠ block.blockSize then
    .error (.panic "cipher.NewCBCEncrypter: IV length must equal block size")
  else if src.length % block.blockSize ≠ 0 then
    .error (.panic "crypto/cipher: input not full blocks")
  else .ok (cbcEncrypt block iv src)

def cbcDecryptBlocks (block : BlockCipher) (iv src : Bytes) : Except Fault Bytes :=
  if iv.length ≠ block.blockSize then
    .error (.panic "cipher.NewCBCDecrypter: IV length must equal block size")
  else if src.length % block.blockSize ≠ 0 then
    .error (.panic "crypto/cipher: input not full blocks")
  else .ok (cbcDecrypt block iv src)

structure BFF where
  appID : Bytes
  appKey : Bytes
  aesKey : Bytes
  deriving DecidableEq

structure Params where
  algorithm : Algorithm
  mode : Mode
  encoder : Encoder
  key : Bytes
  iv : Bytes
  blockSize : ℕ
  deriving DecidableEq

def accountCenterID : Bytes := bytesOf "1010013"

def BFF.isAccountCenter (b : BFF) : Bool := b.appID == accountCenterID

def isOdd (b : UInt8) : Bool := b &&& 1 == 1

def BFF.paramsWithEncoder (x : Primitives) (b : BFF) (timestamp : Int64) (encoder : Encoder) :
    Except Fault Params := do
  let algorithm := if b.aesKey.head?.any isOdd then Algorithm.aes else Algorithm.des
  let mode := if b.appID.getLast?.any isOdd then Mode.cbc else Mode.ecb
  let src := (bytesOf "#").intercalate
    [b.aesKey, bytesOf algorithm.text, bytesOf mode.text, bytesOf "PKCS7Padding",
      bytesOf encoder.text, b.appID, bytesOf (toString timestamp)]
  let material := hexEncode (x.md5 src)
  let keySize := if algorithm = .aes then 32 else 8
  let blockSize := if algorithm = .aes then 16 else 8
  let key ← sliceTo material keySize
  let iv ← if mode = .ecb then .ok [] else sliceTo material blockSize
  return { algorithm, mode, encoder, key, iv, blockSize }

def BFF.params (x : Primitives) (b : BFF) (timestamp : Int64) : Except Fault Params :=
  let encoder := if (timestamp % 10) &&& 1 == 1 then Encoder.base64 else Encoder.hex
  b.paramsWithEncoder x timestamp encoder

namespace Primitives

def newDES (x : Primitives) (key : Bytes) : Except Fault BlockCipher :=
  if key.length = 8 then .ok (x.des key) else .error (.keySize .des key.length)

def newAES (x : Primitives) (key : Bytes) : Except Fault BlockCipher :=
  if key.length = 16 ∨ key.length = 24 ∨ key.length = 32 then .ok (x.aes key)
  else .error (.keySize .aes key.length)

def newBlock (x : Primitives) (p : Params) : Except Fault BlockCipher :=
  match p.algorithm with
  | .des => x.newDES p.key
  | .aes => x.newAES p.key

/-- Encoding with the errors of the codec. -/
def marshalJSON (x : Primitives) (obj : JSONValue x.Number) : Except Fault Bytes :=
  (x.marshal obj).mapError .json

/-- Decoding the text of an object and printing each of its values. -/
def readFields (x : Primitives) (plain : Bytes) : Except Fault (StrMap String) := do
  let decoded ← (x.unmarshal (bytesTrimSpace plain)).mapError .json
  return decoded.map fun _ v => v.sprint x.showNumber

end Primitives

def Encoder.encode : Encoder → Bytes → Bytes
  | .hex => hexEncode
  | .base64 => base64Encode

def Encoder.decode : Encoder → Bytes → Except DecodeError Bytes
  | .hex => hexDecode
  | .base64 => base64Decode

/-- The block mode named in the parameters, sealing and opening. -/
def encryptBlocks (p : Params) (block : BlockCipher) (src : Bytes) : Except Fault Bytes :=
  match p.mode with
  | .ecb => ecbEncrypt block src
  | .cbc => cbcEncryptBlocks block p.iv src

def decryptBlocks (p : Params) (block : BlockCipher) (src : Bytes) : Except Fault Bytes :=
  match p.mode with
  | .ecb => ecbDecrypt block src
  | .cbc => cbcDecryptBlocks block p.iv src

def BFF.encryptAccountCenterData (x : Primitives) (b : BFF) (obj : JSONValue x.Number) :
    Except Fault Bytes := do
  let plain ← x.marshalJSON obj
  let block ← x.newAES b.aesKey
  let padded := pkcs7Pad plain block.blockSize
  let iv ← sliceTo b.aesKey block.blockSize
  let encrypted ← cbcEncryptBlocks block iv padded
  return base64Encode encrypted

def BFF.encryptData (x : Primitives) (b : BFF) (obj : JSONValue x.Number) (timestamp : Int64) :
    Except Fault Bytes :=
  if b.isAccountCenter then b.encryptAccountCenterData x obj
  else do
    let p ← b.params x timestamp
    let plain ← x.marshalJSON obj
    let block ← x.newBlock p
    let padded := pkcs7Pad plain p.blockSize
    let encrypted ← encryptBlocks p block padded
    return p.encoder.encode encrypted

/-- Spaces of a form value stand for the plus signs they were. -/
def restorePlus (value : Bytes) : Bytes := value.map fun b => if b = 32 then 43 else b

def BFF.decryptAccountCenterData (x : Primitives) (b : BFF) (value : Bytes) :
    Except Fault (StrMap String) := do
  let encrypted ← (base64Decode (restorePlus value)).mapError Fault.decode
  let block ← x.newAES b.aesKey
  if encrypted.length % block.blockSize ≠ 0 then
    throw (.message "encrypted data is not block aligned")
  let iv ← sliceTo b.aesKey block.blockSize
  let padded ← cbcDecryptBlocks block iv encrypted
  let plain ← pkcs7Unpad padded block.blockSize
  x.readFields plain

def decryptDataWithParams (x : Primitives) (value : Bytes) (p : Params) :
    Except Fault (StrMap String) := do
  let encrypted ← (p.encoder.decode value).mapError Fault.decode
  let block ← x.newBlock p
  if encrypted.length % p.blockSize ≠ 0 then
    throw (.message "encrypted data is not block aligned")
  let padded ← decryptBlocks p block encrypted
  let plain ← pkcs7Unpad padded p.blockSize
  x.readFields plain

def Encoder.other : Encoder → Encoder
  | .hex => .base64
  | .base64 => .hex

/-- A second attempt with the other encoding follows an error; nothing
follows a panic. -/
def BFF.decryptData (x : Primitives) (b : BFF) (value : Bytes) (timestamp : Int64) :
    Except Fault (StrMap String) :=
  if b.isAccountCenter then b.decryptAccountCenterData x value
  else do
    let p ← b.params x timestamp
    match decryptDataWithParams x value p with
    | .ok out => .ok out
    | .error (.panic text) => .error (.panic text)
    | .error e =>
      let alt ← b.paramsWithEncoder x timestamp p.encoder.other
      match decryptDataWithParams x value alt with
      | .ok out => .ok out
      | .error (.panic text) => .error (.panic text)
      | .error _ => .error e

end PapeSdk
