import PapeSdk.FilePaths
import PapeSdk.PolicyDocuments
import PapeSdk.UrlSegments

/-!
Grants for uploads to the object storage. A grant names the key of one object three
times: in the form, in the signed policy and in the URL. The key is the cleaned
category and one more element, which the request names or chance decides.
-/

namespace PapeSdk.UploadGrants

open BlockModes AsciiBytes TextCodecs FilePaths Utf8Texts PolicyDocuments UrlSegments

structure ParsedURL where
  scheme : Bytes
  host : Bytes
  rawQuery : Bytes
  fragment : Bytes

/-- The parts of the standard library whose results are only passed on. Times are in
nanoseconds and formatted in UTC under a layout. -/
structure Platform where
  parseURL : Bytes → Option ParsedURL
  formatTime : String → ℤ → Bytes
  hmacSHA256 : Bytes → Bytes → Bytes

/-- An address without a slash at the end. -/
structure BaseURL where
  text : Bytes
  trimmed : text.getLast? ≠ some slash

structure Options where
  endpoint : Bytes
  publicBaseURL : Bytes
  bucket : Bytes
  region : Bytes
  accessKeyID : Bytes
  accessKeySecret : Bytes
  securityToken : Bytes
  policyTTL : ℤ
  maxUploadBytes : ℤ

structure Client where
  endpoint : BaseURL
  publicBaseURL : BaseURL
  bucket : Bytes
  region : Bytes
  accessKeyID : Bytes
  accessKeySecret : Bytes
  securityToken : Bytes
  policyTTL : ℤ
  maxUploadBytes : ℕ
  uploads : 0 < maxUploadBytes

/-- `strings.TrimRight` with a slash. -/
def trimSlashes (value : Bytes) : Bytes := value.rdropWhile fun b => b == slash

theorem trimSlashes_trimmed (value : Bytes) :
    (trimSlashes value).getLast? ≠ some slash := by
  by_cases hne : trimSlashes value = []
  · rw [hne]
    simp
  · rw [List.getLast?_eq_some_getLast hne]
    intro hlast
    exact List.rdropWhile_last_not _ _ hne (beq_iff_eq.mpr (Option.some.inj hlast))

theorem BaseURL.trimSlashes_text (base : BaseURL) : trimSlashes base.text = base.text := by
  refine List.rdropWhile_eq_self_iff.mpr fun hne hslash => base.trimmed ?_
  rw [List.getLast?_eq_some_getLast hne, beq_iff_eq.mp hslash]

def absoluteURL (x : Platform) (value : Bytes) (name : String) : Except String BaseURL :=
  let text := trimSlashes (trimSpace value)
  let failure := name ++ " must be an absolute HTTP(S) URL without query or fragment"
  match x.parseURL text with
  | none => .error failure
  | some parsed =>
    if (parsed.scheme ≠ bytesOf "http" ∧ parsed.scheme ≠ bytesOf "https") ∨ parsed.host = [] ∨
        parsed.rawQuery ≠ [] ∨ parsed.fragment ≠ [] then .error failure
    else .ok ⟨text, trimSlashes_trimmed _⟩

def second : ℤ := 1000000000

/-- `New`. -/
def newClient (x : Platform) (options : Options) : Except String Client := do
  let endpoint ← absoluteURL x options.endpoint "storage.endpoint"
  let publicBaseURL ←
    if trimSpace options.publicBaseURL = [] then pure endpoint
    else absoluteURL x (trimSpace options.publicBaseURL) "storage.public_base_url"
  if trimSpace options.region = [] then throw "storage.region is required"
  if trimSpace options.accessKeyID = [] ∨ trimSpace options.accessKeySecret = [] then
    throw "storage.access_key_id and storage.access_key_secret are required"
  let policyTTL := if options.policyTTL ≤ 0 then 20 * 60 * second else options.policyTTL
  if policyTTL > 7 * 24 * 60 * 60 * second then
    throw "storage.policy_ttl_seconds cannot exceed 7 days"
  let client := fun maxUploadBytes uploads =>
    { endpoint, publicBaseURL, bucket := trimSpace options.bucket,
      region := trimSpace options.region, accessKeyID := trimSpace options.accessKeyID,
      accessKeySecret := options.accessKeySecret,
      securityToken := trimSpace options.securityToken, policyTTL, maxUploadBytes, uploads }
  if h : options.maxUploadBytes ≤ 0 then pure (client (256 * 2 ^ 20) (by decide))
  else pure (client options.maxUploadBytes.toNat (by omega))

def nul : UInt8 := 0

/-- `strings.ReplaceAll` of backslashes by slashes. -/
def forwardSlashes (value : Bytes) : Bytes :=
  value.map fun b => if b = backslash then slash else b

def cleanObjectKey (value : Bytes) : Except String Bytes :=
  let value := trimSpace (forwardSlashes value)
  if value = [] ∨ value.head? = some slash ∨ nul ∈ value then .error "invalid object key"
  else
    let clean := (Path.clean value).text
    if clean = [dot] ∨ clean = [dot, dot] ∨ [dot, dot, slash] <+: clean then
      .error "invalid object key"
    else .ok clean

def cleanObjectName (value : Bytes) : Except String Bytes :=
  match cleanObjectKey value with
  | .error _ => .error "invalid object name"
  | .ok clean =>
    if slash ∈ clean ∨ clean ≠ value then .error "invalid object name" else .ok clean

/-- `path.Ext`. -/
def pathExt (path : Bytes) : Bytes :=
  let element := path.rtakeWhile fun b => b != slash
  if dot ∈ element then dot :: element.rtakeWhile fun b => b != dot else []

def isLowerOrDigit (b : UInt8) : Bool := (97 ≤ b && b ≤ 122) || (48 ≤ b && b ≤ 57)

def safeExtension (filename : Bytes) : Bytes :=
  let filename := trimSpace filename
  let filename := if filename ≠ [] ∧ dot ∉ filename then dot :: filename else filename
  let extension := toLower (pathExt (forwardSlashes filename))
  if extension.length < 2 ∨ 16 < extension.length then []
  else if extension.tail.all isLowerOrDigit then extension
  else []

/-- `randomObjectID`, of the random bytes. -/
def randomObjectID (raw : Vector UInt8 16) : Bytes := hexEncode raw.toList

def objectURL (baseURL key : Bytes) : Bytes :=
  trimSlashes baseURL ++ slash ::
    [slash].intercalate ((key.splitOn slash).map pathEscape)

structure AcquireRequest where
  category : Bytes
  objectName : Bytes
  extension : Bytes
  maxBytes : ℤ

structure AcquireResponse where
  address : Bytes
  url : Bytes
  addForm : List (String × Bytes)
  addHeader : List (String × Bytes)

def signatureVersion : Bytes := bytesOf "OSS4-HMAC-SHA256"

def signPolicy (x : Platform) (secret date region policy : Bytes) : Bytes :=
  let dateKey := x.hmacSHA256 (bytesOf "aliyun_v4" ++ secret) date
  let regionKey := x.hmacSHA256 dateKey region
  let serviceKey := x.hmacSHA256 regionKey (bytesOf "oss")
  let signingKey := x.hmacSHA256 serviceKey (bytesOf "aliyun_v4_request")
  hexEncode (x.hmacSHA256 signingKey policy)

/-- The name of the object, from the request or the random bytes. -/
def grantedName (raw : Except String (Vector UInt8 16)) (request : AcquireRequest) :
    Except String Bytes :=
  let objectName := trimSpace request.objectName
  if objectName ≠ [] then
    match cleanObjectName objectName with
    | .error _ => .error "invalid object name"
    | .ok name => .ok name
  else
    match raw with
    | .error e => .error ("generate object key: " ++ e)
    | .ok raw => .ok (randomObjectID raw ++ safeExtension request.extension)

def Client.grantedBytes (c : Client) (request : AcquireRequest) : ℕ :=
  if request.maxBytes ≤ 0 ∨ (c.maxUploadBytes : ℤ) < request.maxBytes then c.maxUploadBytes
  else request.maxBytes.toNat

def Client.credential (c : Client) (date : Bytes) : Bytes :=
  c.accessKeyID ++ bytesOf "/" ++ date ++ bytesOf "/" ++ c.region ++
    bytesOf "/oss/aliyun_v4_request"

/-- The policy that is signed for the key. -/
def Client.policy (c : Client) (x : Platform) (now : ℤ) (key : Bytes) (maxBytes : ℕ) : Policy where
  conditions :=
    [.equals (bytesOf "key") key,
      .equals (bytesOf "x-oss-signature-version") signatureVersion,
      .equals (bytesOf "x-oss-credential") (c.credential (x.formatTime "20060102" now)),
      .equals (bytesOf "x-oss-date") (x.formatTime "20060102T150405Z" now),
      .lengthRange 0 maxBytes,
      .equals (bytesOf "success_action_status") (bytesOf "200")] ++
    (if c.bucket ≠ [] then [.equals (bytesOf "bucket") c.bucket] else []) ++
    (if c.securityToken ≠ [] then [.equals (bytesOf "x-oss-security-token") c.securityToken]
      else [])
  expiration := x.formatTime "2006-01-02T15:04:05.000Z" (now + c.policyTTL)

/-- The response for the key. -/
def Client.grant (c : Client) (x : Platform) (now : ℤ) (key : Bytes) (maxBytes : ℕ) :
    AcquireResponse :=
  let date := x.formatTime "20060102" now
  let policy := base64Encode (c.policy x now key maxBytes).json
  { address := c.endpoint.text
    url := objectURL c.publicBaseURL.text key
    addForm :=
      [("key", key), ("policy", policy), ("success_action_status", bytesOf "200"),
        ("x-oss-signature-version", signatureVersion),
        ("x-oss-credential", c.credential date),
        ("x-oss-date", x.formatTime "20060102T150405Z" now),
        ("x-oss-signature", signPolicy x c.accessKeySecret date c.region policy),
        ("x:extend", [])] ++
      (if c.securityToken ≠ [] then [("x-oss-security-token", c.securityToken)] else [])
    addHeader := [("Date", x.formatTime "Mon, 02 Jan 2006 15:04:05 GMT" now)] }

def acquire (x : Platform) (c : Client) (now : ℤ) (raw : Except String (Vector UInt8 16))
    (request : AcquireRequest) : Except String AcquireResponse :=
  match cleanObjectKey request.category with
  | .error _ => .error "invalid object category"
  | .ok category =>
    match grantedName raw request with
    | .error e => .error e
    | .ok name =>
      .ok (c.grant x now (category ++ slash :: name) (c.grantedBytes request))

/-- A key without a step out of its place. -/
structure CleanKey (key : Bytes) : Prop where
  no_backslash : backslash ∉ key
  no_nul : nul ∉ key
  plain : ∀ part ∈ key.splitOn slash, Plain part

section
variable {value clean : Bytes}

theorem backslash_not_mem_forwardSlashes (value : Bytes) : backslash ∉ forwardSlashes value := by
  intro hmem
  obtain ⟨b, -, hb⟩ := List.mem_map.mp hmem
  split at hb
  · exact absurd hb (by decide)
  · next hne => exact hne hb

theorem cleanObjectKey_ok (h : cleanObjectKey value = .ok clean) : CleanKey clean := by
  unfold cleanObjectKey at h
  dsimp only at h
  split at h
  · cases h
  next hvalue =>
  split at h
  · cases h
  next hinside =>
  cases h
  simp only [not_or] at hvalue hinside
  obtain ⟨-, hhead, hnul⟩ := hvalue
  obtain ⟨hdot, hdots, hup⟩ := hinside
  have habs : Path.isAbs (trimSpace (forwardSlashes value)) = false := by
    rw [Path.isAbs, beq_eq_false_iff_ne]
    exact hhead
  obtain ⟨-, hplain, hsplit⟩ := Path.clean_inside habs hdot hdots hup
  refine ⟨fun hmem => ?_, fun hmem => ?_, fun part hpart => ?_⟩
  · rcases Path.mem_text_clean hmem with hslash | hdot | htext
    · exact absurd hslash (by decide)
    · exact absurd hdot (by decide)
    · exact backslash_not_mem_forwardSlashes value (mem_of_mem_trimSpace htext)
  · rcases Path.mem_text_clean hmem with hslash | hdot | htext
    · exact absurd hslash (by decide)
    · exact absurd hdot (by decide)
    · exact hnul htext
  · rw [hsplit] at hpart
    exact hplain part (List.mem_reverse.mp hpart)

/-- A cleaned name is one element, and it is the name that was given. -/
theorem cleanObjectName_ok (h : cleanObjectName value = .ok clean) :
    clean = value ∧ Plain clean ∧ backslash ∉ clean ∧ nul ∉ clean := by
  unfold cleanObjectName at h
  split at h
  · cases h
  · next c hc =>
    split at h
    · cases h
    · next hsame =>
      cases h
      rw [not_or, not_not] at hsame
      have hkey := cleanObjectKey_ok hc
      have hsplit : clean.splitOn slash = [clean] := List.splitOn_eq_singleton hsame.1
      refine ⟨hsame.2, hkey.plain clean ?_, hkey.no_backslash, hkey.no_nul⟩
      rw [hsplit]
      exact List.mem_singleton_self clean

end

/-- Bytes of generated names. -/
def isNameByte (b : UInt8) : Bool := isLowerOrDigit b || b == dot

theorem isNameByte_hexDigit : ∀ n < 16, isNameByte (hexDigit n) = true := by decide

theorem isNameByte_hexEncode (data : Bytes) : ∀ b ∈ hexEncode data, isNameByte b = true := by
  induction data with
  | nil =>
    intro b hb
    cases hb
  | cons d rest ih =>
    intro b hb
    have hlt : d.toNat < 256 := d.toNat_lt
    rw [hexEncode] at hb
    rcases List.mem_cons.mp hb with rfl | hb
    · exact isNameByte_hexDigit _ (by omega)
    rcases List.mem_cons.mp hb with rfl | hb
    · exact isNameByte_hexDigit _ (by omega)
    · exact ih b hb

theorem toLower_dot (rest : Bytes) : toLower (dot :: rest) = dot :: toLower rest := by
  have hdecode : decode (dot :: rest) = .char '.' :: decode rest :=
    decode_append (a := []) (b := dot) (by decide)
  have hdot : runeBytes (.char (LetterCase.lowerRune '.')) = [dot] := by decide +kernel
  rw [toLower, hdecode, List.map_cons, encode, List.flatMap_cons, Authorities.Rune.lower, hdot]
  rfl

theorem isNameByte_safeExtension (filename : Bytes) :
    ∀ b ∈ safeExtension filename, isNameByte b = true := by
  unfold safeExtension
  dsimp only
  generalize forwardSlashes _ = path
  intro b hb
  split at hb
  · cases hb
  next hlength =>
  split at hb
  · next hall =>
    unfold pathExt at hlength hall hb
    dsimp only at hlength hall hb
    split at hb
    · next hdot =>
      rw [if_pos hdot, toLower_dot] at hall
      rw [toLower_dot] at hb
      rcases List.mem_cons.mp hb with rfl | htail
      · decide
      · exact Bool.or_eq_true_iff.mpr (Or.inl (List.all_eq_true.mp hall b htail))
    · cases hb
  · cases hb

theorem isNameByte_generated (raw : Vector UInt8 16) (extension : Bytes) :
    ∀ b ∈ randomObjectID raw ++ safeExtension extension, isNameByte b = true := by
  intro b hb
  rcases List.mem_append.mp hb with hid | hext
  · exact isNameByte_hexEncode _ b hid
  · exact isNameByte_safeExtension extension b hext

theorem isNameByte_spec {b : UInt8} (h : isNameByte b = true) :
    b ≠ slash ∧ b ≠ backslash ∧ b ≠ nul ∧ b.toNat < 128 := by
  refine ⟨?_, ?_, ?_, ?_⟩
  · rintro rfl
    exact absurd h (by decide)
  · rintro rfl
    exact absurd h (by decide)
  · rintro rfl
    exact absurd h (by decide)
  · simp only [isNameByte, isLowerOrDigit, Bool.or_eq_true, Bool.and_eq_true, decide_eq_true_eq,
      beq_iff_eq, UInt8.le_iff_toNat_le] at h
    rcases h with (⟨-, hletter⟩ | ⟨-, hdigit⟩) | rfl
    · exact lt_of_le_of_lt hletter (by decide)
    · exact lt_of_le_of_lt hdigit (by decide)
    · decide

/-- Every name that is granted is one element of a path. -/
theorem grantedName_ok {raw : Except String (Vector UInt8 16)} {request : AcquireRequest}
    {name : Bytes} (h : grantedName raw request = .ok name) :
    Plain name ∧ backslash ∉ name ∧ nul ∉ name ∧
      validString name = validString (trimSpace request.objectName) := by
  unfold grantedName at h
  dsimp only at h
  split at h
  · split at h
    · cases h
    · next clean hclean =>
      cases h
      obtain ⟨hsame, hplain, hback, hnul⟩ := cleanObjectName_ok hclean
      exact ⟨hplain, hback, hnul, congrArg validString hsame⟩
  · next hempty =>
    split at h
    · cases h
    · next raw =>
      cases h
      rw [not_not] at hempty
      have hbytes := fun b hb => isNameByte_spec (isNameByte_generated raw request.extension b hb)
      have hlength : 32 ≤ (randomObjectID raw ++ safeExtension request.extension).length := by
        rw [List.length_append, randomObjectID, length_hexEncode, Vector.length_toList]
        omega
      refine ⟨⟨?_, ?_, ?_, fun hmem => (hbytes _ hmem).1 rfl⟩, fun hmem => (hbytes _ hmem).2.1 rfl,
        fun hmem => (hbytes _ hmem).2.2.1 rfl, ?_⟩
      · intro hnil
        rw [hnil] at hlength
        exact absurd hlength (by decide)
      · intro hdot
        rw [hdot] at hlength
        exact absurd hlength (by decide)
      · intro hdots
        rw [hdots] at hlength
        exact absurd hlength (by decide)
      · rw [hempty]
        exact validString_of_ascii fun b hb => (hbytes b hb).2.2.2

/-- What a grant gives access to: one key below the cleaned category, which the form, the
signed policy and the URL agree on, and no more bytes than the client allows. -/
structure Grants (x : Platform) (c : Client) (request : AcquireRequest)
    (response : AcquireResponse) (key : Bytes) : Prop where
  form : response.addForm.lookup "key" = some key
  parts : ∃ category name, cleanObjectKey request.category = .ok category ∧
    key = category ++ slash :: name ∧ slash ∉ name ∧ name ≠ [dot] ∧ name ≠ [dot, dot]
  relative : key.head? ≠ some slash
  clean : CleanKey key
  signed : ∃ encoded text policy date, response.addForm.lookup "policy" = some encoded ∧
    response.addForm.lookup "x-oss-signature" =
      some (signPolicy x c.accessKeySecret date c.region encoded) ∧
    base64Decode encoded = .ok text ∧ readPolicy text = some policy ∧
    policy.pinned (bytesOf "key") = some key ∧
    ∃ high, policy.limit = some (0, high) ∧ 1 ≤ high ∧ high ≤ c.maxUploadBytes
  url : ∃ path, response.url = c.publicBaseURL.text ++ slash :: path ∧
    (path.splitOn slash).mapM pathUnescape = some (key.splitOn slash)

def Confined (x : Platform) (c : Client) (request : AcquireRequest) (response : AcquireResponse) :
    Prop := ∃ key, Grants x c request response key

/-- The category that is left after the cleaning and the name of the object are UTF-8. -/
def ValidParts (request : AcquireRequest) : Prop :=
  (∀ category, cleanObjectKey request.category = .ok category → validString category = true) ∧
    validString (trimSpace request.objectName) = true

section
variable {x : Platform} {c : Client} {now : ℤ} {key : Bytes} {maxBytes : ℕ}

theorem pinned_policy : (c.policy x now key maxBytes).replaced.pinned (bytesOf "key") =
    some (replaceInvalid key) := by
  have hname : replaceInvalid (bytesOf "key") = bytesOf "key" :=
    replaceInvalid_of_valid (by decide +kernel)
  have hhead := Policy.pinned_head (replaceInvalid (bytesOf "key")) (replaceInvalid key)
    (c.policy x now key maxBytes).replaced.conditions.tail
    (c.policy x now key maxBytes).replaced.expiration
  rw [hname] at hhead
  rw [← hhead, ← hname]
  rfl

theorem limit_policy : (c.policy x now key maxBytes).replaced.limit = some (0, maxBytes) := rfl

theorem readPolicy_policy : readPolicy (c.policy x now key maxBytes).json =
    some (c.policy x now key maxBytes).replaced := readPolicy_json (List.cons_ne_nil _ _)

theorem grantedBytes_bounds (c : Client) (request : AcquireRequest) :
    1 ≤ c.grantedBytes request ∧ c.grantedBytes request ≤ c.maxUploadBytes := by
  have hpos := c.uploads
  unfold Client.grantedBytes
  split
  · exact ⟨hpos, le_refl _⟩
  · omega

/-- The segments of the URL behind the base are the elements of the key. -/
theorem objectURL_segments (base : BaseURL) (key : Bytes) :
    ∃ path, objectURL base.text key = base.text ++ slash :: path ∧
      (path.splitOn slash).mapM pathUnescape = some (key.splitOn slash) := by
  refine ⟨_, ?_, unescape_joined (List.splitOn_ne_nil slash key)⟩
  rw [objectURL, base.trimSlashes_text]

end

theorem acquire_ok {x : Platform} {c : Client} {now : ℤ} {raw : Except String (Vector UInt8 16)}
    {request : AcquireRequest} {response : AcquireResponse}
    (h : acquire x c now raw request = .ok response) :
    ∃ category name, cleanObjectKey request.category = .ok category ∧
      grantedName raw request = .ok name ∧
      response = c.grant x now (category ++ slash :: name) (c.grantedBytes request) := by
  unfold acquire at h
  split at h
  · cases h
  · next category hcategory =>
    split at h
    · cases h
    · next name hname =>
      cases h
      exact ⟨category, name, hcategory, hname, rfl⟩

theorem CleanKey.append {category name : Bytes} (h : CleanKey category) (hplain : Plain name)
    (hback : backslash ∉ name) (hnul : nul ∉ name) : CleanKey (category ++ slash :: name) := by
  refine ⟨?_, ?_, ?_⟩
  · intro hmem
    rcases List.mem_append.mp hmem with hcategory | hname
    · exact h.no_backslash hcategory
    · rcases List.mem_cons.mp hname with hslash | hname
      · exact absurd hslash (by decide)
      · exact hback hname
  · intro hmem
    rcases List.mem_append.mp hmem with hcategory | hname
    · exact h.no_nul hcategory
    · rcases List.mem_cons.mp hname with hslash | hname
      · exact absurd hslash (by decide)
      · exact hnul hname
  · intro part hpart
    rw [List.splitOn_append_cons_self, List.splitOn_eq_singleton hplain.no_slash] at hpart
    rcases List.mem_append.mp hpart with hcategory | hname
    · exact h.plain part hcategory
    · rw [List.mem_singleton.mp hname]
      exact hplain

theorem CleanKey.relative {key : Bytes} (h : CleanKey key) : key.head? ≠ some slash := by
  intro hhead
  obtain ⟨rest, rfl⟩ := List.head?_eq_some_iff.mp hhead
  have hsplit : (slash :: rest).splitOn slash = [[]] ++ rest.splitOn slash :=
    List.splitOn_append_cons_self [] rest
  refine (h.plain [] ?_).nonempty rfl
  rw [hsplit]
  exact List.mem_cons_self

section
variable {x : Platform} {c : Client} {now : ℤ} {key : Bytes} {maxBytes : ℕ}

theorem grant_key : (c.grant x now key maxBytes).addForm.lookup "key" = some key := by
  simp [Client.grant]

theorem grant_policy : (c.grant x now key maxBytes).addForm.lookup "policy" =
    some (base64Encode (c.policy x now key maxBytes).json) := by
  rfl

theorem grant_signature : (c.grant x now key maxBytes).addForm.lookup "x-oss-signature" =
    some (signPolicy x c.accessKeySecret (x.formatTime "20060102" now) c.region
      (base64Encode (c.policy x now key maxBytes).json)) := by
  rfl

end

/-- The key that a policy pins is the granted one only when nothing in it is replaced. -/
theorem Grants.replaced {x : Platform} {c : Client} {now : ℤ} {request : AcquireRequest}
    {key key' : Bytes} {maxBytes : ℕ}
    (h : Grants x c request (c.grant x now key maxBytes) key') : replaceInvalid key = key := by
  obtain ⟨encoded, text, policy, date, hencoded, -, htext, hpolicy, hpinned, -⟩ := h.signed
  have hform := h.form
  rw [grant_key] at hform
  rw [grant_policy] at hencoded
  rw [← Option.some.inj hencoded, base64Decode_base64Encode] at htext
  rw [← Except.ok.inj htext, readPolicy_policy] at hpolicy
  rw [← Option.some.inj hpolicy, pinned_policy, ← Option.some.inj hform] at hpinned
  exact Option.some.inj hpinned

/-- A grant is confined exactly when the parts of its key are UTF-8. -/
theorem grant_confined_iff {x : Platform} {c : Client} {now : ℤ}
    {raw : Except String (Vector UInt8 16)} {request : AcquireRequest} {response : AcquireResponse}
    (h : acquire x c now raw request = .ok response) :
    Confined x c request response ↔ ValidParts request := by
  obtain ⟨category, name, hcategory, hname, rfl⟩ := acquire_ok h
  obtain ⟨hplain, hback, hnul, hvalid⟩ := grantedName_ok hname
  have hclean := (cleanObjectKey_ok hcategory).append hplain hback hnul
  have hkey : validString (category ++ slash :: name) =
      (validString category && validString (trimSpace request.objectName)) := by
    rw [validString_append (by decide), hvalid]
  have hparts : ValidParts request ↔ validString (category ++ slash :: name) = true := by
    rw [hkey, Bool.and_eq_true]
    refine and_congr_left fun _ => ?_
    constructor
    · exact fun hall => hall category hcategory
    · intro hone other hother
      rw [hcategory] at hother
      rwa [← Except.ok.inj hother]
  rw [hparts, ← replaceInvalid_eq_self_iff]
  constructor
  · rintro ⟨key, hgrants⟩
    exact hgrants.replaced
  · intro hsame
    obtain ⟨hlow, hhigh⟩ := grantedBytes_bounds c request
    refine ⟨category ++ slash :: name, grant_key,
      ⟨category, name, hcategory, rfl, hplain.no_slash, hplain.not_dot, hplain.not_dots⟩,
      hclean.relative, hclean, ?_, objectURL_segments _ _⟩
    refine ⟨_, _, _, _, grant_policy, grant_signature, base64Decode_base64Encode _,
      readPolicy_policy, ?_, _, limit_policy, hlow, hhigh⟩
    rw [pinned_policy, hsame]

/-- The epoch in the four layouts, with twenty minutes to the expiration. -/
def epochText (layout : String) (_ : ℤ) : Bytes :=
  if layout = "20060102" then bytesOf "19700101"
  else if layout = "20060102T150405Z" then bytesOf "19700101T000000Z"
  else if layout = "2006-01-02T15:04:05.000Z" then bytesOf "1970-01-01T00:20:00.000Z"
  else bytesOf "Thu, 01 Jan 1970 00:00:00 GMT"

def bucketURL : BaseURL := ⟨bytesOf "https://bucket.example", by decide +kernel⟩

def sampleClient : Client where
  endpoint := bucketURL
  publicBaseURL := bucketURL
  bucket := []
  region := bytesOf "cn-hangzhou"
  accessKeyID := bytesOf "id"
  accessKeySecret := bytesOf "secret"
  securityToken := []
  policyTTL := 20 * 60 * second
  maxUploadBytes := 1024
  uploads := by decide

def namedRequest (category : Bytes) : AcquireRequest :=
  ⟨category, bytesOf "upload.bin", [], 32⟩

def noBytes : Except String (Vector UInt8 16) := .error "unused"

/-- The digests of the secret on that day, and the one of the policy. -/
def epochDigest (policyDigest : String) (_ value : Bytes) : Bytes :=
  let digest :=
    if value = bytesOf "19700101" then
      "7aa50546d3e85e218f9fed13ebdfa676ef173525f772a9ee252f60b2c12112f2"
    else if value = bytesOf "cn-hangzhou" then
      "15a5f08ccf2100cd5b6dcab45c012fe545056e86e61893e0d80d2376c4cdd79d"
    else if value = bytesOf "oss" then
      "01e7b58812f926c3d4d976afe5a82cec51dcad3809aa5e6d725aca062cd47c5f"
    else if value = bytesOf "aliyun_v4_request" then
      "7c5574bb53af40bd513a17c9d1f2ea6e1ee18d7f6a49a22df2127111463e486c"
    else policyDigest
  (hexDecode (bytesOf digest)).toOption.getD []

def epoch (policyDigest : String) : Platform where
  parseURL := fun _ => some ⟨bytesOf "https", bytesOf "bucket.example", [], []⟩
  formatTime := epochText
  hmacSHA256 := epochDigest policyDigest

theorem acquire_named (x : Platform) {category : Bytes}
    (hcategory : cleanObjectKey category = .ok category) :
    acquire x sampleClient 0 noBytes (namedRequest category) =
      .ok (sampleClient.grant x 0 (category ++ slash :: bytesOf "upload.bin") 32) := by
  have hne : trimSpace (bytesOf "upload.bin") ≠ [] := by decide +kernel
  have hclean : cleanObjectName (trimSpace (bytesOf "upload.bin")) = .ok (bytesOf "upload.bin") := by
    decide +kernel
  have hname : grantedName noBytes (namedRequest category) = .ok (bytesOf "upload.bin") := by
    unfold grantedName
    dsimp only [namedRequest]
    rw [if_pos hne, hclean]
  have hbytes : sampleClient.grantedBytes (namedRequest category) = 32 := rfl
  unfold acquire
  rw [show (namedRequest category).category = category from rfl, hcategory]
  dsimp only
  rw [hname, hbytes]

/-- A category that is not UTF-8: the policy pins another key than the form has. -/
theorem broken_category_unpinned :
    ∃ response, acquire (epoch "8e5d5f9aca11b62216bbbefe5127881faeb8a538163eef5c1aac94685aa17a75")
        sampleClient 0 noBytes (namedRequest [255]) = .ok response ∧
      response.addForm.lookup "key" = some (255 :: bytesOf "/upload.bin") ∧
      ¬ Confined (epoch "8e5d5f9aca11b62216bbbefe5127881faeb8a538163eef5c1aac94685aa17a75")
        sampleClient (namedRequest [255]) response := by
  refine ⟨_, acquire_named _ (by decide +kernel), grant_key, ?_⟩
  rintro ⟨key, hgrants⟩
  exact absurd hgrants.replaced (by decide +kernel)

/-- The grant of the client test, under a name of the request. -/
theorem photo_grant_confined :
    Confined (epoch "861fa7cf168f11e5583477379180bc520f22827f802c1b5b7167fc0755a91aae")
      sampleClient (namedRequest (bytesOf "photo/a"))
      (sampleClient.grant
        (epoch "861fa7cf168f11e5583477379180bc520f22827f802c1b5b7167fc0755a91aae") 0
        (bytesOf "photo/a" ++ slash :: bytesOf "upload.bin") 32) := by
  have hclean : cleanObjectKey (bytesOf "photo/a") = .ok (bytesOf "photo/a") := by decide +kernel
  refine (grant_confined_iff (acquire_named _ hclean)).mpr ⟨?_, by decide +kernel⟩
  intro category hcategory
  rw [show (namedRequest (bytesOf "photo/a")).category = bytesOf "photo/a" from rfl, hclean]
    at hcategory
  rw [← Except.ok.inj hcategory]
  decide +kernel

end PapeSdk.UploadGrants
