import PapeSdk.ApplicationScoping
import PapeSdk.DecimalIntegers
import PapeSdk.EnvelopeRoundTrip
import PapeSdk.RequestSignatures

/-!
The fields of a request, as `form` of `internal/app/app.go` reads them. The
outer fields choose an application, its key checks the signature over them, and
the sealed field is opened with the same keys; its fields then stand in front
of the outer ones. The answer is sealed with the keys that were chosen, so that
a client and the server understand each other in both directions.
-/

namespace PapeSdk

open BlockModes TextCodecs DecimalIntegers

inductive FormError where
  | parse (text : String)
  | missingSignature
  | unknownApplication
  | wrongClient
  | wrongSignature
  | sealedData (fault : Fault)
  deriving DecidableEq

/-- What `form` returns, and the keys it leaves in the context of the request. -/
structure FormReading where
  result : Except FormError (TextMap Bytes)
  timestamp : Int64
  passportBFF : Option BFF

def FormReading.failed (e : FormError) : FormReading := ⟨.error e, 0, none⟩

/-- The fields without an order, listed in the order of their names. -/
def outerFields (out : TextMap Bytes) : OuterFields where
  entries := out.toList
  distinct := by
    rw [List.nodup_iff_pairwise_ne, List.pairwise_map]
    refine out.distinct_keys_toList.imp ?_
    intro a b h heq
    exact h (heq ▸ Std.ReflCmp.compare_self)

def lowerByte (b : UInt8) : UInt8 := if 65 ≤ b ∧ b ≤ 90 then b + 32 else b

/-- `strings.EqualFold` with the text of a digest, whose letters fold to ASCII only. -/
def foldsTo (signature digest : Bytes) : Bool :=
  signature.map lowerByte == digest.map lowerByte

def validSDKSignature (signature : Bytes) : Bool :=
  signature.length == 32 && (hexDecode signature).toBool

/-- `strconv.ParseInt` with the error ignored. -/
def readTimestamp (text : Bytes) : Int64 :=
  Int64.ofInt (parseInt (String.ofList (text.map fun b => Char.ofNat b.toNat))).1

/-- The opened fields replace outer fields of the same name. -/
def withInner (out : TextMap Bytes) (inner : StrMap String) : TextMap Bytes :=
  inner.toList.foldl (fun out entry => out.insert (bytesOf entry.1) (bytesOf entry.2)) out

namespace App

def needsSign (path : Bytes) (out : TextMap Bytes) : Bool :=
  (bytesOf "/v1/user/").isPrefixOf path || textAt out (bytesOf "data") != [] ||
    textAt out (bytesOf "timestamp") != []

/-- The application named in the request is configured, or it is one of the two built in. -/
def knowsApplication (a : App) (out : TextMap Bytes) : Bool :=
  let id := textAt out (bytesOf "app_id")
  a.cfg.applications.isEmpty || id == [] || id == a.userCenterBFF.appID || id == a.bff.appID ||
    (a.cfg.applications[id]?).isSome

/-- The client named beside a configured application is the client of that application. -/
def matchesClient (a : App) (out : TextMap Bytes) : Bool :=
  let id := textAt out (bytesOf "app_id")
  let clientID := firstNonEmpty [textAt out (bytesOf "clientid"), textAt out (bytesOf "client_id")]
  match a.cfg.applications[id]? with
  | none => true
  | some app => id == [] || clientID == [] || clientID == itoa app.clientID

/-- The check of the two signature fields; the shape of an SDK signature is enough for games. -/
def checksSignature (x : Primitives) (a : App) (bff : BFF) (out : TextMap Bytes) : Bool :=
  let sign := textAt out (bytesOf "sign")
  let sig := textAt out (bytesOf "sig")
  if sign ≠ [] then foldsTo sign (bff.sign x (outerFields out))
  else if sig ≠ [] then
    if a.forUserCenter out || !validSDKSignature sig then
      foldsTo sig (bff.sign x (outerFields out))
    else true
  else true

def form (x : Primitives) (a : App) (order : Order) (path : Bytes)
    (parsed : Except String Values) : FormReading :=
  match parsed with
  | .error text => .failed (.parse text)
  | .ok values =>
    let out := values.firstValues
    if needsSign path out && textAt out (bytesOf "sign") == [] &&
        textAt out (bytesOf "sig") == [] then .failed .missingSignature
    else if !a.knowsApplication out then .failed .unknownApplication
    else if !a.matchesClient out then .failed .wrongClient
    else
      let bff := a.bffFor order out
      if !checksSignature x a bff out then .failed .wrongSignature
      else
        let ts := readTimestamp (textAt out (bytesOf "timestamp"))
        if textAt out (bytesOf "data") ≠ [] ∧ ts ≠ 0 then
          match bff.decryptData x (textAt out (bytesOf "data")) ts with
          | .error e => ⟨.error (.sealedData e), ts, some bff⟩
          | .ok inner => ⟨.ok (withInner out inner), ts, some bff⟩
        else ⟨.ok out, ts, some bff⟩

/-- The keys for the answer; the default ones when `form` chose none. -/
def passportBFF (a : App) (reading : FormReading) : BFF := reading.passportBFF.getD a.bff

/-- The sealed data of an answer. -/
def encrypted (x : Primitives) (a : App) (reading : FormReading) (payload : JSONValue x.Number)
    (now : Int64) : Except Fault Bytes :=
  let timestamp := if reading.timestamp = 0 then now else reading.timestamp
  (a.passportBFF reading).encryptData x payload timestamp

end App

theorem bytesOf_injective {s t : String} (h : bytesOf s = bytesOf t) : s = t := by
  rw [bytesOf, bytesOf] at h
  exact String.toByteArray_inj.mp (ByteArray.ext (Array.ext' h))

theorem textAt_insert (out : TextMap Bytes) (key value k : Bytes) :
    textAt (out.insert key value) k = if key = k then value else textAt out k := by
  rw [textAt, Std.ExtTreeMap.getElem?_insert]
  by_cases hkey : key = k
  · rw [if_pos (by rw [hkey]; exact Std.ReflCmp.compare_self), if_pos hkey]
    rfl
  · rw [if_neg (fun h => hkey (Std.LawfulEqCmp.eq_of_compare h)), if_neg hkey]
    rfl

theorem outerFields_get (out : TextMap Bytes) (k : Bytes) :
    (outerFields out).get k = textAt out k := by
  rw [OuterFields.get, textAt]
  congr 1
  cases hfind : (outerFields out).entries.find? (·.1 == k) with
  | none =>
    cases hget : out[k]? with
    | none => rfl
    | some value =>
      have hmem : (k, value) ∈ out.toList :=
        Std.ExtTreeMap.mem_toList_iff_getElem?_eq_some.mpr hget
      have := List.find?_eq_none.mp hfind (k, value) hmem
      simp at this
  | some entry =>
    have hkey : entry.1 = k := by simpa using List.find?_some hfind
    have hmem : (entry.1, entry.2) ∈ out.toList := List.mem_of_find?_eq_some hfind
    rw [Std.ExtTreeMap.mem_toList_iff_getElem?_eq_some, hkey] at hmem
    rw [hmem]
    rfl

theorem textAt_withInner_other (inner : StrMap String) (out : TextMap Bytes) {k : Bytes}
    (hk : ∀ key ∈ inner, bytesOf key ≠ k) : textAt (withInner out inner) k = textAt out k := by
  have hlist : ∀ entries : List (String × String), (∀ entry ∈ entries, bytesOf entry.1 ≠ k) →
      ∀ out : TextMap Bytes, textAt (entries.foldl
        (fun out entry => out.insert (bytesOf entry.1) (bytesOf entry.2)) out) k = textAt out k := by
    intro entries
    induction entries with
    | nil => exact fun _ out => rfl
    | cons entry rest ih =>
      intro hall out
      rw [List.foldl_cons, ih fun e he => hall e (List.mem_cons_of_mem entry he), textAt_insert,
        if_neg (hall entry List.mem_cons_self)]
  refine hlist inner.toList ?_ out
  intro entry hentry
  have hget : inner[entry.1]? = some entry.2 :=
    Std.ExtTreeMap.mem_toList_iff_getElem?_eq_some.mp hentry
  exact hk entry.1 (Std.ExtTreeMap.mem_iff_isSome_getElem?.mpr (by rw [hget]; rfl))

theorem textAt_withInner (inner : StrMap String) (out : TextMap Bytes) {key value : String}
    (hget : inner[key]? = some value) :
    textAt (withInner out inner) (bytesOf key) = bytesOf value := by
  have hlist : ∀ entries : List (String × String),
      (∀ entry ∈ entries, entry.1 = key → entry.2 = value) → ∀ out : TextMap Bytes,
      (key, value) ∈ entries ∨ textAt out (bytesOf key) = bytesOf value →
      textAt (entries.foldl (fun out entry => out.insert (bytesOf entry.1) (bytesOf entry.2)) out)
        (bytesOf key) = bytesOf value := by
    intro entries
    induction entries with
    | nil =>
      rintro - out (hmem | hout)
      · cases hmem
      · exact hout
    | cons entry rest ih =>
      intro hall out hpresent
      rw [List.foldl_cons]
      refine ih (fun e he => hall e (List.mem_cons_of_mem entry he)) _ ?_
      rw [textAt_insert]
      by_cases hkey : entry.1 = key
      · rw [if_pos (congrArg bytesOf hkey), hall entry List.mem_cons_self hkey]
        exact Or.inr rfl
      · rw [if_neg (fun h => hkey (bytesOf_injective h))]
        rcases hpresent with hmem | hout
        · rcases List.mem_cons.mp hmem with rfl | hrest
          · exact absurd rfl hkey
          · exact Or.inl hrest
        · exact Or.inr hout
  refine hlist inner.toList ?_ out (Or.inl ?_)
  · intro entry hentry hkey
    have hentry : inner[entry.1]? = some entry.2 :=
      Std.ExtTreeMap.mem_toList_iff_getElem?_eq_some.mp hentry
    rw [hkey, hget] at hentry
    exact (Option.some.inj hentry).symm
  · exact Std.ExtTreeMap.mem_toList_iff_getElem?_eq_some.mpr hget

section
variable (x : Primitives)

theorem cbcDecryptBlocks_nil (c : BlockCipher) {iv : Bytes} (hiv : iv.length = c.blockSize) :
    cbcDecryptBlocks c iv [] = .ok [] := by
  rw [cbcDecryptBlocks, if_neg (by simp [hiv]), if_neg (by simp)]
  simp [cbcDecrypt, blocksOf, chainDecrypt]

theorem decryptDataWithParams_nil {p : Params} (hp : p.Fits) :
    decryptDataWithParams x [] p = .error (.message "invalid pkcs7 data") := by
  obtain ⟨c, hc, hsize⟩ := newBlock_fits x hp
  have hdecode : p.encoder.decode [] = .ok [] := by
    cases p.encoder <;> rfl
  have hblocks : decryptBlocks p c [] = .ok [] := by
    unfold decryptBlocks
    cases hmode : p.mode with
    | ecb => rfl
    | cbc => exact cbcDecryptBlocks_nil c ((hp.iv hmode).trans hsize.symm)
  rw [decryptDataWithParams, hdecode, hc]
  simp only [Except.mapError, bind, Except.bind, hblocks, List.length_nil, Nat.zero_mod, ne_eq,
    not_true_eq_false, if_false]
  rfl

/-- Empty data never opens. -/
theorem decryptData_nil (b : BFF) (timestamp : Int64) (fields : StrMap String) :
    b.decryptData x [] timestamp ≠ .ok fields := by
  rw [BFF.decryptData]
  by_cases hcenter : b.isAccountCenter = true
  · rw [if_pos hcenter, BFF.decryptAccountCenterData]
    have hdecode : base64Decode (restorePlus []) = .ok [] := rfl
    rw [hdecode]
    simp only [Except.mapError, bind, Except.bind, List.length_nil, Nat.zero_mod, ne_eq,
      not_true_eq_false, if_false]
    intro h
    split at h
    · cases h
    next c hc =>
    split at h
    · cases h
    next iv hiv =>
    by_cases hlength : iv.length = c.blockSize
    · rw [cbcDecryptBlocks_nil c hlength] at h
      cases h
    · rw [cbcDecryptBlocks, if_pos hlength] at h
      cases h
  · rw [if_neg hcenter]
    obtain ⟨p, hparams, -, hp⟩ : ∃ p, b.params x timestamp = .ok p ∧ _ ∧ p.Fits :=
      paramsWithEncoder_fits x b timestamp _
    obtain ⟨alt, halt, -, hfits⟩ := paramsWithEncoder_fits x b timestamp p.encoder.other
    simp only [hparams, bind, Except.bind, decryptDataWithParams_nil x hp, halt,
      decryptDataWithParams_nil x hfits]
    intro h
    cases h

end

/-- The outer fields of a request with its sealed data and its signature. -/
def sealedRequest (outer : TextMap Bytes) (data sign : Bytes) : TextMap Bytes :=
  (outer.insert (bytesOf "data") data).insert (bytesOf "sign") sign

section
variable {x : Primitives} {a : App} {order : Order} {path : Bytes} {outer : TextMap Bytes}
  {data sign : Bytes}

theorem textAt_sealedRequest {k : Bytes} (hdata : k ≠ bytesOf "data") (hsign : k ≠ bytesOf "sign") :
    textAt (sealedRequest outer data sign) k = textAt outer k := by
  rw [sealedRequest, textAt_insert, if_neg (Ne.symm hsign), textAt_insert, if_neg (Ne.symm hdata)]

theorem textAt_sealedRequest_data :
    textAt (sealedRequest outer data sign) (bytesOf "data") = data := by
  rw [sealedRequest, textAt_insert, if_neg (by decide), textAt_insert, if_pos rfl]

theorem textAt_sealedRequest_sign :
    textAt (sealedRequest outer data sign) (bytesOf "sign") = sign := by
  rw [sealedRequest, textAt_insert, if_pos rfl]

/-- The fields that choose the keys and pass the checks in front of the signature. -/
def choosingFields : List Bytes :=
  [bytesOf "app_id", bytesOf "clientid", bytesOf "client_id", bytesOf "region", bytesOf "channel",
    bytesOf "sdk_channel"]

/-- Requests that agree on the choosing fields are checked with the same keys. -/
theorem bffFor_congr (a : App) (order : Order) {out out' : TextMap Bytes}
    (h : ∀ k ∈ choosingFields, textAt out k = textAt out' k) :
    a.forUserCenter out = a.forUserCenter out' ∧ a.bffFor order out = a.bffFor order out' ∧
      a.knowsApplication out = a.knowsApplication out' ∧
      a.matchesClient out = a.matchesClient out' := by
  simp only [choosingFields, List.mem_cons, List.not_mem_nil, or_false, forall_eq_or_imp,
    forall_eq] at h
  obtain ⟨hid, hclientid, hclientID, hregion, hchannel, hsdk⟩ := h
  refine ⟨?_, ?_, ?_, ?_⟩
  · simp only [App.forUserCenter, hid, hclientid]
  · simp only [App.bffFor, App.forUserCenter, hid, hclientid, hclientID, hregion, hchannel, hsdk]
    all_goals rfl
  · simp only [App.knowsApplication, hid]
  · simp only [App.matchesClient, hid, hclientid, hclientID]

theorem sign_congr (b : BFF) {out out' : TextMap Bytes}
    (h : ∀ k ∉ OuterFields.unsigned, textAt out k = textAt out' k) :
    b.sign x (outerFields out) = b.sign x (outerFields out') := by
  refine OuterFields.sign_of_get x b ?_
  intro k hk
  rw [outerFields_get, outerFields_get, h k hk]

theorem sign_ne_nil (b : BFF) (outer : OuterFields) : b.sign x outer ≠ [] := by
  intro h
  have hlength := congrArg List.length h
  rw [BFF.sign, length_hexEncode, hmacMD5, x.length_md5] at hlength
  cases hlength

/-- What the checks say about a sealed request, in terms of its outer fields. -/
theorem sealedRequest_checks (x : Primitives) (a : App) (order : Order) (outer : TextMap Bytes)
    (data sign : Bytes) :
    a.bffFor order (sealedRequest outer data sign) = a.bffFor order outer ∧
      a.knowsApplication (sealedRequest outer data sign) = a.knowsApplication outer ∧
      a.matchesClient (sealedRequest outer data sign) = a.matchesClient outer ∧
      (sign ≠ [] → ∀ b, App.checksSignature x a b (sealedRequest outer data sign) =
        foldsTo sign (b.sign x (outerFields outer))) := by
  have hchoosing : ∀ k ∈ choosingFields,
      textAt (sealedRequest outer data sign) k = textAt outer k := by
    intro k hk
    have hall : ∀ k ∈ choosingFields, k ≠ bytesOf "data" ∧ k ≠ bytesOf "sign" := by decide
    exact textAt_sealedRequest (hall k hk).1 (hall k hk).2
  obtain ⟨-, hbff, hknows, hmatches⟩ := bffFor_congr a order hchoosing
  refine ⟨hbff, hknows, hmatches, ?_⟩
  intro hsign b
  have hdigest : b.sign x (outerFields (sealedRequest outer data sign)) =
      b.sign x (outerFields outer) := by
    refine sign_congr b ?_
    intro k hk
    simp only [OuterFields.unsigned, List.mem_cons, List.not_mem_nil, or_false, not_or] at hk
    exact textAt_sealedRequest hk.2.2 hk.1
  rw [App.checksSignature]
  simp only [textAt_sealedRequest_sign, hsign, ne_eq, not_false_eq_true, if_true, hdigest]

/-- A signed request is opened as soon as the digest of its outer fields fits. -/
theorem form_sealedRequest (path : Bytes) {values : Values}
    (hvalues : values.firstValues = sealedRequest outer data sign) (hsign : sign ≠ [])
    (hknows : a.knowsApplication outer = true) (hmatches : a.matchesClient outer = true)
    (hfits : foldsTo sign ((a.bffFor order outer).sign x (outerFields outer)) = true)
    (hdata : data ≠ []) (hts : readTimestamp (textAt outer (bytesOf "timestamp")) ≠ 0) :
    a.form x order path (.ok values) =
      match (a.bffFor order outer).decryptData x data
        (readTimestamp (textAt outer (bytesOf "timestamp"))) with
      | .error e => ⟨.error (.sealedData e),
          readTimestamp (textAt outer (bytesOf "timestamp")), some (a.bffFor order outer)⟩
      | .ok inner => ⟨.ok (withInner (sealedRequest outer data sign) inner),
          readTimestamp (textAt outer (bytesOf "timestamp")), some (a.bffFor order outer)⟩ := by
  obtain ⟨hbff, hknows', hmatches', hchecks⟩ := sealedRequest_checks x a order outer data sign
  have htime : textAt (sealedRequest outer data sign) (bytesOf "timestamp") =
      textAt outer (bytesOf "timestamp") := textAt_sealedRequest (by decide) (by decide)
  have hunsigned : (textAt (sealedRequest outer data sign) (bytesOf "sign") == []) = false := by
    rw [textAt_sealedRequest_sign]
    simpa using hsign
  rw [App.form]
  simp only [hvalues, hunsigned, Bool.and_false, Bool.false_and, Bool.false_eq_true, if_false,
    hknows', hknows, Bool.not_true, hmatches', hmatches, hbff, hchecks hsign, hfits,
    textAt_sealedRequest_data, htime]
  rw [if_pos ⟨hdata, hts⟩]

/-- Behind an accepted signed request all checks were passed. -/
theorem checks_of_accepted {values : Values}
    (hvalues : values.firstValues = sealedRequest outer data sign) (hsign : sign ≠ [])
    {fields : TextMap Bytes} (h : (a.form x order path (.ok values)).result = .ok fields) :
    a.knowsApplication outer = true ∧ a.matchesClient outer = true ∧
      foldsTo sign ((a.bffFor order outer).sign x (outerFields outer)) = true := by
  obtain ⟨hbff, hknows, hmatches, hchecks⟩ := sealedRequest_checks x a order outer data sign
  rw [App.form] at h
  simp only [hvalues, hknows, hmatches, hbff, hchecks hsign] at h
  split at h
  · cases h
  split at h
  · cases h
  next hknown =>
  split at h
  · cases h
  next hmatch =>
  split at h
  · cases h
  next hfits =>
  exact ⟨by simpa using hknown, by simpa using hmatch, by simpa using hfits⟩

/-- What the keys seal, the same keys open at the same time. -/
theorem decryptData_of_encryptData {b : BFF} {m : StrMap String} {value : Bytes} {ts : Int64}
    (hm : x.RoundTrips (some m)) (hvalue : b.encryptData x (jsonOf (some m)) ts = .ok value) :
    b.decryptData x value ts = .ok m :=
  (envelope_round_trip x b ts (some m) hm).1 value hvalue

/-- A client with the keys of its application and the server understand each other: the
server reads the sealed fields, and the client opens a sealed answer to what it reads in the
text of the answer. An answer of texts alone is read as it was. -/
theorem exchange_round_trip {fields : StrMap String} {values : Values}
    (hknows : a.knowsApplication outer = true) (hmatches : a.matchesClient outer = true)
    (hts : readTimestamp (textAt outer (bytesOf "timestamp")) ≠ 0)
    (hjson : x.RoundTrips (some fields))
    (hsealed : (a.bffFor order outer).encryptData x (jsonOf (some fields))
      (readTimestamp (textAt outer (bytesOf "timestamp"))) = .ok data)
    (hvalues : values.firstValues = sealedRequest outer data
      ((a.bffFor order outer).sign x (outerFields outer))) :
    (∃ read, (a.form x order path (.ok values)).result = .ok read ∧
      (∀ key value, fields[key]? = some value → textAt read (bytesOf key) = bytesOf value) ∧
      ∀ k ∉ OuterFields.unsigned, (∀ key ∈ fields, bytesOf key ≠ k) →
        textAt read k = textAt outer k) ∧
    (∀ payload now answer,
      a.encrypted x (a.form x order path (.ok values)) payload now = .ok answer →
      ∃ plain, x.marshalJSON payload = .ok plain ∧
        ∀ printed, x.readFields plain = .ok printed →
          (a.bffFor order outer).decryptData x answer
            (readTimestamp (textAt outer (bytesOf "timestamp"))) = .ok printed) ∧
    ∀ reply now answer, x.RoundTrips (some reply) →
      a.encrypted x (a.form x order path (.ok values)) (jsonOf (some reply)) now = .ok answer →
      (a.bffFor order outer).decryptData x answer
        (readTimestamp (textAt outer (bytesOf "timestamp"))) = .ok reply := by
  have hinner := decryptData_of_encryptData hjson hsealed
  have hdata : data ≠ [] := by
    rintro rfl
    exact decryptData_nil x _ _ _ hinner
  have hfits : foldsTo ((a.bffFor order outer).sign x (outerFields outer))
      ((a.bffFor order outer).sign x (outerFields outer)) = true := by
    rw [foldsTo]
    exact beq_self_eq_true _
  have hreading := form_sealedRequest path hvalues (sign_ne_nil _ _) hknows hmatches hfits hdata hts
  rw [hinner] at hreading
  have hanswered : ∀ payload now, a.encrypted x (a.form x order path (.ok values)) payload now =
      (a.bffFor order outer).encryptData x payload
        (readTimestamp (textAt outer (bytesOf "timestamp"))) := by
    intro payload now
    rw [hreading, App.encrypted]
    simp only [App.passportBFF, Option.getD_some, hts, if_false]
  refine ⟨?_, ?_, ?_⟩
  · refine ⟨_, congrArg FormReading.result hreading, ?_, ?_⟩
    · intro key value hget
      exact textAt_withInner _ _ hget
    · intro k hk hnot
      simp only [OuterFields.unsigned, List.mem_cons, List.not_mem_nil, or_false, not_or] at hk
      rw [textAt_withInner_other _ _ hnot, textAt_sealedRequest hk.2.2 hk.1]
  · intro payload now answer hanswer
    rw [hanswered] at hanswer
    obtain ⟨plain, hplain⟩ := marshalJSON_of_sealed hanswer
    exact ⟨plain, hplain, fun printed hread => decryptData_of_sealed hplain hread hanswer⟩
  · intro reply now answer hreply hanswer
    rw [hanswered] at hanswer
    exact decryptData_of_encryptData hreply hanswer

/-- The signature does not bind the sealed data: data sealed with the same keys at the same
time is read in place of the data a request was accepted with. -/
theorem sealed_data_can_be_exchanged {fields : StrMap String} {values values' : Values}
    {read : TextMap Bytes} {data' : Bytes}
    (hvalues : values.firstValues = sealedRequest outer data sign) (hsign : sign ≠ [])
    (haccepted : (a.form x order path (.ok values)).result = .ok read)
    (hts : readTimestamp (textAt outer (bytesOf "timestamp")) ≠ 0)
    (hjson : x.RoundTrips (some fields))
    (hsealed : (a.bffFor order outer).encryptData x (jsonOf (some fields))
      (readTimestamp (textAt outer (bytesOf "timestamp"))) = .ok data')
    (hvalues' : values'.firstValues = sealedRequest outer data' sign) :
    ∃ read', (a.form x order path (.ok values')).result = .ok read' ∧
      ∀ key value, fields[key]? = some value → textAt read' (bytesOf key) = bytesOf value := by
  obtain ⟨hknows, hmatches, hfits⟩ := checks_of_accepted hvalues hsign haccepted
  have hinner := decryptData_of_encryptData hjson hsealed
  have hdata : data' ≠ [] := by
    rintro rfl
    exact decryptData_nil x _ _ _ hinner
  have hreading := form_sealedRequest path hvalues' hsign hknows hmatches hfits hdata hts
  rw [hinner] at hreading
  exact ⟨_, congrArg FormReading.result hreading, fun key value hget => textAt_withInner _ _ hget⟩

end

/-- A posted form with one value for every field. -/
def Values.ofFields (fields : TextMap Bytes) : Values := fields.map fun _ value => [value]

theorem Values.firstValues_ofFields (fields : TextMap Bytes) :
    (Values.ofFields fields).firstValues = fields := by
  refine Std.ExtTreeMap.ext_getElem? ?_
  intro k
  rw [Values.firstValues, Std.ExtTreeMap.getElem?_filterMap', Values.ofFields,
    Std.ExtTreeMap.getElem?_map]
  cases fields[k]? with
  | none => rfl
  | some value => rfl

/-- The server of the recorded exchange; it has no applications of its own. -/
def recordedServer : App where
  cfg := ⟨∅, [], Constants.zero, [], Constants.zero, ∅, ⟨true, []⟩⟩
  bff := recordedApp
  userCenterBFF := ⟨[], [], []⟩
  userCenterClientID := []

def recordedOuter : TextMap Bytes :=
  ((∅ : TextMap Bytes).insert (bytesOf "timestamp") (bytesOf "1700000001")).insert
    (bytesOf "app_id") (bytesOf "1010001")

def recordedValues (data sign : Bytes) : Values :=
  .ofFields (sealedRequest recordedOuter data sign)

def recordedData : Bytes := bytesOf "m7Fk8TNJRHpLBIL3Tw6Rvw=="

theorem recordedServer_chooses :
    recordedServer.bffFor [] recordedOuter = recordedApp ∧
      readTimestamp (textAt recordedOuter (bytesOf "timestamp")) = 1700000001 := by
  decide +kernel

def recordedSign : Bytes :=
  (recordedServer.bffFor [] recordedOuter).sign recorded (outerFields recordedOuter)

theorem recorded_request_is_read :
    ∃ read, (recordedServer.form recorded [] []
        (.ok (recordedValues recordedData recordedSign))).result = .ok read ∧
      textAt read (bytesOf "a") = bytesOf "1" ∧
      textAt read (bytesOf "app_id") = bytesOf "1010001" := by
  obtain ⟨hbff, hts⟩ := recordedServer_chooses
  obtain ⟨⟨read, hread, hinner, hkept⟩, -⟩ :=
    @exchange_round_trip recorded recordedServer [] [] recordedOuter recordedData recordedFields _
      (by decide +kernel) (by decide +kernel) (by rw [hts]; decide) recorded_roundTrips
      (by rw [hbff, hts]; exact recorded_exchange.1) (Values.firstValues_ofFields _)
  refine ⟨read, hread, hinner "a" "1" (by decide), ?_⟩
  rw [hkept (bytesOf "app_id") (by decide)]
  · decide +kernel
  · intro key hkey
    rcases Std.ExtTreeMap.mem_insert.mp hkey with hkey | hnone
    · rw [← Std.LawfulEqCmp.eq_of_compare hkey]
      decide
    · exact absurd hnone Std.ExtTreeMap.not_mem_empty

theorem recorded_data_is_added :
    ∃ read, (recordedServer.form recorded [] []
        (.ok (recordedValues recordedData recordedSign))).result = .ok read ∧
      textAt read (bytesOf "a") = bytesOf "1" := by
  obtain ⟨hbff, hts⟩ := recordedServer_chooses
  obtain ⟨read, haccepted⟩ : ∃ read, (recordedServer.form recorded [] []
      (.ok (recordedValues [] recordedSign))).result = .ok read := by
    cases hresult : (recordedServer.form recorded [] []
      (.ok (recordedValues [] recordedSign))).result with
    | ok read => exact ⟨read, rfl⟩
    | error e =>
      have hok : (recordedServer.form recorded [] []
        (.ok (recordedValues [] recordedSign))).result.isOk = true := by decide +kernel
      rw [hresult] at hok
      cases hok
  obtain ⟨read', hread', hinner⟩ := sealed_data_can_be_exchanged
    (Values.firstValues_ofFields (sealedRequest recordedOuter [] recordedSign)) (by decide +kernel)
    haccepted (by rw [hts]; decide) recorded_roundTrips
    (by rw [hbff, hts]; exact recorded_exchange.1)
    (Values.firstValues_ofFields (sealedRequest recordedOuter recordedData recordedSign))
  exact ⟨read', hread', hinner "a" "1" (by decide)⟩

end PapeSdk
