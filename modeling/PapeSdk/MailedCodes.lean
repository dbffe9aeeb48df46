import PapeSdk.MailDelivery
import PapeSdk.RegistrationPolicy
import PapeSdk.SupersededCodes
import PapeSdk.Utf8Texts

/-!
Codes for email addresses. `issueSMSForScene` draws a code, sends it with `sendEmailCode` and
stores it only when this has succeeded. So whatever code the site accepts for an email address,
in any run, was mailed to this address before.
-/

namespace PapeSdk

open BlockModes TextCodecs FilePaths DottedText Identifiers KeyedTables Utf8Texts EventRuns

/-- The text with these bytes. -/
def asciiText (text : Bytes) : String := String.ofList (text.map fun b => Char.ofNat b.toNat)

/-- A request whose code is drawn from `raw` and is sent to the address by mail. -/
def Request.mailing (request : Request) (config : Config) (cfg : Email) (system : MailSystem)
    (errorText : MailError → String) (raw : Option (Fin 6 → UInt8)) (address scene : String) :
    Request :=
  { request with
    digits := asciiText (randomDigits raw)
    sent := (sendEmailCode config cfg system (bytesOf address) (randomDigits raw)
      (bytesOf scene)).result.mapError errorText }

/-- The code has left for the address: in a note, or in a mail that its server has accepted and
in which a reader finds the code. -/
inductive CodeSent (cfg : Email) (system : MailSystem) (address code scene : Bytes)
    (outcome : MailOutcome) : Prop
  | noted (file : Path) (note : OutboxNote) (hnote : outcome.note = some (file, note))
      (haddress : note.address = address) (hcode : note.code = code) (hscene : note.scene = scene)
  | mailed (server : MailServer) (block : Sent)
      (hdial : system.dial (cfg.port == 465) (hostPort cfg.host cfg.port) = some server)
      (haccepted : MailAccepted server cfg address code outcome.sent)
      (hblock : block ∈ outcome.sent)
      (hread : receivedMessage block.bytes = some (codeMessage cfg.sender address code))

theorem bytesOf_asciiText {text : Bytes} (h : ∀ b ∈ text, b.toNat < 128) :
    bytesOf (asciiText text) = text := by
  have hbytes : (text.map fun b => Char.ofNat b.toNat).flatMap String.utf8EncodeChar = text := by
    induction text with
    | nil => rfl
    | cons b rest ih =>
      obtain ⟨hb, hrest⟩ := List.forall_mem_cons.mp h
      rw [List.map_cons, List.flatMap_cons, utf8EncodeChar_ascii hb, ih hrest]
      rfl
  show (List.utf8Encode _).data.toList = text
  rw [List.utf8Encode, hbytes, List.data_toByteArray]

theorem randomDigits_ascii (raw : Option (Fin 6 → UInt8)) :
    ∀ b ∈ randomDigits raw, b.toNat < 128 := by
  cases raw with
  | none =>
    unfold randomDigits
    decide +kernel
  | some raw =>
    intro b hb
    obtain ⟨v, -, rfl⟩ := List.mem_map.mp hb
    rw [UInt8.toNat_ofNat']
    omega

theorem randomDigits_ne_nil (raw : Option (Fin 6 → UInt8)) : randomDigits raw ≠ [] := by
  cases raw with
  | none =>
    unfold randomDigits
    decide +kernel
  | some raw => simp [randomDigits]

theorem drawn_ne_empty (raw : Option (Fin 6 → UInt8)) : asciiText (randomDigits raw) ≠ "" := by
  intro hempty
  have hbytes := bytesOf_asciiText (randomDigits_ascii raw)
  rw [hempty] at hbytes
  exact randomDigits_ne_nil raw hbytes.symm

theorem MailAccepted.unbroken {server : MailServer} {cfg : Email} {address code : Bytes}
    {sent : List Sent} (h : MailAccepted server cfg address code sent) :
    Unbroken cfg.sender ∧ Unbroken address := by
  obtain ⟨front, ext, hinvited, -, -⟩ := h
  exact hinvited.unbroken

theorem codeSent_of_ok {config : Config} {cfg : Email} {system : MailSystem}
    {address code scene : Bytes} (hcode : Unbroken code)
    (h : (sendEmailCode config cfg system address code scene).result = .ok ()) :
    CodeSent cfg.withPort system address code scene
      (sendEmailCode config cfg system address code scene) := by
  unfold sendEmailCode at h ⊢
  split
  · next hmode =>
    rw [if_pos hmode] at h
    dsimp only at h ⊢
    split
    · next e hdir =>
      rw [hdir] at h
      cases h
    next hdir =>
    rw [hdir] at h
    dsimp only at h
    split
    · next e hfile =>
      rw [hfile] at h
      cases h
    · exact .noted _ _ rfl rfl rfl rfl
  next hmode =>
  rw [if_neg hmode] at h
  split
  · next hunset =>
    rw [if_pos hunset] at h
    cases h
  next hset =>
  rw [if_neg hset] at h
  dsimp only at h ⊢
  split
  · next hdial =>
    rw [hdial] at h
    cases h
  next server hdial =>
  rw [hdial] at h
  dsimp only at h
  rcases hrun : deliverMail server cfg.withPort address code (newClient cfg.withPort) with
    ⟨c, e | u⟩
  · rw [hrun] at h
    cases h
  obtain ⟨haccepted, -⟩ := (deliverMail_ensures server cfg.withPort address code).ok
    (newClient_fresh cfg.withPort) hrun
  obtain ⟨hsender, haddress⟩ := haccepted.unbroken
  exact .mailed server _ hdial haccepted haccepted.mem
    (receivedMessage_textBlock hsender haddress hcode)

section
variable {auth : AuthConfig} {env : Externals} {request : Request} {w w' w'' : World}
  {phone address scene code ip : String} {authenticated : Bool}

/-- Every row is an older one, perhaps used up meanwhile, or has a fitting address and code. -/
def RowsFrom (w w' : World) (fits : String → String → Prop) : Prop :=
  ∀ r ∈ w'.db.smsVerifications.rows,
    (∃ r' ∈ w.db.smsVerifications.rows, r'.phone = r.phone ∧ r'.code = r.code) ∨
      fits r.phone r.code

variable {fits : String → String → Prop}

theorem RowsFrom.of_same (h : w'.db.smsVerifications = w.db.smsVerifications) :
    RowsFrom w w' fits := by
  intro r hr
  rw [h] at hr
  exact Or.inl ⟨r, hr, rfl, rfl⟩

theorem RowsFrom.trans (h : RowsFrom w w' fits) (h' : RowsFrom w' w'' fits) :
    RowsFrom w w'' fits := by
  intro r hr
  rcases h' r hr with ⟨r', hr', hphone, hcode⟩ | hfits
  · have hbefore := h r' hr'
    rw [hphone, hcode] at hbefore
    exact hbefore
  · exact Or.inr hfits

theorem RowsFrom.consume (w : World) (id : ℕ) : RowsFrom w (w.consume id) fits := by
  intro r hr
  rcases consumed_row hr with ⟨hold, -⟩ | ⟨a, ha, -, -, rfl⟩
  · exact Or.inl ⟨r, hold, rfl, rfl⟩
  · exact Or.inl ⟨a, ha, rfl, rfl⟩

theorem RowsFrom.insert (haddress : normalizeAccount env phone = .ok address)
    (hfits : fits address code) : RowsFrom w (insertSMS env w phone scene code ip).1 fits := by
  rcases hcall : insertSMS env w phone scene code ip with ⟨w', result⟩
  rcases insertSMS_cases hcall with ⟨_, -, rfl⟩ | ⟨x, rows, -, hx, hrows, rfl⟩
  · exact RowsFrom.of_same rfl
  · rw [haddress] at hx
    cases hx
    intro r hr
    rcases (Table.mem_insert? hrows).mp hr with hold | rfl
    · exact Or.inl ⟨r, hold, rfl, rfl⟩
    · exact Or.inr hfits

theorem RowsFrom.issue (haddress : normalizeAccount env address = .ok address)
    (hfits : fits address code) (h : issueSMS env w address scene code ip = (w', .ok ())) :
    RowsFrom w w' fits := by
  have hinsert : RowsFrom w (insertSMS env w address scene code ip).1 fits :=
    RowsFrom.insert haddress hfits
  unfold issueSMS at h
  split at h
  · cases h
  next v heq =>
  cases h
  rw [heq] at hinsert
  exact hinsert

theorem RowsFrom.mirror {scenes : List String} (h : RowsFrom w w' fits)
    (haddress : normalizeAccount env phone = .ok address) (hfits : fits address code) :
    RowsFrom w (mirrorSMSCode env w' phone code ip scenes) fits := by
  unfold mirrorSMSCode
  induction uniqueScenes scenes generalizing w' with
  | nil => exact h
  | cons scene rest ih =>
    rw [List.foldl_cons]
    exact ih (h.trans (RowsFrom.insert haddress hfits))

theorem issueSMSForScene_rows
    (hfits : ∀ address code, normalizeAccount env phone = .ok address →
      request.SentTo address code → fits address code) :
    RowsFrom w (issueSMSForScene auth env request w phone scene authenticated).1 fits := by
  rcases hcall : issueSMSForScene auth env request w phone scene authenticated with ⟨w', result⟩
  rcases issueSMSForScene_ends hcall with
    ⟨rfl, -⟩ | ⟨address, ip, code, haddress, hsent, -, hissue⟩
  · exact RowsFrom.of_same rfl
  · exact RowsFrom.issue (normalizeAccount_idem haddress) (hfits address code haddress hsent)
      hissue

theorem issueAndMirror_rows {scenes : List String}
    (hfits : ∀ address code, normalizeAccount env phone = .ok address →
      request.SentTo address code → fits address code) :
    RowsFrom w ((issueAndMirror auth env request w phone scene authenticated scenes).run env).1
      fits := by
  unfold issueAndMirror
  rcases hcall : issueSMSForScene auth env request w phone scene authenticated with ⟨w', result⟩
  rcases issueSMSForScene_ends hcall with
    ⟨rfl, hnone⟩ | ⟨address, ip, code, haddress, hsent, rfl, hissue⟩
  · rcases result with e | _ | code
    · exact RowsFrom.of_same rfl
    · exact RowsFrom.of_same rfl
    · exact absurd rfl (hnone code)
  · have hfit := hfits address code haddress hsent
    exact (RowsFrom.issue (normalizeAccount_idem haddress) hfit hissue).mirror haddress hfit

/-- The account and the scene that a form asks a code for. -/
def formRecipient (request : Request) (w : World) (scene : String) : Option (String × String) :=
  match request.form with
  | .error _ => none
  | .ok form =>
    match phoneForSMS w form with
    | .error _ => none
    | .ok phone => some (phone, orDefault (form.get "scene") scene)

/-- The account and the scene that a request asks a code for. -/
def Handler.recipient (env : Externals) (request : Request) (w : World) :
    Handler → Option (String × String)
  | .sendCode => formRecipient request w "account"
  | .sendCodeWithData => formRecipient request w "password"
  | .userCenterSendCode =>
    match normalizeAccount env (request.post.get "phone") with
    | .error _ => none
    | .ok phone => some (phone, (request.post.lookup "scene").getD "usercenter")
  | _ => none

/-- A request stores no other code than one for its recipient. -/
theorem serve_rows {h : Handler}
    (hfits : ∀ phone scene address code, h.recipient env request w = some (phone, scene) →
      normalizeAccount env phone = .ok address → request.SentTo address code →
      fits address code) :
    RowsFrom w (serve auth env h request w).1 fits := by
  unfold PapeSdk.serve
  cases hsend : h.isSend with
  | false =>
    have hcalls : (h.plan auth env request w).Calls env h request w := Handler.calls hsend
    obtain ⟨hbefore, hafter⟩ := hcalls.follows
    cases haccepts : (h.plan auth env request w).accepts env with
    | none =>
      rw [Plan.run_of_none haccepts]
      exact RowsFrom.of_same hbefore.sameCodes.rows
    | some id =>
      rw [Plan.run_of_some haccepts]
      exact ((RowsFrom.of_same hbefore.sameCodes.rows).trans (RowsFrom.consume _ id)).trans
        (RowsFrom.of_same (hafter _).sameCodes.rows)
  | true =>
    cases h with
    | sendCode | sendCodeWithData =>
      -- the two differ in their scenes only
      simp only [Handler.recipient, formRecipient] at hfits
      simp only [Handler.plan, PapeSdk.sendCode, PapeSdk.sendCodeWithData]
      split
      · exact RowsFrom.of_same rfl
      next form hform =>
      rw [hform] at hfits
      dsimp only at hfits
      split
      · exact RowsFrom.of_same rfl
      next phone hphone =>
      rw [hphone] at hfits
      exact issueAndMirror_rows fun address code => hfits _ _ address code rfl
    | userCenterSendCode =>
      rw [Handler.recipient] at hfits
      rw [Handler.plan, PapeSdk.userCenterSendCode]
      split
      · exact RowsFrom.of_same rfl
      split
      · exact RowsFrom.of_same rfl
      next phone hphone =>
      rw [hphone] at hfits
      dsimp only at hfits ⊢
      generalize (request.post.lookup "scene").getD "usercenter" = scene at hfits ⊢
      have hissued : RowsFrom w (issueSMSForScene auth env request w phone scene false).1 fits :=
        issueSMSForScene_rows fun address code => hfits _ _ address code rfl
      rcases hcall : issueSMSForScene auth env request w phone scene false with ⟨w', e | code⟩
      · rw [hcall] at hissued
        exact hissued
      · rw [hcall] at hissued
        exact hissued
    | _ => cases hsend

end

/-- A request to a handler, with the randomness and the network that it meets, or another
operation of the store. -/
inductive MailLabel
  | request (h : Handler) (request : Request) (raw : Option (Fin 6 → UInt8)) (system : MailSystem)
  | other (op : Op)

/-- What the site is configured with. -/
structure MailSite where
  auth : AuthConfig
  config : Config
  email : Email
  env : Externals
  errorText : MailError → String

/-- A request for an email address sends its code with `sendEmailCode`. -/
def MailSite.mailed (site : MailSite) (w : World) (h : Handler) (request : Request)
    (raw : Option (Fin 6 → UInt8)) (system : MailSystem) : Request :=
  match h.recipient site.env request w with
  | none => request
  | some (phone, scene) =>
    match normalizeAccount site.env phone with
    | .error _ => request
    | .ok address =>
      if hasAt address then
        request.mailing site.config site.email system site.errorText raw address scene
      else request

def MailSite.perform (site : MailSite) (w : World) : MailLabel → World
  | .request h request raw system =>
    (serve site.auth site.env h (site.mailed w h request raw system) w).1
  | .other op => (exec site.env w op).1

def Op.storesCode : Op → Bool
  | .issueSMS .. | .mirrorSMS .. => true
  | _ => false

/-- Codes are stored by requests only: nothing else calls `IssueSMS` and `MirrorSMS`. -/
def MailSite.Step (site : MailSite) (w : World) (l : MailLabel) (w' : World) : Prop :=
  (∀ op, l = .other op → op.storesCode = false) ∧ site.perform w l = w'

/-- The code was drawn for this request and has left for the address. -/
def MailLabel.Mails (site : MailSite) (address code : String) : MailLabel → Prop
  | .request _ _ raw system =>
    bytesOf code = randomDigits raw ∧ ∃ scene,
      CodeSent site.email.withPort system (bytesOf address) (bytesOf code) scene
        (sendEmailCode site.config site.email system (bytesOf address) (bytesOf code) scene)
  | .other _ => False

section
variable {site : MailSite} {w w' : World} {h : Handler} {request : Request}
  {raw : Option (Fin 6 → UInt8)} {system : MailSystem} {l : MailLabel}
  {phone address scene code : String}

/-- The mail changes nothing about the one to whom it goes. -/
theorem MailSite.recipient_mailed :
    h.recipient site.env (site.mailed w h request raw system) w =
      h.recipient site.env request w := by
  have hsame : ∀ address scene, h.recipient site.env (request.mailing site.config site.email
      system site.errorText raw address scene) w = h.recipient site.env request w := by
    intro address scene
    cases h <;> rfl
  unfold MailSite.mailed
  cases hrecipient : h.recipient site.env request w with
  | none => exact hrecipient
  | some recipient =>
    dsimp only
    cases normalizeAccount site.env recipient.1 with
    | error e => exact hrecipient
    | ok address =>
      dsimp only
      split
      · rw [hsame, hrecipient]
      · exact hrecipient

theorem MailSite.mailed_mails
    (hrecipient : h.recipient site.env (site.mailed w h request raw system) w =
      some (phone, scene))
    (haddress : normalizeAccount site.env phone = .ok address)
    (hsent : (site.mailed w h request raw system).SentTo address code)
    (hmail : hasAt address = true) :
    (MailLabel.request h request raw system).Mails site address code := by
  rw [MailSite.recipient_mailed] at hrecipient
  have hmailed : site.mailed w h request raw system = request.mailing site.config site.email
      system site.errorText raw address scene := by
    unfold MailSite.mailed
    rw [hrecipient]
    dsimp only
    rw [haddress]
    dsimp only
    rw [if_pos hmail]
  rw [hmailed] at hsent
  obtain ⟨hok, hdrawn⟩ := hsent hmail
  have hbytes : bytesOf code = randomDigits raw := by
    rw [hdrawn (drawn_ne_empty raw)]
    exact bytesOf_asciiText (randomDigits_ascii raw)
  have hresult : (sendEmailCode site.config site.email system (bytesOf address)
      (randomDigits raw) (bytesOf scene)).result = .ok () := by
    unfold Request.mailing at hok
    dsimp only at hok
    cases hend : (sendEmailCode site.config site.email system (bytesOf address)
      (randomDigits raw) (bytesOf scene)).result with
    | ok u => rfl
    | error e =>
      rw [hend] at hok
      cases hok
  refine ⟨hbytes, bytesOf scene, ?_⟩
  rw [hbytes]
  exact codeSent_of_ok (randomDigits_unbroken raw) hresult

theorem exec_codes {env : Externals} {op : Op} {fits : String → String → Prop}
    (hinv : StoreInv env w) (hop : op.storesCode = false) :
    RowsFrom w (exec env w op).1 fits := by
  cases hcall : op.isCall with
  | true =>
    have hchanges : Changes env w (exec env w op).1 := exec_changes w hcall
    exact RowsFrom.of_same hchanges.sameCodes.rows
  | false =>
    cases op with
    | setCancellation userID status cancelAt => exact RowsFrom.of_same rfl
    | reopen =>
      simp only [exec, report_fst, openStore_of_inv hinv]
      exact RowsFrom.of_same rfl
    | advance n => exact RowsFrom.of_same rfl
    | issueSMS phone scene code ip => cases hop
    | mirrorSMS phone scene code ip => cases hop
    | verifySMS phone scene code =>
      simp only [exec, report_fst]
      unfold verifySMS
      split
      · exact RowsFrom.of_same rfl
      · next id hfind =>
        rw [consumeSMS_of_find hfind]
        exact RowsFrom.consume w id
    | _ => cases hcall

theorem MailSite.Step.rows (hinv : StoreInv site.env w) (hstep : site.Step w l w') :
    RowsFrom w w' fun address code => hasAt address = true → l.Mails site address code := by
  obtain ⟨hallowed, rfl⟩ := hstep
  cases l with
  | request h request raw system =>
    exact serve_rows fun _ _ _ _ hrecipient haddress hsent hmail =>
      MailSite.mailed_mails hrecipient haddress hsent hmail
  | other op => exact exec_codes hinv (hallowed op rfl)

theorem MailSite.Step.inv (hinv : StoreInv site.env w) (hstep : site.Step w l w') :
    StoreInv site.env w' := by
  obtain ⟨-, rfl⟩ := hstep
  cases l with
  | request h request raw system => exact hinv.serve h _
  | other op => exact hinv.exec op

/-- Every code that is stored for an email address was mailed by an earlier request. -/
theorem MailSite.stored_mailed {start : ℕ} {log : List MailLabel}
    (hrun : Run site.Step (World.fresh site.env start) log w) :
    StoreInv site.env w ∧ ∀ r ∈ w.db.smsVerifications.rows, hasAt r.phone = true →
      ∃ l ∈ log, l.Mails site r.phone r.code := by
  refine hrun.history (P := fun log w => StoreInv site.env w ∧
    ∀ r ∈ w.db.smsVerifications.rows, hasAt r.phone = true →
      ∃ l ∈ log, l.Mails site r.phone r.code) ?_ ⟨StoreInv.fresh start, ?_⟩
  · rintro before a l b - ⟨hinv, hmailed⟩ hstep
    refine ⟨hstep.inv hinv, fun r hr hmail => ?_⟩
    rcases hstep.rows hinv r hr with ⟨r', hr', hphone, hcode⟩ | hnew
    · rw [← hphone] at hmail
      obtain ⟨l', hl', hearlier⟩ := hmailed r' hr' hmail
      rw [hphone, hcode] at hearlier
      exact ⟨l', List.mem_append_left _ hl', hearlier⟩
    · exact ⟨l, List.mem_append_right _ (List.mem_singleton.mpr rfl), hnew hmail⟩
  · intro r hr
    cases hr

/-- Whatever code is accepted for an email address was drawn for an earlier request and has left
for this address, in a mail that its server had accepted or in a note. -/
theorem accepted_codes_were_mailed {start : ℕ} {log : List MailLabel}
    (hrun : Run site.Step (World.fresh site.env start) log w)
    (haddress : normalizeAccount site.env phone = .ok address) (hmail : hasAt address = true)
    (haccepted : (verifySMS site.env w phone scene code).2 = .ok ()) :
    ∃ l ∈ log, l.Mails site address code := by
  obtain ⟨-, hmailed⟩ := MailSite.stored_mailed hrun
  unfold verifySMS at haccepted
  split at haccepted
  · cases haccepted
  next id hfind =>
  obtain ⟨x, r, hx, hr, -, hphone, -, hcode, -, -⟩ := findSMS_ok hfind
  rw [haddress] at hx
  cases hx
  subst hphone hcode
  exact hmailed r hr hmail

end

def mailConfig : Config where
  gameConfigDirs := ∅
  configDir := []
  constants := Constants.zero
  defaultApplication := []
  userCenterConstants := Constants.zero
  applications := ∅
  baseDir := ⟨true, []⟩

def mailSender : Email where
  mode := bytesOf "smtp"
  host := bytesOf "mail.example"
  port := 465
  username := []
  password := []
  sender := bytesOf "sdk@mail.example"
  outboxDir := []

def mailSite : MailSite where
  auth := openConfig
  config := mailConfig
  email := mailSender
  env := .unary
  errorText _ := "mail"

/-- A server that agrees to one mail. -/
def politeServer : MailServer where
  reply sent := ([220, 250, 250, 250, 354, 250, 221][sent.length]?).map fun code => ⟨code, []⟩
  closes _ := true

def mailSystem : MailSystem where
  dial _ _ := some politeServer
  mkdirAll _ := none
  writeFile _ _ := none
  uuid := []
  now := 0

/-- A new account asks for a code, when there is no randomness. -/
def mailRequest : MailLabel :=
  .request .sendCode { form := .ok [("email", "A@b.c")] } none mailSystem

def afterMail : World := mailSite.perform (World.fresh .unary 0) mailRequest

theorem first_code_is_mailed :
    (verifySMS .unary afterMail "a@b.c" "login" "123456").2 = .ok () ∧
      ∃ l ∈ [mailRequest], l.Mails mailSite "a@b.c" "123456" := by
  have haccepted : (verifySMS .unary afterMail "a@b.c" "login" "123456").2 = .ok () := by
    decide +kernel
  have hrun : Run mailSite.Step (World.fresh mailSite.env 0) [mailRequest] afterMail := by
    refine Run.single ⟨?_, rfl⟩
    intro op hop
    cases hop
  exact ⟨haccepted, accepted_codes_were_mailed hrun (by decide +kernel) (by decide) haccepted⟩

end PapeSdk
