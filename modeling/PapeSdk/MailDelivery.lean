import PapeSdk.Applications
import PapeSdk.Requests
import PapeSdk.SmtpClient

/-!
The delivery of a verification code by mail. Before the connection is encrypted the client
only greets the server and asks for encryption; afterwards the mail is offered once, and it
reads back as the code for the one address it was sent to.
-/

namespace PapeSdk

open BlockModes AsciiBytes TextCodecs FilePaths Dialogues DottedText

structure Email where
  mode : Bytes
  host : Bytes
  port : ℤ
  username : Bytes
  password : Bytes
  sender : Bytes
  outboxDir : Bytes

/-- The port that is used when none is set. -/
def Email.withPort (cfg : Email) : Email :=
  { cfg with port := if cfg.port = 0 then 587 else cfg.port }

/-- A code left in a file instead of being sent. -/
structure OutboxNote where
  address : Bytes
  code : Bytes
  scene : Bytes
  createdAt : ℕ
  expiresIn : ℕ

/-- The network, the files and the clock. -/
structure MailSystem where
  /-- The server behind an address; with a handshake first when it is to be encrypted. -/
  dial : Bool → Bytes → Option MailServer
  mkdirAll : Path → Option MailError
  writeFile : Path → OutboxNote → Option MailError
  uuid : Bytes
  now : ℕ

/-- The text that `sendEmailCode` writes. -/
def mailText (sender address code : Bytes) : Bytes :=
  bytesOf "From: " ++ sender ++ bytesOf "\r\nTo: " ++ address ++
    bytesOf "\r\nSubject: Account verification code\r\nMIME-Version: 1.0" ++
    bytesOf ("\r\nContent-Type: text/plain; charset=UTF-8\r\n\r\n" ++
      "Your verification code is ") ++
    code ++ bytesOf ". It expires in 10 minutes.\r\n"

/-- The conditional steps of `sendEmailCode` on a connection. -/
def encrypt (server : MailServer) (cfg : Email) : SmtpTalk Unit :=
  if cfg.port ≠ 465 then startTLS server else pure ()

def authenticate (server : MailServer) (cfg : Email) : SmtpTalk Unit :=
  if cfg.username ≠ [] then
    (auth server cfg.username cfg.password cfg.host).reword fun _ => .text "邮件服务器认证失败"
  else pure ()

def checkSender (cfg : Email) : SmtpTalk Unit :=
  if cfg.sender.any isLineBreak then .fail (.text "invalid email.from") else pure ()

/-- `sendEmailCode` from the greeting of the server on. -/
def deliverMail (server : MailServer) (cfg : Email) (address code : Bytes) : SmtpTalk Unit := do
  let _ ← readResponse server 220
  encrypt server cfg
  authenticate server cfg
  checkSender cfg
  mail server cfg.sender
  rcpt server address
  data server (mailText cfg.sender address code)
  quit server

/-- `net.JoinHostPort`. -/
def hostPort (host : Bytes) (port : ℤ) : Bytes :=
  if colon ∈ host then bytesOf "[" ++ host ++ bytesOf "]:" ++ bytesOf (toString port)
  else host ++ bytesOf ":" ++ bytesOf (toString port)

structure MailOutcome where
  result : Except MailError Unit
  sent : List Sent := []
  note : Option (Path × OutboxNote) := none

def newClient (cfg : Email) : SmtpClient := ⟨cfg.host, [], cfg.port == 465, false, none, []⟩

def sendEmailCode (config : Config) (cfg : Email) (system : MailSystem)
    (address code scene : Bytes) : MailOutcome :=
  if cfg.mode = bytesOf "outbox" then
    let dir := config.directory
      (if cfg.outboxDir = [] then bytesOf "data/email-outbox" else cfg.outboxDir)
    match system.mkdirAll dir with
    | some e => ⟨.error e, [], none⟩
    | none =>
      let file := dir.child (system.uuid ++ bytesOf ".json")
      let note : OutboxNote := ⟨address, code, scene, system.now, 600⟩
      match system.writeFile file note with
      | some e => ⟨.error e, [], none⟩
      | none => ⟨.ok (), [], some (file, note)⟩
  else if cfg.mode ≠ bytesOf "smtp" ∨ cfg.host = [] ∨ cfg.sender = [] then
    ⟨.error (.text "邮箱验证码服务未配置"), [], none⟩
  else
    let cfg := cfg.withPort
    match system.dial (cfg.port == 465) (hostPort cfg.host cfg.port) with
    | none => ⟨.error (.text "连接邮件服务器失败"), [], none⟩
    | some server =>
      let talked := deliverMail server cfg address code (newClient cfg)
      ⟨talked.2, talked.1.sent, none⟩

/-- What comes before the mail: the greeting when the connection is encrypted from the start,
else the greeting and the request for encryption. -/
def Opened (implicit : Bool) (said : List Sent) : Prop :=
  if implicit then Greeting true said else Encrypted said

def passwordLine (cfg : Email) : Sent :=
  .command true (authLine (0 :: cfg.username ++ 0 :: cfg.password))

def passwordLines (cfg : Email) : List Sent := if cfg.username = [] then [] else [passwordLine cfg]

/-- The lines of a mail in front of its text. -/
def envelopeLines (cfg : Email) (address : Bytes) (ext : List Bytes) : List Sent :=
  [.command true (mailLine ext cfg.sender), .command true (rcptLine address),
    .command true (bytesOf "DATA")]

def textBlock (cfg : Email) (address code : Bytes) : Sent :=
  blockOf (mailText cfg.sender address code)

/-- The text has not been sent. -/
def MailWithheld (cfg : Email) (address : Bytes) (sent : List Sent) : Prop :=
  ∃ said ext, Opened (cfg.port == 465) said ∧
    (sent <+: said ++ [passwordLine cfg, .command true (bytesOf "*"),
        .command true (bytesOf "QUIT")] ∨
      sent <+: said ++ passwordLines cfg ++ envelopeLines cfg address ext)

/-- The server has agreed to the sender, to the address as the only recipient and to a text. -/
structure Invited (server : MailServer) (cfg : Email) (address : Bytes) (ext : List Bytes)
    (front : List Sent) : Prop where
  opened : ∃ said, Opened (cfg.port == 465) said ∧ front = said ++ passwordLines cfg
  unbroken : Unbroken cfg.sender ∧ Unbroken address
  sender : server.Agrees (front ++ (envelopeLines cfg address ext).take 1) 250
  recipient : server.Agrees (front ++ (envelopeLines cfg address ext).take 2) 25
  text : server.Agrees (front ++ envelopeLines cfg address ext) 354

/-- The mail has been sent up to the end of its text. -/
def wholeMail (cfg : Email) (address code : Bytes) (ext : List Bytes) (front : List Sent) :
    List Sent :=
  front ++ envelopeLines cfg address ext ++ [textBlock cfg address code]

/-- The server has accepted the mail, and the client has said farewell. -/
def MailAccepted (server : MailServer) (cfg : Email) (address code : Bytes)
    (sent : List Sent) : Prop :=
  ∃ front ext, Invited server cfg address ext front ∧
    server.Agrees (wholeMail cfg address code ext front) 250 ∧
    sent = wholeMail cfg address code ext front ++ [.command true (bytesOf "QUIT")]

/-- The server has refused the text, or the connection failed before its answer. -/
def MailRejected (server : MailServer) (cfg : Email) (address code : Bytes)
    (sent : List Sent) : Prop :=
  ∃ front ext, Invited server cfg address ext front ∧
    ¬ server.Agrees (wholeMail cfg address code ext front) 250 ∧
    sent = wholeMail cfg address code ext front

section
variable {server : MailServer} {cfg : Email} {address code : Bytes}

/-- Ready for the next command, with `k` said since the opening. -/
def Begun (cfg : Email) (k : List Sent) (c : SmtpClient) : Prop :=
  ((cfg.port == 465) = true ∧ k = [] ∧ c.Fresh cfg.host true) ∨
    ∃ said, Opened (cfg.port == 465) said ∧ c.Greeted cfg.host true (said ++ k)

theorem hello_begun (k : List Sent) :
    Ensures (Begun cfg k) (hello server)
      (fun _ c => ∃ said, (∃ opened, Opened (cfg.port == 465) opened ∧ said = opened ++ k) ∧
        c.Greeted cfg.host true said)
      fun _ c => MailWithheld cfg address c.sent := by
  refine Ensures.of_or (Ensures.of_and fun himplicit => Ensures.of_and fun hk => ?_)
    (Ensures.of_exists fun said => Ensures.of_and fun hopened => ?_)
  · subst hk
    have hopens : ∀ said, Greeting true said → Opened (cfg.port == 465) said := by
      intro said hsaid
      rwa [Opened, if_pos himplicit]
    refine hello_fresh.mono (fun _ hc => hc) ?_ ?_
    · rintro _ c ⟨said, hsaid, hc⟩
      exact ⟨said, ⟨said, hopens said hsaid, (List.append_nil said).symm⟩, hc⟩
    · rintro _ c ⟨said, hsaid, hc⟩
      exact ⟨said, [], hopens said hsaid, Or.inl (hc ▸ List.prefix_append _ _)⟩
  · exact hello_greeted.mono (fun _ hc => hc) (fun _ _ hc => ⟨_, ⟨said, hopened, rfl⟩, hc⟩)
      fun _ _ h => h.elim

/-- The connection is encrypted before anything else is said. -/
theorem encrypt_ensures :
    Ensures (·.Fresh cfg.host (cfg.port == 465)) (encrypt server cfg) (fun _ => Begun cfg [])
      fun _ c => MailWithheld cfg address c.sent := by
  unfold encrypt
  by_cases hport : cfg.port = 465
  · rw [if_neg (not_not.mpr hport)]
    refine Ensures.pure fun c hc => Or.inl ⟨beq_iff_eq.mpr hport, rfl, ?_⟩
    rwa [hport] at hc
  · have hexplicit : (cfg.port == 465) = false := beq_eq_false_iff_ne.mpr hport
    have hopens : ∀ said, Encrypted said → Opened (cfg.port == 465) said := by
      intro said hsaid
      rwa [Opened, hexplicit, if_neg Bool.false_ne_true]
    rw [if_pos hport, hexplicit]
    refine startTLS_fresh.mono (fun _ hc => hc) ?_ ?_
    · rintro _ c ⟨said, hsaid, hc⟩
      exact Or.inr ⟨said, hopens said hsaid, by rwa [List.append_nil]⟩
    · rintro _ c ⟨said, hsaid, hc⟩
      exact ⟨said, [], hopens said hsaid, Or.inl (hc.trans (List.prefix_append _ _))⟩

theorem authenticate_ensures :
    Ensures (Begun cfg []) (authenticate server cfg) (fun _ => Begun cfg (passwordLines cfg))
      fun _ c => MailWithheld cfg address c.sent := by
  unfold authenticate
  by_cases hname : cfg.username = []
  · rw [if_neg (not_not.mpr hname), passwordLines, if_pos hname]
    exact Ensures.pure fun _ hc => hc
  · rw [if_pos hname, passwordLines, if_neg hname]
    refine Ensures.reword ((auth_ensures (hello_begun []) ?_).mono (fun _ hc => hc) ?_
      fun _ _ hc => hc)
    · rintro _ c _ ⟨said, hopened, rfl⟩ hsent
      rw [List.append_nil] at hsent
      exact ⟨said, [], hopened, Or.inl hsent⟩
    · rintro _ c ⟨_, ⟨said, hopened, rfl⟩, hc⟩
      rw [List.append_nil] at hc
      exact Or.inr ⟨said, hopened, hc⟩

theorem checkSender_ensures {P : SmtpClient → Prop} {E : MailError → SmtpClient → Prop}
    (hE : ∀ e c, P c → E e c) :
    Ensures P (checkSender cfg) (fun _ c => Unbroken cfg.sender ∧ P c) E := by
  unfold checkSender
  cases hbroken : cfg.sender.any isLineBreak with
  | true => exact Ensures.fail (hE _)
  | false => exact Ensures.pure fun _ hc => ⟨hbroken, hc⟩

theorem exists_opened (implicit : Bool) : ∃ said, Opened implicit said := by
  cases implicit with
  | true => exact ⟨_, Or.inl rfl⟩
  | false => exact ⟨_, _, Or.inl rfl, rfl⟩

theorem withheld_nil : MailWithheld cfg address [] := by
  obtain ⟨said, hopened⟩ := exists_opened (cfg.port == 465)
  exact ⟨said, [], hopened, Or.inl List.nil_prefix⟩

/-- The text has not been sent as long as the mail has not begun. -/
theorem Begun.withheld {c : SmtpClient} (h : Begun cfg (passwordLines cfg) c) :
    MailWithheld cfg address c.sent := by
  rcases h with ⟨-, -, hc⟩ | ⟨said, hopened, hc⟩
  · rw [hc.silent]
    exact withheld_nil
  · refine ⟨said, [], hopened, Or.inr ?_⟩
    rw [hc.sent]
    exact List.prefix_append _ _

/-- The sender, the address and the text, one after the other, and the farewell. -/
theorem offer_ensures (hsender : Unbroken cfg.sender) :
    Ensures (Begun cfg (passwordLines cfg))
      (do mail server cfg.sender
          rcpt server address
          data server (mailText cfg.sender address code)
          quit server)
      (fun _ c => MailAccepted server cfg address code c.sent ∧ server.PartsWell c.sent)
      fun _ c => (MailWithheld cfg address c.sent ∨ MailRejected server cfg address code c.sent) ∨
        MailAccepted server cfg address code c.sent ∧ ¬ server.PartsWell c.sent := by
  have hshort : ∀ said (c : SmtpClient) ext, Opened (cfg.port == 465) said →
      c.sent <+: said ++ passwordLines cfg ++ envelopeLines cfg address ext →
      MailWithheld cfg address c.sent :=
    fun said c ext hopened hsent => ⟨said, ext, hopened, Or.inr hsent⟩
  refine Ensures.bind (mail_ensures hsender ((hello_begun _).mono (fun _ hc => hc)
    (fun _ _ hc => hc) fun _ _ hc => Or.inl (Or.inl hc)) ?_) fun _ => ?_
  · rintro _ c _ ext ⟨said, hopened, rfl⟩ hsent
    refine Or.inl (Or.inl (hshort said c ext hopened (hsent.trans ?_)))
    exact ⟨(envelopeLines cfg address ext).drop 1, by simp [envelopeLines]⟩
  refine Ensures.of_exists fun front => Ensures.of_exists fun ext => Ensures.of_and fun hfront => ?_
  obtain ⟨⟨said, hopened, hsaid⟩, hmail⟩ := hfront
  refine Ensures.bind ((rcpt_ensures address).mono (fun _ hc => hc) (fun _ _ hc => hc) ?_)
    fun _ => Ensures.of_and fun hrcpt => ?_
  · intro _ c hsent
    refine Or.inl (Or.inl (hshort said c ext hopened (hsent.trans ?_)))
    rw [← hsaid]
    exact ⟨(envelopeLines cfg address ext).drop 2, by simp [envelopeLines]⟩
  have hwhole : wholeMail cfg address code ext front =
      front ++ [.command true (mailLine ext cfg.sender)] ++ [.command true (rcptLine address)] ++
        [.command true (bytesOf "DATA"), textBlock cfg address code] := by
    simp [wholeMail, envelopeLines]
  have hinvited : server.Agrees (front ++ [.command true (mailLine ext cfg.sender)] ++
      [.command true (rcptLine address)] ++ [.command true (bytesOf "DATA")]) 354 →
      Invited server cfg address ext front := by
    intro hready
    refine ⟨⟨said, hopened, hsaid⟩, ⟨hsender, hrcpt.1⟩, hmail, ?_, ?_⟩
    · simpa [envelopeLines] using hrcpt.2
    · simpa [envelopeLines] using hready
  refine Ensures.bind ((data_ensures _).mono (fun _ hc => hc) (fun _ _ hc => hc) ?_)
    fun _ => Ensures.of_and fun htaken => ?_
  · rintro _ c (hsent | ⟨hready, hrefused, hsent⟩)
    · refine Or.inl (Or.inl (hshort said c ext hopened (hsent.trans ?_)))
      rw [← hsaid]
      simp [envelopeLines]
    · refine Or.inl (Or.inr ⟨front, ext, hinvited hready, ?_, ?_⟩)
      · rw [hwhole]
        exact hrefused
      · rw [hwhole]
        exact hsent
  have haccepted : ∀ c : SmtpClient, c.sent = front ++ [.command true (mailLine ext cfg.sender)] ++
      [.command true (rcptLine address)] ++ [.command true (bytesOf "DATA"),
      textBlock cfg address code] ++ [.command true (bytesOf "QUIT")] →
      MailAccepted server cfg address code c.sent := by
    intro c hsent
    refine ⟨front, ext, hinvited htaken.1, ?_, ?_⟩
    · rw [hwhole]
      exact htaken.2
    · rw [hwhole]
      exact hsent
  refine quit_ensures.mono (fun _ hc => hc) ?_ ?_
  · rintro _ c ⟨hsent, hwell⟩
    exact ⟨haccepted c hsent, hsent ▸ hwell⟩
  · rintro _ c ⟨hsent, hill⟩
    exact Or.inr ⟨haccepted c hsent, hsent ▸ hill⟩

/-- The ways in which a delivery can end, for any server. -/
theorem deliverMail_ensures (server : MailServer) (cfg : Email) (address code : Bytes) :
    Ensures (·.Fresh cfg.host (cfg.port == 465)) (deliverMail server cfg address code)
      (fun _ c => MailAccepted server cfg address code c.sent ∧ server.PartsWell c.sent)
      fun _ c => (MailWithheld cfg address c.sent ∨ MailRejected server cfg address code c.sent) ∨
        MailAccepted server cfg address code c.sent ∧ ¬ server.PartsWell c.sent := by
  refine Ensures.bind ((readResponse_keeps 220).mono (fun _ hc => hc) (fun _ _ hc => hc) ?_)
    fun _ => ?_
  · intro _ c hc
    rw [hc.silent]
    exact Or.inl (Or.inl withheld_nil)
  refine Ensures.bind (encrypt_ensures.mono (fun _ hc => hc) (fun _ _ hc => hc)
    fun _ _ hc => Or.inl (Or.inl hc)) fun _ => ?_
  refine Ensures.bind (authenticate_ensures.mono (fun _ hc => hc) (fun _ _ hc => hc)
    fun _ _ hc => Or.inl (Or.inl hc)) fun _ => ?_
  exact Ensures.bind (checkSender_ensures fun _ _ hc => Or.inl (Or.inl hc.withheld))
    fun _ => Ensures.of_and offer_ensures

theorem newClient_fresh (cfg : Email) : (newClient cfg).Fresh cfg.host (cfg.port == 465) :=
  ⟨rfl, rfl, rfl, rfl, rfl⟩

/-- In the clear only the greeting and the request for encryption, and nothing at all when the
connection is encrypted from the start. -/
def SentDiscreetly (implicit : Bool) (sent : List Sent) : Prop :=
  ∃ clear hidden, sent = clear ++ hidden ∧ (∀ s ∈ hidden, s.secure = true) ∧
    (implicit = true → clear = []) ∧
    ∃ greeting, Greeting false greeting ∧
      clear <+: greeting ++ [.command false (bytesOf "STARTTLS")]

theorem SentDiscreetly.part {implicit : Bool} {sent part : List Sent}
    (h : SentDiscreetly implicit sent) (hpart : part <+: sent) :
    SentDiscreetly implicit part := by
  obtain ⟨clear, hidden, rfl, hsecure, himplicit, greeting, hgreeting, hclear⟩ := h
  have htake := List.prefix_iff_eq_take.mp hpart
  rw [List.take_append] at htake
  refine ⟨_, _, htake, fun s hs => hsecure s (List.mem_of_mem_take hs), fun hi => ?_, greeting,
    hgreeting, List.IsPrefix.trans (List.take_prefix _ _) hclear⟩
  rw [himplicit hi, List.take_nil]

theorem SentDiscreetly.append {implicit : Bool} {sent more : List Sent}
    (h : SentDiscreetly implicit sent) (hmore : ∀ s ∈ more, s.secure = true) :
    SentDiscreetly implicit (sent ++ more) := by
  obtain ⟨clear, hidden, rfl, hsecure, hrest⟩ := h
  refine ⟨clear, hidden ++ more, List.append_assoc .., fun s hs => ?_, hrest⟩
  rcases List.mem_append.mp hs with hold | hnew
  · exact hsecure s hold
  · exact hmore s hnew

theorem Opened.discreet {implicit : Bool} {said : List Sent} (h : Opened implicit said) :
    SentDiscreetly implicit said := by
  cases implicit with
  | true =>
    refine ⟨[], said, rfl, ?_, fun _ => rfl, _, Or.inl rfl, List.nil_prefix⟩
    rcases h with rfl | rfl
    · simp [Sent.command]
    · simp [Sent.command]
  | false =>
    obtain ⟨greeting, hgreeting, rfl⟩ := h
    refine ⟨greeting ++ [.command false (bytesOf "STARTTLS")],
      [.command true (bytesOf "EHLO localhost")], by simp, ?_, ?_, greeting, hgreeting,
      List.prefix_rfl⟩
    · simp [Sent.command]
    · intro himplicit
      cases himplicit

theorem secure_lines (cfg : Email) (address code : Bytes) (ext : List Bytes) :
    (∀ s ∈ passwordLines cfg, s.secure = true) ∧
      ∀ s ∈ envelopeLines cfg address ext ++ [textBlock cfg address code],
        s.secure = true := by
  constructor
  · intro s hs
    rw [passwordLines] at hs
    split at hs
    · cases hs
    · rw [List.mem_singleton.mp hs]
      rfl
  · simp [envelopeLines, Sent.command, textBlock, blockOf]

theorem MailWithheld.discreet {sent : List Sent} (h : MailWithheld cfg address sent) :
    SentDiscreetly (cfg.port == 465) sent := by
  obtain ⟨said, ext, hopened, hsent | hsent⟩ := h
  · refine (hopened.discreet.append ?_).part hsent
    simp [passwordLine, Sent.command]
  · have hlines := secure_lines cfg address [] ext
    refine ((hopened.discreet.append hlines.1).append fun s hs => ?_).part hsent
    exact hlines.2 s (List.mem_append_left _ hs)

theorem Invited.discreet {ext : List Bytes} {front : List Sent}
    (h : Invited server cfg address ext front) (code : Bytes) :
    SentDiscreetly (cfg.port == 465) (wholeMail cfg address code ext front) := by
  obtain ⟨said, hopened, rfl⟩ := h.opened
  have hlines := secure_lines cfg address code ext
  rw [wholeMail, List.append_assoc]
  exact (hopened.discreet.append hlines.1).append hlines.2

theorem deliverMail_discreet (server : MailServer) (cfg : Email) (address code : Bytes) :
    SentDiscreetly (cfg.port == 465)
      (deliverMail server cfg address code (newClient cfg)).1.sent := by
  have haccepted : ∀ sent, MailAccepted server cfg address code sent →
      SentDiscreetly (cfg.port == 465) sent := by
    rintro sent ⟨front, ext, hinvited, -, rfl⟩
    refine (hinvited.discreet code).append ?_
    simp [Sent.command]
  have htalk := deliverMail_ensures server cfg address code
  rcases hrun : deliverMail server cfg address code (newClient cfg) with ⟨c, e | u⟩
  · rcases htalk.error (newClient_fresh cfg) hrun with
      (hwithheld | ⟨front, ext, hinvited, -, hsent⟩) | ⟨hsent, -⟩
    · exact hwithheld.discreet
    · rw [hsent]
      exact hinvited.discreet code
    · exact haccepted _ hsent
  · exact haccepted _ (htalk.ok (newClient_fresh cfg) hrun).1

end

/-- Whatever a mail server answers, the password, the address and the code are sent to it on an
encrypted connection only. -/
theorem codes_travel_encrypted (config : Config) (cfg : Email) (system : MailSystem)
    (address code scene : Bytes) :
    SentDiscreetly (cfg.port == 465) (sendEmailCode config cfg system address code scene).sent := by
  have hsilent : SentDiscreetly (cfg.port == 465) [] :=
    ⟨[], [], rfl, by simp, fun _ => rfl, _, Or.inl rfl, List.nil_prefix⟩
  have hport : (cfg.withPort.port == 465) = (cfg.port == 465) := by
    unfold Email.withPort
    by_cases hzero : cfg.port = 0
    · simp [hzero]
    · simp [hzero]
  unfold sendEmailCode
  split
  · dsimp only
    split
    · exact hsilent
    · split
      · exact hsilent
      · exact hsilent
  split
  · exact hsilent
  dsimp only
  split
  · exact hsilent
  · next server _ =>
    rw [← hport]
    exact deliverMail_discreet server cfg.withPort address code

/-- What is read off the fixed parts of the commands and of the text. Every one of the texts below
is the beginning of a line, and only the text of the mail starts with an `F`. -/
private theorem fixedTexts_checked :
    (∀ tls, ∀ line ∈ [bytesOf "EHLO localhost", bytesOf "HELO localhost", bytesOf "STARTTLS",
      bytesOf "*", bytesOf "DATA", bytesOf "QUIT"],
      (Sent.command tls line).bytes.head? ≠ some 70) ∧
    ((bytesOf "AUTH PLAIN ").head? = some 65 ∧ (bytesOf "MAIL FROM:<").head? = some 77 ∧
      (bytesOf "RCPT TO:<").head? = some 82 ∧ (bytesOf "From: ").head? = some 70) ∧
    (bytesOf "From: " = bytesOf "From" ++ [colon, space] ∧
      bytesOf "\r\nTo: " = [cr, lf] ++ (bytesOf "To" ++ [colon, space]) ∧
      bytesOf "\r\nSubject: Account verification code\r\nMIME-Version: 1.0" =
        [cr, lf] ++
          fieldLine (bytesOf "Subject", bytesOf "Account verification code") ++ [cr, lf] ++
          fieldLine (bytesOf "MIME-Version", bytesOf "1.0") ∧
      bytesOf ("\r\nContent-Type: text/plain; charset=UTF-8\r\n\r\n" ++
        "Your verification code is ") = [cr, lf] ++
          fieldLine (bytesOf "Content-Type", bytesOf "text/plain; charset=UTF-8") ++ [cr, lf] ++
          [cr, lf] ++ bytesOf "Your verification code is " ∧
      bytesOf ". It expires in 10 minutes.\r\n" =
        bytesOf ". It expires in 10 minutes." ++ [cr, lf]) ∧
    (∀ name ∈ [bytesOf "From", bytesOf "To", bytesOf "Subject", bytesOf "MIME-Version",
      bytesOf "Content-Type"], name ≠ [] ∧ colon ∉ name ∧ folded name = false) ∧
    (∀ text ∈ [bytesOf "From", bytesOf "To", bytesOf "Subject",
      bytesOf "Account verification code", bytesOf "MIME-Version", bytesOf "1.0",
      bytesOf "Content-Type", bytesOf "text/plain; charset=UTF-8", [],
      bytesOf "Your verification code is ", bytesOf ". It expires in 10 minutes.",
      bytesOf "123456"], text.any isLineBreak = false) := by
  decide +kernel

section
variable {server : MailServer} {cfg : Email} {address code : Bytes}

theorem head_command {tls : Bool} {front rest : Bytes} {b : UInt8} (h : front.head? = some b) :
    (Sent.command tls (front ++ rest)).bytes.head? = some b := by
  obtain ⟨tail, rfl⟩ := List.head?_eq_some_iff.mp h
  rfl

theorem head_textBlock (cfg : Email) (address code : Bytes) :
    (textBlock cfg address code).bytes.head? = some 70 := by
  obtain ⟨-, -, -, hfrom⟩ := fixedTexts_checked.2.1
  obtain ⟨tail, htail⟩ := List.head?_eq_some_iff.mp hfrom
  rw [textBlock, blockOf, mailText, htail]
  rfl

theorem fixed_command (tls : Bool) {line : Bytes}
    (h : line ∈ [bytesOf "EHLO localhost", bytesOf "HELO localhost", bytesOf "STARTTLS",
      bytesOf "*", bytesOf "DATA", bytesOf "QUIT"]) :
    (Sent.command tls line).bytes.head? ≠ some 70 :=
  fixedTexts_checked.1 tls line h

/-- No command can be taken for a text. -/
theorem opened_commands {implicit : Bool} {said : List Sent} (h : Opened implicit said) :
    ∀ s ∈ said, s.bytes.head? ≠ some 70 := by
  have hehlo : ∀ tls, (Sent.command tls (bytesOf "EHLO localhost")).bytes.head? ≠ some 70 :=
    fun tls => fixed_command tls (by simp)
  have hhelo : ∀ tls, (Sent.command tls (bytesOf "HELO localhost")).bytes.head? ≠ some 70 :=
    fun tls => fixed_command tls (by simp)
  have hstart : (Sent.command false (bytesOf "STARTTLS")).bytes.head? ≠ some 70 :=
    fixed_command false (by simp)
  have hgreeting : ∀ tls said, Greeting tls said → ∀ s ∈ said, s.bytes.head? ≠ some 70 := by
    rintro tls said (rfl | rfl)
    · simpa using hehlo tls
    · simpa using ⟨hehlo tls, hhelo tls⟩
  cases implicit with
  | true => exact hgreeting true said h
  | false =>
    obtain ⟨greeting, hg, rfl⟩ := h
    intro s hs
    rcases List.mem_append.mp hs with hold | hnew
    · exact hgreeting false greeting hg s hold
    · simp only [List.mem_cons, List.not_mem_nil, or_false] at hnew
      rcases hnew with rfl | rfl
      · exact hstart
      · exact hehlo true

theorem passwordLine_command : (passwordLine cfg).bytes.head? ≠ some 70 := by
  rw [passwordLine, authLine, head_command fixedTexts_checked.2.1.1]
  decide

theorem envelope_commands (ext : List Bytes) :
    ∀ s ∈ envelopeLines cfg address ext, s.bytes.head? ≠ some 70 := by
  intro s hs
  simp only [envelopeLines, List.mem_cons, List.not_mem_nil, or_false] at hs
  rcases hs with rfl | rfl | rfl
  · rw [mailLine, List.append_assoc, List.append_assoc, List.append_assoc,
      head_command fixedTexts_checked.2.1.2.1]
    decide
  · rw [rcptLine, List.append_assoc, head_command fixedTexts_checked.2.1.2.2.1]
    decide
  · exact fixed_command true (by simp)

theorem MailWithheld.not_mem {sent : List Sent} (h : MailWithheld cfg address sent) :
    textBlock cfg address code ∉ sent := by
  intro hmem
  have hhead := head_textBlock cfg address code
  obtain ⟨said, ext, hopened, hsent | hsent⟩ := h
  · have hline := hsent.mem hmem
    simp only [List.mem_append, List.mem_cons, List.not_mem_nil, or_false] at hline
    rcases hline with hline | hline | hline | hline
    · exact opened_commands hopened _ hline hhead
    · rw [hline] at hhead
      exact passwordLine_command hhead
    · rw [hline] at hhead
      exact fixed_command true (by simp) hhead
    · rw [hline] at hhead
      exact fixed_command true (by simp) hhead
  · have hline := hsent.mem hmem
    rw [List.mem_append, List.mem_append] at hline
    rcases hline with (hline | hline) | hline
    · exact opened_commands hopened _ hline hhead
    · rw [passwordLines] at hline
      split at hline
      · cases hline
      · rw [List.mem_singleton.mp hline] at hhead
        exact passwordLine_command hhead
    · exact envelope_commands ext _ hline hhead

theorem MailAccepted.mem {sent : List Sent} (h : MailAccepted server cfg address code sent) :
    textBlock cfg address code ∈ sent := by
  obtain ⟨front, ext, -, -, rfl⟩ := h
  exact List.mem_append_left _ (List.mem_append_right _ (List.mem_singleton.mpr rfl))

/-- The last line of a mail that was accepted is the farewell, not the text. -/
theorem MailAccepted.not_rejected {sent : List Sent}
    (h : MailAccepted server cfg address code sent) :
    ¬ MailRejected server cfg address code sent := by
  obtain ⟨front, ext, -, -, rfl⟩ := h
  rintro ⟨front', ext', -, -, hsent⟩
  have hlast := congrArg List.getLast? hsent
  rw [List.getLast?_concat, wholeMail, List.getLast?_concat] at hlast
  have hhead := head_textBlock cfg address code
  rw [← Option.some.inj hlast] at hhead
  exact fixed_command true (by simp) hhead

/-- The delivery is reported as a success exactly when the server has agreed to the sender, to
the address as the only recipient, to the text and to the farewell. Without its agreement the
text is refused or has not been sent. -/
theorem mail_reported_iff_accepted (server : MailServer) (cfg : Email) (address code : Bytes) :
    ∃ c result, deliverMail server cfg address code (newClient cfg) = (c, result) ∧
      (result = .ok () ↔
        MailAccepted server cfg address code c.sent ∧ server.PartsWell c.sent) ∧
      (MailAccepted server cfg address code c.sent ∨ MailRejected server cfg address code c.sent ∨
        MailWithheld cfg address c.sent ∧ textBlock cfg address code ∉ c.sent) := by
  have htalk := deliverMail_ensures server cfg address code
  rcases hrun : deliverMail server cfg address code (newClient cfg) with ⟨c, e | u⟩
  · have hend := htalk.error (newClient_fresh cfg) hrun
    refine ⟨c, .error e, rfl, iff_of_false (by simp) ?_, ?_⟩
    · rintro ⟨haccepted, hwell⟩
      rcases hend with (hwithheld | hrejected) | ⟨-, hill⟩
      · exact hwithheld.not_mem haccepted.mem
      · exact haccepted.not_rejected hrejected
      · exact hill hwell
    · rcases hend with (hwithheld | hrejected) | ⟨haccepted, -⟩
      · exact Or.inr (Or.inr ⟨hwithheld, hwithheld.not_mem⟩)
      · exact Or.inr (Or.inl hrejected)
      · exact Or.inl haccepted
  · have hend := htalk.ok (newClient_fresh cfg) hrun
    exact ⟨c, .ok u, rfl, iff_of_true rfl hend, Or.inl hend.1⟩

end

/-- `randomDigits(6)`, with its answer when there is no randomness. -/
def randomDigits : Option (Fin 6 → UInt8) → Bytes
  | none => bytesOf "123456"
  | some raw => (List.ofFn raw).map fun v => UInt8.ofNat (48 + v.toNat % 10)

/-- The message in a block, when nothing stands behind it. -/
def receivedMessage (block : Bytes) : Option Message :=
  match readBlock (cutLines [] block).1 with
  | some (lines, []) => readMessage lines
  | _ => none

/-- The mail that its reader finds. -/
def codeMessage (sender address code : Bytes) : Message where
  fields := [(bytesOf "From", sender), (bytesOf "To", address),
    (bytesOf "Subject", bytesOf "Account verification code"),
    (bytesOf "MIME-Version", bytesOf "1.0"),
    (bytesOf "Content-Type", bytesOf "text/plain; charset=UTF-8")]
  body := [bytesOf "Your verification code is " ++ code ++ bytesOf ". It expires in 10 minutes."]

theorem randomDigits_unbroken (raw : Option (Fin 6 → UInt8)) : Unbroken (randomDigits raw) := by
  cases raw with
  | none => exact fixedTexts_checked.2.2.2.2 (bytesOf "123456") (by simp)
  | some raw =>
    have hdigit : ∀ n < 10, isLineBreak (UInt8.ofNat (48 + n)) = false := by decide
    unfold Unbroken
    rw [List.any_eq_false]
    intro b hb
    obtain ⟨v, -, rfl⟩ := List.mem_map.mp hb
    rw [hdigit _ (Nat.mod_lt _ (by omega))]
    exact Bool.false_ne_true

/-- The text is a header with its fields, an empty line and one sentence. -/
theorem mailText_lines (sender address code : Bytes) :
    mailText sender address code =
      joinLines ((codeMessage sender address code).fields.map fieldLine ++
        [] :: (codeMessage sender address code).body) := by
  obtain ⟨hfrom, hto, hsubject, htype, hend⟩ := fixedTexts_checked.2.2.1
  rw [mailText, hfrom, hto, hsubject, htype, hend]
  simp [joinLines, codeMessage, fieldLine]

theorem codeMessage_names (sender address code : Bytes) :
    ∀ field ∈ (codeMessage sender address code).fields, FieldName field.1 := by
  intro field hfield
  obtain ⟨hnonempty, hplain, hunfolded⟩ := fixedTexts_checked.2.2.2.1 field.1
    (List.mem_map_of_mem (f := Prod.fst) hfield)
  exact ⟨hnonempty, hplain, hunfolded⟩

theorem codeMessage_unbroken {sender address code : Bytes} (hsender : Unbroken sender)
    (haddress : Unbroken address) (hcode : Unbroken code) :
    ∀ line ∈ (codeMessage sender address code).fields.map fieldLine ++
      [] :: (codeMessage sender address code).body, Unbroken line := by
  have hfixed := fixedTexts_checked.2.2.2.2
  simp only [List.forall_mem_cons, List.not_mem_nil, false_implies, implies_true,
    and_true] at hfixed
  obtain ⟨hfrom, hto, hsubject, htitle, hversion, hone, htype, hplain, hempty, hfront, hback, -⟩ :=
    hfixed
  simp only [codeMessage, List.map_cons, List.map_nil, List.cons_append, List.nil_append,
    List.forall_mem_cons, List.not_mem_nil, false_implies, implies_true, and_true]
  refine ⟨unbroken_fieldLine hfrom hsender, unbroken_fieldLine hto haddress,
    unbroken_fieldLine hsubject htitle, unbroken_fieldLine hversion hone,
    unbroken_fieldLine htype hplain, hempty, ?_⟩
  exact unbroken_append.mpr ⟨unbroken_append.mpr ⟨hfront, hcode⟩, hback⟩

theorem receivedMessage_textBlock {cfg : Email} {address code : Bytes}
    (hsender : Unbroken cfg.sender) (haddress : Unbroken address) (hcode : Unbroken code) :
    receivedMessage (textBlock cfg address code).bytes =
      some (codeMessage cfg.sender address code) := by
  have hlines : ∀ line ∈ (codeMessage cfg.sender address code).fields.map fieldLine ++
      [] :: (codeMessage cfg.sender address code).body, Unbroken line :=
    codeMessage_unbroken hsender haddress hcode
  have hread := readBlock_dotWrite (by simp [codeMessage]) hlines []
  rw [List.append_nil] at hread
  rw [receivedMessage, textBlock, blockOf, mailText_lines, hread]
  exact readMessage_fields (codeMessage_names _ _ _)

end PapeSdk
