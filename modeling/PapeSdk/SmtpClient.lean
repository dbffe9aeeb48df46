import PapeSdk.Dialogues
import PapeSdk.DottedText

/-!
A client of SMTP, against a server that may answer anything at any point, or nothing.
Each step of the client adds lines to what has been sent and ends by an answer of the
server; the greeting is made once, in front of the first command that needs it.
-/

namespace PapeSdk

open BlockModes AsciiBytes TextCodecs Dialogues DottedText

/-- Bytes the client has sent, and whether the connection was encrypted. -/
structure Sent where
  secure : Bool
  bytes : Bytes
  deriving DecidableEq

structure SmtpReply where
  code : ℕ
  message : Bytes

/-- What the server answers to everything sent so far, and whether the connection closes well.
A missing answer stands for a connection that fails, at the latest when it is encrypted. -/
structure MailServer where
  reply : List Sent → Option SmtpReply
  closes : List Sent → Bool

inductive MailError where
  | text (s : String)
  | refused (reply : SmtpReply)
  | connection

/-- `ext` has the names of the extensions that the server offers. -/
structure SmtpClient where
  serverName : Bytes
  sent : List Sent
  tls : Bool
  didHello : Bool
  helloError : Option MailError
  ext : List Bytes

abbrev SmtpTalk (α : Type) := Talk SmtpClient MailError α

def SmtpClient.send (c : SmtpClient) (bytes : Bytes) : SmtpClient :=
  { c with sent := c.sent ++ [⟨c.tls, bytes⟩] }

def commandLine (text : Bytes) : Bytes := text ++ [cr, lf]

/-- Whether a reply has the expected code, or begins with the expected digits. -/
def isExpected (expectCode code : ℕ) : Bool :=
  if 1 ≤ expectCode ∧ expectCode < 10 then code / 100 == expectCode
  else if 10 ≤ expectCode ∧ expectCode < 100 then code / 10 == expectCode
  else if 100 ≤ expectCode ∧ expectCode < 1000 then code == expectCode
  else true

/-- The names in the lines of a greeting behind the first. -/
def extensionNames (message : Bytes) : List Bytes :=
  (message.splitOn lf).tail.map fun line => line.takeWhile (· != space)

/-- `validateLine`. -/
def validateLine (line : Bytes) : SmtpTalk Unit :=
  if line.any isLineBreak then .fail (.text "smtp: A line must not contain CR or LF") else pure ()

section
variable (server : MailServer)

def readResponse (expectCode : ℕ) : SmtpTalk SmtpReply :=
  .look fun c =>
    match server.reply c.sent with
    | none => .fail .connection
    | some r => if isExpected expectCode r.code then .give r else .fail (.refused r)

def cmd (expectCode : ℕ) (text : Bytes) : SmtpTalk SmtpReply := do
  .update fun c => c.send (commandLine text)
  readResponse server expectCode

def ehlo : SmtpTalk Unit := do
  let r ← cmd server 250 (bytesOf "EHLO localhost")
  .update fun c => { c with ext := extensionNames r.message }

def helo : SmtpTalk Unit := do
  .update fun c => { c with ext := [] }
  let _ ← cmd server 250 (bytesOf "HELO localhost")
  pure ()

/-- The greeting, made once; the older one when the server does not know the newer. -/
def hello : SmtpTalk Unit :=
  .look fun c =>
    if c.didHello then
      match c.helloError with
      | none => .give ()
      | some e => .fail e
    else do
      .update fun c => { c with didHello := true }
      (ehlo server).resume fun
        | .ok () => .give ()
        | .error _ =>
          (helo server).resume fun
            | .ok () => .give ()
            | .error e => do
              .update fun c => { c with helloError := some e }
              .fail e

def startTLS : SmtpTalk Unit := do
  hello server
  let _ ← cmd server 220 (bytesOf "STARTTLS")
  .update fun c => { c with tls := true }
  ehlo server

def quit : SmtpTalk Unit := do
  hello server
  let _ ← cmd server 221 (bytesOf "QUIT")
  .look fun c => if server.closes c.sent then .give () else .fail .connection

def isLocalhost (name : Bytes) : Bool :=
  [bytesOf "localhost", bytesOf "127.0.0.1", bytesOf "::1"].contains name

/-- `PlainAuth`, which keeps the password for itself on a connection in the clear. -/
def plainAuth (username password host : Bytes) (c : SmtpClient) : Except MailError Bytes :=
  if !c.tls && !isLocalhost c.serverName then .error (.text "unencrypted connection")
  else if c.serverName ≠ host then .error (.text "wrong host name")
  else .ok (0 :: username ++ 0 :: password)

/-- The response is never empty, and nothing of the line has to be trimmed. -/
def authLine (response : Bytes) : Bytes := bytesOf "AUTH PLAIN " ++ base64Encode response

/-- What follows the answer to the password; a challenge cannot be met. -/
def authEnd (r : SmtpReply) : Except MailError Unit :=
  if r.code = 235 then .ok ()
  else if r.code = 334 then
    match base64Decode r.message with
    | .error _ => .error (.text "illegal base64 data")
    | .ok _ => .error (.text "unexpected server challenge")
  else .error (.refused r)

def auth (username password host : Bytes) : SmtpTalk Unit := do
  hello server
  .look fun c =>
    match plainAuth username password host c with
    | .error e => (quit server).resume fun _ => .fail e
    | .ok response => do
      let r ← cmd server 0 (authLine response)
      match authEnd r with
      | .ok () => .give ()
      | .error e =>
        (cmd server 501 (bytesOf "*")).resume fun _ => (quit server).resume fun _ => .fail e

def mailLine (ext : List Bytes) (sender : Bytes) : Bytes :=
  bytesOf "MAIL FROM:<" ++ sender ++ bytesOf ">" ++
    (if bytesOf "8BITMIME" ∈ ext then bytesOf " BODY=8BITMIME" else []) ++
    if bytesOf "SMTPUTF8" ∈ ext then bytesOf " SMTPUTF8" else []

def mail (sender : Bytes) : SmtpTalk Unit := do
  validateLine sender
  hello server
  .look fun c => do
    let _ ← cmd server 250 (mailLine c.ext sender)
    pure ()

def rcptLine (address : Bytes) : Bytes := bytesOf "RCPT TO:<" ++ address ++ bytesOf ">"

def rcpt (address : Bytes) : SmtpTalk Unit := do
  validateLine address
  let _ ← cmd server 25 (rcptLine address)
  pure ()

/-- `Data`, the text written to its stream, and the closing of the stream. -/
def data (text : Bytes) : SmtpTalk Unit := do
  let _ ← cmd server 354 (bytesOf "DATA")
  .update fun c => c.send (dotWrite .start text)
  let _ ← readResponse server 250
  pure ()

end

def Sent.command (tls : Bool) (text : Bytes) : Sent := ⟨tls, commandLine text⟩

def MailServer.Agrees (server : MailServer) (sent : List Sent) (expectCode : ℕ) : Prop :=
  ∃ r, server.reply sent = some r ∧ isExpected expectCode r.code = true

/-- A connection on which nothing has been sent. -/
structure SmtpClient.Fresh (c : SmtpClient) (host : Bytes) (tls : Bool) : Prop where
  host : c.serverName = host
  tls : c.tls = tls
  silent : c.sent = []
  ungreeted : c.didHello = false
  welcome : c.helloError = none

/-- A greeted connection with so much sent on it. -/
structure SmtpClient.Greeted (c : SmtpClient) (host : Bytes) (tls : Bool) (said : List Sent) :
    Prop where
  host : c.serverName = host
  tls : c.tls = tls
  sent : c.sent = said
  greeted : c.didHello = true
  welcome : c.helloError = none

/-- The greetings, with the older one after the newer where that was not known. -/
def Greeting (tls : Bool) (said : List Sent) : Prop :=
  said = [.command tls (bytesOf "EHLO localhost")] ∨
    said = [.command tls (bytesOf "EHLO localhost"), .command tls (bytesOf "HELO localhost")]

/-- The greeting, the request for encryption and the greeting again. -/
def Encrypted (said : List Sent) : Prop :=
  ∃ greeting, Greeting false greeting ∧ said = greeting ++
    [.command false (bytesOf "STARTTLS"), .command true (bytesOf "EHLO localhost")]

section
variable {server : MailServer} {host : Bytes} {tls : Bool} {said : List Sent}

theorem readResponse_ensures (expectCode : ℕ) :
    Ensures (·.Greeted host tls said) (readResponse server expectCode)
      (fun r c => c.Greeted host tls said ∧ server.reply said = some r ∧
        isExpected expectCode r.code = true)
      fun _ c => c.Greeted host tls said ∧ ¬ server.Agrees said expectCode := by
  refine Ensures.look fun c hc => ?_
  rw [hc.sent]
  cases hreply : server.reply said with
  | none =>
    refine Ensures.fail ?_
    rintro s rfl
    refine ⟨hc, ?_⟩
    rintro ⟨r, hr, -⟩
    rw [hreply] at hr
    cases hr
  | some r =>
    by_cases hcode : isExpected expectCode r.code = true
    · simp only [hcode, if_true]
      refine Ensures.give ?_
      rintro s rfl
      exact ⟨hc, rfl, hcode⟩
    · simp only [hcode, if_false, Bool.false_eq_true]
      refine Ensures.fail ?_
      rintro s rfl
      refine ⟨hc, ?_⟩
      rintro ⟨r', hr', hcode'⟩
      rw [hreply] at hr'
      cases hr'
      exact hcode hcode'

/-- Reading an answer sends nothing. -/
theorem readResponse_keeps {P : SmtpClient → Prop} (expectCode : ℕ) :
    Ensures P (readResponse server expectCode) (fun _ => P) fun _ => P := by
  refine Ensures.look fun c hc => ?_
  have hfail : ∀ e : MailError, Ensures (· = c) (.fail e : SmtpTalk SmtpReply) (fun _ => P)
      fun _ => P := by
    rintro e s rfl
    exact hc
  cases server.reply c.sent with
  | none => exact hfail _
  | some r =>
    by_cases hcode : isExpected expectCode r.code = true
    · simp only [hcode, if_true]
      rintro s rfl
      exact hc
    · simp only [hcode, if_false, Bool.false_eq_true]
      exact hfail _

theorem cmd_ensures (expectCode : ℕ) (text : Bytes) :
    Ensures (·.Greeted host tls said) (cmd server expectCode text)
      (fun r c => c.Greeted host tls (said ++ [.command tls text]) ∧
        server.reply (said ++ [.command tls text]) = some r ∧ isExpected expectCode r.code = true)
      fun _ c => c.Greeted host tls (said ++ [.command tls text]) ∧
        ¬ server.Agrees (said ++ [.command tls text]) expectCode := by
  refine Ensures.bind (Ensures.update fun c hc => ?_) fun _ => readResponse_ensures expectCode
  refine ⟨hc.host, hc.tls, ?_, hc.greeted, hc.welcome⟩
  rw [SmtpClient.send, hc.sent, hc.tls]
  rfl

/-- A command whose answer is only asked for its code. -/
theorem agreed_ensures (expectCode : ℕ) (text : Bytes) :
    Ensures (·.Greeted host tls said)
      (do let _ ← cmd server expectCode text; pure () : SmtpTalk Unit)
      (fun _ c => c.Greeted host tls (said ++ [.command tls text]) ∧
        server.Agrees (said ++ [.command tls text]) expectCode)
      fun _ c => c.Greeted host tls (said ++ [.command tls text]) ∧
        ¬ server.Agrees (said ++ [.command tls text]) expectCode := by
  refine Ensures.bind (cmd_ensures expectCode text) fun r => Ensures.pure ?_
  rintro c ⟨hc, hagreed⟩
  exact ⟨hc, r, hagreed⟩

theorem ehlo_ensures :
    Ensures (·.Greeted host tls said) (ehlo server)
      (fun _ c => c.Greeted host tls (said ++ [.command tls (bytesOf "EHLO localhost")]))
      fun _ c => c.Greeted host tls (said ++ [.command tls (bytesOf "EHLO localhost")]) := by
  refine Ensures.bind ((cmd_ensures 250 _).mono (fun _ hc => hc) (fun _ _ hc => hc.1)
    fun _ _ hc => hc.1) fun r => Ensures.update fun c hc => ?_
  exact ⟨hc.host, hc.tls, hc.sent, hc.greeted, hc.welcome⟩

theorem helo_ensures :
    Ensures (·.Greeted host tls said) (helo server)
      (fun _ c => c.Greeted host tls (said ++ [.command tls (bytesOf "HELO localhost")]))
      fun _ c => c.Greeted host tls (said ++ [.command tls (bytesOf "HELO localhost")]) := by
  refine Ensures.bind (Q := fun _ (c : SmtpClient) => c.Greeted host tls said)
    (Ensures.update fun c hc => ?_) fun _ => ?_
  · exact ⟨hc.host, hc.tls, hc.sent, hc.greeted, hc.welcome⟩
  · exact (agreed_ensures 250 _).mono (fun _ hc => hc) (fun _ _ hc => hc.1) fun _ _ hc => hc.1

/-- The greeting is not made again. -/
theorem hello_greeted :
    Ensures (·.Greeted host tls said) (hello server) (fun _ c => c.Greeted host tls said)
      fun _ _ => False := by
  refine Ensures.look fun c hc => ?_
  rw [if_pos hc.greeted, hc.welcome]
  refine Ensures.give ?_
  rintro s rfl
  exact hc

theorem hello_fresh :
    Ensures (·.Fresh host tls) (hello server)
      (fun _ c => ∃ said, Greeting tls said ∧ c.Greeted host tls said)
      fun _ c => ∃ said, Greeting tls said ∧ c.sent = said := by
  refine Ensures.look fun c hc => ?_
  rw [if_neg (by rw [hc.ungreeted]; exact Bool.false_ne_true)]
  refine Ensures.bind (Q := fun _ c => c.Greeted host tls []) (Ensures.update ?_) fun _ => ?_
  · rintro s rfl
    exact ⟨hc.host, hc.tls, hc.silent, rfl, hc.welcome⟩
  refine Ensures.resume ehlo_ensures (fun _ => Ensures.give fun c hc => ?_) fun _ => ?_
  · exact ⟨_, Or.inl rfl, hc⟩
  refine Ensures.resume helo_ensures (fun _ => Ensures.give fun c hc => ?_) fun e => ?_
  · exact ⟨_, Or.inr rfl, hc⟩
  refine Ensures.bind (Q := fun _ c => ∃ said, Greeting tls said ∧ c.sent = said)
    (Ensures.update fun c hc => ?_) fun _ => Ensures.fail fun _ hc => hc
  exact ⟨_, Or.inr rfl, hc.sent⟩

theorem startTLS_fresh :
    Ensures (·.Fresh host false) (startTLS server)
      (fun _ c => ∃ said, Encrypted said ∧ c.Greeted host true said)
      fun _ c => ∃ said, Encrypted said ∧ c.sent <+: said := by
  refine Ensures.bind ((hello_fresh).mono (fun _ hc => hc) (fun _ _ hc => hc) ?_) fun _ => ?_
  · rintro _ c ⟨greeting, hgreeting, hsent⟩
    exact ⟨_, ⟨greeting, hgreeting, rfl⟩, hsent ▸ List.prefix_append _ _⟩
  refine Ensures.of_exists fun greeting => Ensures.of_and fun hgreeting => ?_
  have hends : ∀ said, said <+: greeting ++
      [.command false (bytesOf "STARTTLS"), .command true (bytesOf "EHLO localhost")] →
      ∃ whole, Encrypted whole ∧ said <+: whole :=
    fun said hsaid => ⟨_, ⟨greeting, hgreeting, rfl⟩, hsaid⟩
  refine Ensures.bind ((cmd_ensures 220 _).mono (fun _ hc => hc) (fun _ _ hc => hc.1) ?_)
    fun _ => ?_
  · rintro _ c ⟨hc, -⟩
    rw [hc.sent]
    exact hends _ ⟨[.command true (bytesOf "EHLO localhost")], by simp⟩
  refine Ensures.bind (Q := fun _ (c : SmtpClient) => c.Greeted host true
    (greeting ++ [.command false (bytesOf "STARTTLS")])) (Ensures.update fun c hc => ?_) fun _ => ?_
  · exact ⟨hc.host, rfl, hc.sent, hc.greeted, hc.welcome⟩
  refine ehlo_ensures.mono (fun _ hc => hc) (fun _ c hc => ?_) fun _ c hc => ?_
  · exact ⟨_, ⟨greeting, hgreeting, rfl⟩, by simpa using hc⟩
  · rw [hc.sent]
    exact hends _ (by simp)

/-- The farewell, and the end of the connection. -/
def MailServer.PartsWell (server : MailServer) (sent : List Sent) : Prop :=
  server.Agrees sent 221 ∧ server.closes sent = true

theorem quit_ensures :
    Ensures (·.Greeted host tls said) (quit server)
      (fun _ c => c.sent = said ++ [.command tls (bytesOf "QUIT")] ∧
        server.PartsWell (said ++ [.command tls (bytesOf "QUIT")]))
      fun _ c => c.sent = said ++ [.command tls (bytesOf "QUIT")] ∧
        ¬ server.PartsWell (said ++ [.command tls (bytesOf "QUIT")]) := by
  refine Ensures.bind (hello_greeted.mono (fun _ hc => hc) (fun _ _ hc => hc) fun _ _ h => h.elim)
    fun _ => ?_
  refine Ensures.bind ((cmd_ensures 221 _).mono (fun _ hc => hc) (fun _ _ hc => hc) ?_) fun r => ?_
  · rintro _ c ⟨hc, hrefused⟩
    exact ⟨hc.sent, fun hwell => hrefused hwell.1⟩
  refine Ensures.look fun c hc => ?_
  obtain ⟨hgreeted, hagreed⟩ := hc
  rw [hgreeted.sent]
  cases hcloses : server.closes (said ++ [.command tls (bytesOf "QUIT")]) with
  | true =>
    refine Ensures.give ?_
    rintro s rfl
    exact ⟨hgreeted.sent, ⟨r, hagreed⟩, hcloses⟩
  | false =>
    refine Ensures.fail ?_
    rintro s rfl
    refine ⟨hgreeted.sent, fun hwell => ?_⟩
    have hclosed := hwell.2
    rw [hcloses] at hclosed
    cases hclosed

variable {P : SmtpClient → Prop} {S : List Sent → Prop} {E : MailError → SmtpClient → Prop}

/-- A password that was not accepted ends the conversation. -/
theorem auth_ensures {username password : Bytes}
    (hhello : Ensures P (hello server) (fun _ c => ∃ said, S said ∧ c.Greeted host true said) E)
    (hE : ∀ e c said, S said → c.sent <+: said ++ [.command true (authLine
      (0 :: username ++ 0 :: password)), .command true (bytesOf "*"),
      .command true (bytesOf "QUIT")] → E e c) :
    Ensures P (auth server username password host)
      (fun _ c => ∃ said, S said ∧ c.Greeted host true
        (said ++ [.command true (authLine (0 :: username ++ 0 :: password))])) E := by
  refine Ensures.bind hhello fun _ => ?_
  refine Ensures.of_exists fun said => Ensures.of_and fun hsaid => ?_
  refine Ensures.look fun c hc => ?_
  have hplain : plainAuth username password host c = .ok (0 :: username ++ 0 :: password) := by
    rw [plainAuth, if_neg (by rw [hc.tls]; exact Bool.false_ne_true), if_neg (not_not.mpr hc.host)]
  rw [hplain]
  refine Ensures.mono (P := (·.Greeted host true said)) ?_ (by rintro s rfl; exact hc)
    (fun _ _ h => h) fun _ _ h => h
  refine Ensures.bind ((cmd_ensures 0 _).mono (fun _ hc => hc) (fun _ _ hc => hc.1) ?_) fun r => ?_
  · rintro e c ⟨hc, -⟩
    refine hE e c said hsaid ?_
    rw [hc.sent]
    exact ⟨[.command true (bytesOf "*"), .command true (bytesOf "QUIT")], by simp⟩
  cases authEnd r with
  | ok _ => exact Ensures.give fun c hc => ⟨said, hsaid, hc⟩
  | error e =>
    have hquit : Ensures (·.Greeted host true (said ++ [.command true (authLine
        (0 :: username ++ 0 :: password))] ++ [.command true (bytesOf "*")]))
        ((quit server).resume fun _ => .fail e : SmtpTalk Unit)
        (fun _ c => ∃ said, S said ∧ c.Greeted host true
          (said ++ [.command true (authLine (0 :: username ++ 0 :: password))])) E := by
      have hlast : ∀ c : SmtpClient, c.sent = said ++ [.command true (authLine
          (0 :: username ++ 0 :: password))] ++ [.command true (bytesOf "*")] ++
          [.command true (bytesOf "QUIT")] → E e c := by
        intro c hsent
        refine hE e c said hsaid ?_
        rw [hsent]
        simp
      exact Ensures.resume quit_ensures (fun _ => Ensures.fail fun c hc => hlast c hc.1)
        fun _ => Ensures.fail fun c hc => hlast c hc.1
    exact Ensures.resume ((cmd_ensures 501 _).mono (fun _ hc => hc) (fun _ _ hc => hc.1)
      fun _ _ hc => hc.1) (fun _ => hquit) fun _ => hquit

theorem mail_ensures {sender : Bytes} (hsender : sender.any isLineBreak = false)
    (hhello : Ensures P (hello server) (fun _ c => ∃ said, S said ∧ c.Greeted host true said) E)
    (hE : ∀ e c said ext, S said → c.sent <+: said ++ [.command true (mailLine ext sender)] →
      E e c) :
    Ensures P (mail server sender)
      (fun _ c => ∃ said ext, (S said ∧
        server.Agrees (said ++ [.command true (mailLine ext sender)]) 250) ∧
        c.Greeted host true (said ++ [.command true (mailLine ext sender)])) E := by
  refine Ensures.bind (Q := fun _ => P) ?_ fun _ => Ensures.bind hhello fun _ => ?_
  · rw [validateLine, if_neg (by rw [hsender]; exact Bool.false_ne_true)]
    exact Ensures.pure fun _ hc => hc
  refine Ensures.of_exists fun said => Ensures.of_and fun hsaid => ?_
  refine Ensures.look fun c hc => ?_
  refine (agreed_ensures 250 (mailLine c.ext sender)).mono (by rintro s rfl; exact hc) ?_ ?_
  · rintro _ t ⟨ht, hagreed⟩
    exact ⟨said, c.ext, ⟨hsaid, hagreed⟩, ht⟩
  · rintro e t ⟨ht, -⟩
    refine hE e t said c.ext hsaid ?_
    rw [ht.sent]

/-- An address with a line break is not sent at all. -/
theorem rcpt_ensures (address : Bytes) :
    Ensures (·.Greeted host true said) (rcpt server address)
      (fun _ c => (Unbroken address ∧
        server.Agrees (said ++ [.command true (rcptLine address)]) 25) ∧
        c.Greeted host true (said ++ [.command true (rcptLine address)]))
      fun _ c => c.sent <+: said ++ [.command true (rcptLine address)] := by
  cases hbroken : address.any isLineBreak with
  | true =>
    refine Ensures.bind (Q := fun _ _ => False) ?_ fun _ _ h => h.elim
    rw [validateLine, hbroken]
    refine Ensures.fail fun c hc => ?_
    rw [hc.sent]
    exact List.prefix_append _ _
  | false =>
    refine Ensures.bind (Q := fun _ (c : SmtpClient) => c.Greeted host true said) ?_ fun _ => ?_
    · rw [validateLine, hbroken]
      exact Ensures.pure fun _ hc => hc
    · refine (agreed_ensures 25 (rcptLine address)).mono (fun _ hc => hc) ?_ ?_
      · rintro _ c ⟨hc, hagreed⟩
        exact ⟨⟨hbroken, hagreed⟩, hc⟩
      · rintro _ c ⟨hc, -⟩
        rw [hc.sent]

def blockOf (text : Bytes) : Sent := ⟨true, dotWrite .start text⟩

theorem data_ensures (text : Bytes) :
    Ensures (·.Greeted host true said) (data server text)
      (fun _ c => (server.Agrees (said ++ [.command true (bytesOf "DATA")]) 354 ∧
        server.Agrees (said ++ [.command true (bytesOf "DATA"), blockOf text]) 250) ∧
        c.Greeted host true (said ++ [.command true (bytesOf "DATA"), blockOf text]))
      fun _ c => c.sent <+: said ++ [.command true (bytesOf "DATA")] ∨
        (server.Agrees (said ++ [.command true (bytesOf "DATA")]) 354 ∧
          ¬ server.Agrees (said ++ [.command true (bytesOf "DATA"), blockOf text]) 250 ∧
          c.sent = said ++ [.command true (bytesOf "DATA"), blockOf text]) := by
  refine Ensures.bind (Q := fun _ (c : SmtpClient) =>
    server.Agrees (said ++ [.command true (bytesOf "DATA")]) 354 ∧
      c.Greeted host true (said ++ [.command true (bytesOf "DATA")]))
    ((cmd_ensures 354 _).mono (fun _ hc => hc) (fun r c hc => ⟨⟨r, hc.2⟩, hc.1⟩) ?_)
    fun _ => Ensures.of_and fun hagreed => ?_
  · rintro _ c ⟨hc, -⟩
    rw [hc.sent]
    exact Or.inl List.prefix_rfl
  refine Ensures.bind (Q := fun _ (c : SmtpClient) => c.Greeted host true
    (said ++ [.command true (bytesOf "DATA"), blockOf text])) (Ensures.update fun c hc => ?_)
    fun _ => ?_
  · refine ⟨hc.host, hc.tls, ?_, hc.greeted, hc.welcome⟩
    rw [SmtpClient.send, hc.sent, hc.tls]
    simp [blockOf]
  refine Ensures.bind ((readResponse_ensures 250).mono (fun _ hc => hc) (fun _ _ hc => hc) ?_)
    fun r => Ensures.pure ?_
  · rintro _ c ⟨hc, hrefused⟩
    exact Or.inr ⟨hagreed, hrefused, hc.sent⟩
  · rintro c ⟨hc, hreply⟩
    exact ⟨⟨hagreed, r, hreply⟩, hc⟩

end

end PapeSdk
