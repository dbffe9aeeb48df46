import PapeSdk.Authorities

/-!
The forward proxy. A request is forwarded when a server list or the storage
setting names its target, kept for the local handlers when it is for a domain
of the game, and refused otherwise; a CONNECT request is tunnelled or taken
apart under the same names. The check and the connection each read the target
out of the request again, the one with `net.SplitHostPort`, the other the way
the HTTP transport reads a URL.
-/

namespace PapeSdk

open Authorities

/-- The parts of the standard library whose tables are not repeated here. A
name that the conversion to ASCII accepts has neither a colon nor brackets,
and its result has none either. -/
structure NetLibrary where
  toASCII : Text → Option Text
  toASCII_plain : ∀ host ascii, toASCII host = some ascii →
    (colon ∉ host ∧ Bare host) ∧ colon ∉ ascii ∧ Bare ascii
  isIP : Text → Bool
  equalFold : Text → Text → Bool

/-- The name that is looked up: converted when it is not ASCII and can be. -/
def NetLibrary.idnaASCII (x : NetLibrary) (host : Text) : Text :=
  if host.all Rune.isASCII then host else (x.toASCII host).getD host

def http : Text := textOf "http"

def https : Text := textOf "https"

def defaultPort (scheme : Text) : Option Text :=
  if scheme = http then some (textOf "80")
  else if scheme = https then some (textOf "443")
  else none

def validOptionalPort : Text → Bool
  | [] => true
  | first :: rest => first == colon && digits rest

/-- What the URL parser takes for a host. -/
def parsedHost (host : Text) : Bool :=
  if host.head? = some opening then
    match cutLast closing host with
    | some (_, rest) => validOptionalPort rest
    | none => false
  else
    match cutLast colon host with
    | some (_, port) => digits port
    | none => true

structure URL where
  scheme : Text
  host : Text
  parsed : parsedHost host = true
  deriving DecidableEq

structure Connection where
  host : Text
  port : Text
  deriving DecidableEq

/-- The dialler connects to what it can take apart. -/
def dial (address : Text) : Option Connection :=
  (splitHostPort address).map fun (host, port) => ⟨host, port⟩

/-- The address that the transport dials for a URL. -/
def canonicalAddr (x : NetLibrary) (scheme host : Text) : Text :=
  let (name, port) := urlHostPort host
  joinHostPort (x.idnaASCII name) (if port = [] then (defaultPort scheme).getD [] else port)

def roundTrip (x : NetLibrary) (scheme host : Text) : Option Connection :=
  if scheme ≠ http ∧ scheme ≠ https then none
  else if host = [] then none
  else dial (canonicalAddr x scheme host)

def authorityHostname (authority : Text) : Text :=
  match splitHostPort authority with
  | some (host, _) => trimBrackets host
  | none => trimBrackets authority

/-- Host and port that a check reads, the port empty when there is none. -/
def readAuthority (authority : Text) : Text × Text :=
  match splitHostPort authority with
  | some (host, port) => (trimBrackets host, port)
  | none => (authorityHostname authority, [])

def normalizeProxyAuthority (authority scheme : Text) : Option Text :=
  if authorityHostname authority = [] then none
  else
    let (host, port) := readAuthority authority
    if port ≠ [] then some (joinHostPort (canon host) port)
    else (defaultPort (scheme.map Rune.lower)).map fun port => joinHostPort (canon host) port

/-- The form in which a host is compared with the direct ones. -/
def hostKey (host : Text) : Text := trimDot ((trimSpace host).map Rune.lower)

def isPapegamesHost (host : Text) : Bool :=
  let host := hostKey host
  host == textOf "papegames.com" || (textOf ".papegames.com").isSuffixOf host ||
    host == textOf "infoldgames.com" || (textOf ".infoldgames.com").isSuffixOf host

inductive LoginField where
  | blank
  | malformed
  | url (u : URL)

/-- The two addresses of a server in a server list. -/
structure ServerEntry where
  loginURL : LoginField
  addr : Text

inductive StorageProxy where
  | blank
  | malformed
  | url (u : URL)

structure ProxyConfig where
  passthroughAllUnknown : Bool
  passthroughGameAddress : Bool
  /-- The list of the common directory and those of the applications. -/
  serverLists : List (List ServerEntry)
  publicHost : Text
  /-- The host of the storage endpoint, empty when that is no URL. -/
  endpointHost : Text
  storageProxy : StorageProxy

inductive ProxyError where
  | loginURL
  | addr
  | storagePublicHost
  | storageProxyBaseURL
  deriving DecidableEq, Repr

structure GateTargets where
  httpAuthorities : List Text
  tunnelAuthorities : List Text
  deriving DecidableEq

namespace GateTargets

def addLogin (t : GateTargets) : LoginField → Except ProxyError GateTargets
  | .blank => .ok t
  | .malformed => .error .loginURL
  | .url u =>
    if (urlHostPort u.host).1 = [] ∨ (u.scheme ≠ http ∧ u.scheme ≠ https) then .error .loginURL
    else
      match normalizeProxyAuthority u.host u.scheme with
      | some authority => .ok ⟨authority :: t.httpAuthorities, authority :: t.tunnelAuthorities⟩
      | none => .error .loginURL

def addAddr (t : GateTargets) (addr : Text) : Except ProxyError GateTargets :=
  if trimSpace addr = [] then .ok t
  else
    match normalizeProxyAuthority addr [] with
    | some authority => .ok { t with tunnelAuthorities := authority :: t.tunnelAuthorities }
    | none => .error .addr

def addEntries (t : GateTargets) : List ServerEntry → Except ProxyError GateTargets
  | [] => .ok t
  | e :: rest =>
    match t.addLogin e.loginURL with
    | .error error => .error error
    | .ok t =>
      match t.addAddr e.addr with
      | .error error => .error error
      | .ok t => t.addEntries rest

end GateTargets

structure ProxyServer where
  gateTargets : Option GateTargets
  allowAll : Bool
  storageHost : Text
  storageTarget : Option URL
  directHosts : List Text
  deriving DecidableEq

namespace ProxyConfig

def storageAuthority (cfg : ProxyConfig) : Text :=
  let authority := trimSpace cfg.publicHost
  if authority = [] then cfg.endpointHost else authority

/-- The storage host that requests are passed on to as they are. -/
def directHost (cfg : ProxyConfig) : Option Text :=
  if cfg.storageAuthority = [] then none
  else
    let host := authorityHostname cfg.storageAuthority
    match cfg.storageProxy with
    | .blank => some host
    | _ => if isPapegamesHost host then none else some host

/-- The local storage that takes the place of the public one. -/
def localStorage (cfg : ProxyConfig) : Option URL :=
  match cfg.storageProxy with
  | .url u => if u.scheme ≠ [] ∧ u.host ≠ [] then some u else none
  | _ => none

def loadGateTargets (cfg : ProxyConfig) : Except ProxyError (Option GateTargets) :=
  if cfg.passthroughGameAddress then
    (GateTargets.addEntries ⟨[], []⟩ cfg.serverLists.flatten).map some
  else .ok none

end ProxyConfig

def newProxyHandler (cfg : ProxyConfig) : Except ProxyError ProxyServer := do
  let gateTargets ← cfg.loadGateTargets
  let p : ProxyServer := ⟨gateTargets, cfg.passthroughAllUnknown, [], none, []⟩
  if cfg.storageAuthority = [] then return p
  let storageHost := authorityHostname cfg.storageAuthority
  if storageHost = [] then throw .storagePublicHost
  match cfg.directHost with
  | some host => return { p with directHosts := [host] }
  | none =>
    match cfg.localStorage with
    | some target => return { p with storageHost := storageHost, storageTarget := some target }
    | none => throw .storageProxyBaseURL

/-- What the proxy reads of a request: the host of its URL is empty unless the
request line has one. -/
structure ProxyTarget where
  method : Text
  scheme : Text
  urlHost : Text
  host : Text
  path : Text

/-- The bytes that a Host header may have. -/
def Rune.isHostByte : Rune → Bool
  | .char c => c.isAlphanum || "!$%&()*+,-.:;=['_]~".toList.contains c
  | .invalid _ => false

/-- A request off the wire. The server overwrites the Host header with the
host of the URL, and refuses a header with other bytes than these. -/
structure ProxyRequest extends ProxyTarget where
  received : if urlHost ≠ [] then host = urlHost ∧ parsedHost urlHost = true
    else ∀ r ∈ host, Rune.isHostByte r = true

namespace ProxyTarget

def requestHostname (r : ProxyTarget) : Text :=
  if (urlHostPort r.urlHost).1 ≠ [] then (urlHostPort r.urlHost).1
  else authorityHostname r.host

/-- The authority and the scheme that a plain request is forwarded to. -/
def authority (r : ProxyTarget) : Text := if r.urlHost = [] then r.host else r.urlHost

def forwardScheme (r : ProxyTarget) : Text := if r.scheme = [] then http else r.scheme

end ProxyTarget

inductive Action where
  | rejected
  | notFound
  | internal
  | intercepted
  | storage (c : Option Connection)
  | forwarded (c : Option Connection)
  | tunnelled (c : Option Connection)
  deriving DecidableEq

namespace ProxyServer

def allowsHTTP (p : ProxyServer) (r : ProxyTarget) : Bool :=
  match p.gateTargets with
  | none => false
  | some targets =>
    match normalizeProxyAuthority r.authority r.forwardScheme with
    | some authority => targets.httpAuthorities.contains authority
    | none => false

def allowsTunnel (p : ProxyServer) (authority : Text) : Bool :=
  match p.gateTargets with
  | none => false
  | some targets =>
    match normalizeProxyAuthority authority https with
    | some authority => targets.tunnelAuthorities.contains authority
    | none => false

def allowsDirectHost (p : ProxyServer) (host : Text) : Bool := p.directHosts.contains (hostKey host)

def serveForwardHTTP (x : NetLibrary) (r : ProxyTarget) : Action :=
  .forwarded (roundTrip x r.forwardScheme r.authority)

def serveTunnel (r : ProxyTarget) : Action := .tunnelled (dial r.host)

def serveStorageHTTP (x : NetLibrary) (r : ProxyTarget) (target : URL) : Action :=
  if (textOf "/admin/").isPrefixOf r.path then .notFound
  else .storage (roundTrip x target.scheme target.host)

def serveInternal (p : ProxyServer) (x : NetLibrary) (r : ProxyTarget) : Action :=
  match p.storageTarget with
  | some target =>
    if x.equalFold r.requestHostname p.storageHost then serveStorageHTTP x r target
    else if isPapegamesHost r.requestHostname then .internal else .rejected
  | none => if isPapegamesHost r.requestHostname then .internal else .rejected

def serveConnect (p : ProxyServer) (x : NetLibrary) (r : ProxyTarget) : Action :=
  let host := authorityHostname r.host
  if p.allowsTunnel r.host then serveTunnel r
  else if p.allowsDirectHost host then serveTunnel r
  else if isPapegamesHost host then .intercepted
  else if p.allowAll then serveTunnel r
  else if x.isIP host then .intercepted
  else .rejected

def serveHTTP (p : ProxyServer) (x : NetLibrary) (r : ProxyTarget) : Action :=
  if r.method = textOf "CONNECT" then p.serveConnect x r
  else if p.allowsHTTP r then serveForwardHTTP x r
  else if p.allowsDirectHost r.requestHostname then serveForwardHTTP x r
  else if isPapegamesHost r.requestHostname then p.serveInternal x r
  else if p.allowAll then serveForwardHTTP x r
  else .rejected

/-- What becomes of one request, and of those read inside it when its TLS
connection is intercepted. -/
def actions (p : ProxyServer) (x : NetLibrary) (r : ProxyTarget) (inner : List ProxyTarget) :
    List Action :=
  match p.serveHTTP x r with
  | .intercepted => inner.map (p.serveInternal x)
  | action => [action]

end ProxyServer

end PapeSdk
