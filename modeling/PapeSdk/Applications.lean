import PapeSdk.Envelopes
import PapeSdk.FilePaths

/-!
The configured applications and the two places that choose one for a request:
the keys that check its signature and the directory its resources come from.
Both scan a map, which the language hands out in any order it likes, so every
scan takes the order as an argument.
-/

namespace PapeSdk

open BlockModes AsciiBytes TextCodecs FilePaths

/-- A map from strings. -/
abbrev TextMap (α : Type) := Std.ExtTreeMap Bytes α

/-- The value of a key, or the empty string. -/
def textAt (m : TextMap Bytes) (key : Bytes) : Bytes := m[key]?.getD []

def itoa : ℤ → Bytes
  | .ofNat n => decimal n
  | .negSucc n => 45 :: decimal (n + 1)

def firstNonEmpty : List Bytes → Bytes
  | [] => []
  | v :: rest => if v ≠ [] then v else firstNonEmpty rest

structure Constants where
  clientID : ℤ
  clientKey : Bytes
  appID : Bytes
  appKey : Bytes
  aesKey : Bytes
  deriving DecidableEq

structure Application extends Constants where
  configDir : Bytes
  region : Bytes
  channel : Bytes
  gameClientID : Bytes
  deriving DecidableEq

def Constants.zero : Constants := ⟨0, [], [], [], []⟩

def Application.zero : Application := ⟨Constants.zero, [], [], [], []⟩

structure Config where
  gameConfigDirs : TextMap Bytes
  configDir : Bytes
  constants : Constants
  defaultApplication : Bytes
  userCenterConstants : Constants
  applications : TextMap Application
  baseDir : Path

/-- The applications in the order in which a loop meets them. -/
abbrev Order := List (Bytes × Application)

def Order.Of (order : Order) (applications : TextMap Application) : Prop :=
  order.Perm applications.toList

/-- Completes and checks every application; no client identifier comes twice. -/
def loadApplications : Order → List ℤ → TextMap Application →
    Except Bytes (TextMap Application)
  | [], _, applications => .ok applications
  | (id, app) :: rest, seenClients, applications =>
    let app := if app.appID = [] then { app with appID := id } else app
    if app.appID ≠ id ∨ app.clientID = 0 ∨ app.appKey = [] ∨ app.aesKey = [] then
      .error (bytesOf "invalid application configuration: " ++ id)
    else if app.clientID ∈ seenClients then
      .error (bytesOf "duplicate application client_id: " ++ itoa app.clientID)
    else loadApplications rest (app.clientID :: seenClients) (applications.insert id app)

def Constants.withDefaults (c : Constants) : Constants where
  clientID := if c.clientID = 0 then 1003 else c.clientID
  clientKey := if c.clientKey = [] then bytesOf "jshR3bIqYUSF" else c.clientKey
  appID := if c.appID = [] then accountCenterID else c.appID
  appKey := if c.appKey = [] then bytesOf "NsalbZh76U8VGJp1" else c.appKey
  aesKey := if c.aesKey = [] then bytesOf "ZTM7fu0xYnzkE5Km" else c.aesKey

/-- A single application is the default one unless another is named. -/
def defaultID (named : Bytes) (order : Order) : Bytes :=
  match named, order with
  | [], [(id, _)] => id
  | _, _ => named

/-- What happens to a decoded file at the given absolute path. -/
def Config.load (order : Order) (cfg : Config) (path : Path) : Except Bytes Config := do
  let cfg := { cfg with
    baseDir := path.parent
    configDir := if cfg.configDir = [] then bytesOf "./config" else cfg.configDir
    userCenterConstants := cfg.userCenterConstants.withDefaults }
  let applications ← loadApplications order [] cfg.applications
  let default := defaultID cfg.defaultApplication order
  let cfg := { cfg with applications := applications, defaultApplication := default }
  if order.length > 0 ∨ default ≠ [] then
    match applications[default]? with
    | some app => return { cfg with constants := app.toConstants }
    | none => throw (bytesOf "default_application must name a configured application")
  else return cfg

namespace Config

def resolve (c : Config) (path : Path) : Path :=
  if path.rooted then path else c.baseDir.append path

def configPath (c : Config) (name : Bytes) : Path := c.resolve (Path.join c.configDir name)

/-- A file of a configured directory, and that directory itself. -/
def fileIn (c : Config) (dir name : Bytes) : Path := c.resolve (Path.join dir name)

def directory (c : Config) (dir : Bytes) : Path := c.resolve (Path.clean dir)

/-- Whether the channel, or else the region, is the application's own. -/
def inScope (app : Application) (clientID region channel : Bytes) : Bool :=
  clientID == app.gameClientID &&
    (channel != [] && channel == app.channel ||
      channel == [] && region != [] && region == app.region)

/-- The loop over the applications; an exact client identifier ends it. -/
def scan (clientID region channel : Bytes) : Order → Application → ℕ → Application × Bool
  | [], found, count => (found, count == 1)
  | (_, app) :: rest, found, count =>
    if clientID = itoa app.clientID then (app, true)
    else if inScope app clientID region channel then
      scan clientID region channel rest app (count + 1)
    else scan clientID region channel rest found count

def application (c : Config) (order : Order) (appID clientID region channel : Bytes) :
    Application × Bool :=
  if appID ≠ [] then
    match c.applications[appID]? with
    | some app => (app, true)
    | none => (Application.zero, false)
  else scan clientID region channel order Application.zero 0

def applicationConfigPath (c : Config) (app : Application) (name : Bytes) : Path :=
  if app.configDir ≠ [] then c.fileIn app.configDir name else c.configPath name

end Config

/-- The decoded parameters of a request, each with its values in order. -/
abbrev Values := TextMap (List Bytes)

def Values.get (form : Values) (key : Bytes) : Bytes := (form[key]?.bind List.head?).getD []

/-- The first value of every parameter that has one. -/
def Values.firstValues (form : Values) : TextMap Bytes :=
  form.filterMap fun _ values => values.head?

inductive FileStatus where
  | exists
  | missing
  | unreadable
  deriving DecidableEq, Repr

/-- The resource files that the handlers ask for. -/
inductive Resource where
  | accessoriesInit
  | announce
  | announceList
  | entries
  | entriesCmp
  | parameter
  | patchList
  | paymentInit
  | privacyAgreement
  | privacyAgreementArea (n : ℕ)
  | ratingGuideNodeList
  | sdkClient
  | sensitiveClient
  | sensitiveClientVersion
  | serverList
  deriving DecidableEq, Repr

def Resource.fileName : Resource → Bytes
  | .accessoriesInit => bytesOf "accessories_init.json"
  | .announce => bytesOf "announce.json"
  | .announceList => bytesOf "announcelist.json"
  | .entries => bytesOf "entries.json"
  | .entriesCmp => bytesOf "entries_cmp.json"
  | .parameter => bytesOf "parameter.json"
  | .patchList => bytesOf "patchlist.json"
  | .paymentInit => bytesOf "payment_init.json"
  | .privacyAgreement => bytesOf "privacyagreement.json"
  | .privacyAgreementArea n => bytesOf "privacyagreement_area_" ++ decimal n ++ bytesOf ".json"
  | .ratingGuideNodeList => bytesOf "ratingguidenodelist.json"
  | .sdkClient => bytesOf "sdkclient.json"
  | .sensitiveClient => bytesOf "sensitive_client.json"
  | .sensitiveClientVersion => bytesOf "sensitive_client_version.json"
  | .serverList => bytesOf "serverlist.json"

/-- The last element of a name, with trailing slashes dropped. -/
def baseName (name : Bytes) : Bytes :=
  if name = [] then [dot]
  else
    let trimmed := (name.reverse.dropWhile (· == slash)).reverse
    if trimmed = [] then [slash]
    else (trimmed.splitOn slash).getLast?.getD []

structure App where
  cfg : Config
  bff : BFF
  userCenterBFF : BFF
  userCenterClientID : Bytes

def Constants.bff (c : Constants) : BFF := ⟨c.appID, c.appKey, c.aesKey⟩

/-- The application server of a loaded configuration. -/
def App.ofConfig (cfg : Config) : App where
  cfg := cfg
  bff := cfg.constants.bff
  userCenterBFF := cfg.userCenterConstants.bff
  userCenterClientID := itoa cfg.userCenterConstants.clientID

namespace App

/-- The request names the user center by its application or by its client. -/
def forUserCenter (a : App) (out : TextMap Bytes) : Bool :=
  a.userCenterBFF.appID != [] && textAt out (bytesOf "app_id") == a.userCenterBFF.appID ||
    a.userCenterClientID != [] && textAt out (bytesOf "clientid") == a.userCenterClientID

def bffFor (a : App) (order : Order) (out : TextMap Bytes) : BFF :=
  if a.forUserCenter out then a.userCenterBFF
  else
    let clientID := firstNonEmpty [textAt out (bytesOf "clientid"),
      textAt out (bytesOf "client_id")]
    let channel := firstNonEmpty [textAt out (bytesOf "channel"),
      textAt out (bytesOf "sdk_channel")]
    let (app, ok) := a.cfg.application order (textAt out (bytesOf "app_id")) clientID
      (textAt out (bytesOf "region")) channel
    if ok then app.bff else a.bff

def requestApplication (a : App) (order : Order) (form : Values) : Application × Bool :=
  let clientID := firstNonEmpty [form.get (bytesOf "clientid"), form.get (bytesOf "client_id")]
  let channel := firstNonEmpty [form.get (bytesOf "channel"), form.get (bytesOf "sdk_channel")]
  a.cfg.application order (form.get (bytesOf "app_id")) clientID (form.get (bytesOf "region"))
    channel

/-- The file of a request that no application has been chosen for, or whose
application has no file of its own. A directory for the game client decides
even when the file is missing from it. -/
def fallbackPath (a : App) (form : Values) (clientID : Bytes) (ownPath : Option Path)
    (name : Bytes) : Path :=
  let dir := textAt a.cfg.gameConfigDirs clientID
  if dir ≠ [] then a.cfg.fileIn dir name
  else
    match ownPath with
    | some path => path
    | none =>
      if form.get (bytesOf "app_id") ≠ [] then
        a.cfg.resolve
          (Path.clean (bytesOf "config/unconfigured-application/" ++ baseName name))
      else a.cfg.configPath name

def requestConfigPath (a : App) (order : Order) (stat : Path → FileStatus) (form : Values)
    (name : Bytes) : Path :=
  let (app, selected) := a.requestApplication order form
  let clientID := firstNonEmpty [form.get (bytesOf "clientid"), form.get (bytesOf "client_id")]
  if selected then
    let scopedPath := a.cfg.applicationConfigPath app name
    if stat scopedPath ≠ .missing then scopedPath
    else
      let ownPath := if app.configDir ≠ [] then some scopedPath else none
      a.fallbackPath form app.gameClientID ownPath name
  else a.fallbackPath form clientID none name

end App

end PapeSdk
