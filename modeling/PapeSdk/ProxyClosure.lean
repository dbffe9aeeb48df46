import PapeSdk.ProxyAuthorities

/-!
The proxy is closed to an authority that is read alike. What let a request
through is then what is dialled, and the lists or the storage setting name it.
A login URL is itself an authority that can be misread, and then the list
holds one that no entry names. For each request and configuration these are
the only ways in which a connection leaves the configured authorities.
-/

namespace PapeSdk

open Authorities

/-- The loader files the login URL under this authority. -/
def ServerEntry.FilesLogin (e : ServerEntry) (authority : Text) : Prop :=
  ∃ u, e.loginURL = .url u ∧ normalizeProxyAuthority u.host u.scheme = some authority

def ServerEntry.FilesAddr (e : ServerEntry) (authority : Text) : Prop :=
  normalizeProxyAuthority e.addr [] = some authority

/-- The login URL or the address has this host and port. -/
def ServerEntry.Names (e : ServerEntry) (host port : Text) : Prop :=
  (∃ u, e.loginURL = .url u ∧ canon (urlHostPort u.host).1 = host ∧
    portOr (urlHostPort u.host).2 u.scheme = port) ∨
  ∃ name, splitHostPort e.addr = some (name, port) ∧ canon name = host

/-- A listed host and port, or the storage host with any port. -/
def ProxyConfig.Permits (cfg : ProxyConfig) (host port : Text) : Prop :=
  (cfg.passthroughGameAddress = true ∧ ∃ e ∈ cfg.serverLists.flatten, e.Names host port) ∨
  cfg.directHost = some host

/-- A misread login URL is filed under an authority that is not permitted. -/
def ProxyConfig.Misfiles (cfg : ProxyConfig) (host port : Text) : Prop :=
  (∃ e ∈ cfg.serverLists.flatten, e.FilesLogin (joinHostPort host port)) ∧ ¬cfg.Permits host port

/-- The connection to the local storage. -/
def ProxyConfig.storageConnection (cfg : ProxyConfig) (x : NetLibrary) : Option Connection :=
  cfg.localStorage.bind fun target => roundTrip x target.scheme target.host

namespace GateTargets

theorem addLogin_cases {t t' : GateTargets} {f : LoginField} (h : t.addLogin f = .ok t') :
    t' = t ∨ ∃ u a, f = .url u ∧ normalizeProxyAuthority u.host u.scheme = some a ∧
      t' = ⟨a :: t.httpAuthorities, a :: t.tunnelAuthorities⟩ := by
  cases f with
  | blank =>
    cases h
    exact Or.inl rfl
  | malformed => cases h
  | url u =>
    simp only [addLogin] at h
    split at h
    · cases h
    cases hnormal : normalizeProxyAuthority u.host u.scheme with
    | none =>
      rw [hnormal] at h
      cases h
    | some a =>
      rw [hnormal] at h
      cases h
      exact Or.inr ⟨u, a, rfl, hnormal, rfl⟩

theorem addAddr_cases {t t' : GateTargets} {addr : Text} (h : t.addAddr addr = .ok t') :
    t' = t ∨ ∃ a, normalizeProxyAuthority addr [] = some a ∧
      t' = { t with tunnelAuthorities := a :: t.tunnelAuthorities } := by
  rw [addAddr] at h
  split at h
  · cases h
    exact Or.inl rfl
  cases hnormal : normalizeProxyAuthority addr [] with
  | none =>
    rw [hnormal] at h
    cases h
  | some a =>
    rw [hnormal] at h
    cases h
    exact Or.inr ⟨a, rfl, rfl⟩

/-- A login URL that loading accepts is one for the web. -/
theorem addEntries_web {entries : List ServerEntry} {t t' : GateTargets}
    (h : t.addEntries entries = .ok t') :
    ∀ e ∈ entries, ∀ u, e.loginURL = .url u → u.scheme = http ∨ u.scheme = https := by
  induction entries generalizing t with
  | nil =>
    intro e he
    cases he
  | cons e rest ih =>
    rw [addEntries] at h
    split at h
    · cases h
    next t₁ hlogin =>
    split at h
    · cases h
    next t₂ haddr =>
    intro e' he' u hurl
    rcases List.mem_cons.mp he' with rfl | hrest
    · rw [hurl, addLogin] at hlogin
      split at hlogin
      · cases hlogin
      next haccepted =>
      by_contra hother
      exact haccepted (Or.inr (not_or.mp hother))
    · exact ih h e' hrest u hurl

/-- Everything that loading adds is named by an entry. -/
theorem addEntries_names {entries : List ServerEntry} {t t' : GateTargets}
    (h : t.addEntries entries = .ok t') (n : Text) :
    (n ∈ t'.httpAuthorities → n ∈ t.httpAuthorities ∨ ∃ e ∈ entries, e.FilesLogin n) ∧
      (n ∈ t'.tunnelAuthorities →
        n ∈ t.tunnelAuthorities ∨ ∃ e ∈ entries, e.FilesLogin n ∨ e.FilesAddr n) := by
  induction entries generalizing t with
  | nil =>
    cases h
    exact ⟨Or.inl, Or.inl⟩
  | cons e rest ih =>
    rw [addEntries] at h
    split at h
    · cases h
    next t₁ hlogin =>
    split at h
    · cases h
    next t₂ haddr =>
    have hrest := ih h
    have hhttp₂ : t₂.httpAuthorities = t₁.httpAuthorities := by
      rcases addAddr_cases haddr with rfl | ⟨a, -, rfl⟩
      · rfl
      · rfl
    have htunnel₂ : n ∈ t₂.tunnelAuthorities →
        n ∈ t₁.tunnelAuthorities ∨ e.FilesLogin n ∨ e.FilesAddr n := by
      rcases addAddr_cases haddr with rfl | ⟨a, hnormal, rfl⟩
      · exact Or.inl
      · intro hn
        rcases List.mem_cons.mp hn with rfl | hn
        · exact Or.inr (Or.inr hnormal)
        · exact Or.inl hn
    have hlogin₁ : (n ∈ t₁.httpAuthorities → n ∈ t.httpAuthorities ∨ e.FilesLogin n) ∧
        (n ∈ t₁.tunnelAuthorities → n ∈ t.tunnelAuthorities ∨ e.FilesLogin n) := by
      rcases addLogin_cases hlogin with rfl | ⟨u, a, hurl, hnormal, rfl⟩
      · exact ⟨Or.inl, Or.inl⟩
      · constructor
        · intro hn
          rcases List.mem_cons.mp hn with rfl | hn
          · exact Or.inr ⟨u, hurl, hnormal⟩
          · exact Or.inl hn
        · intro hn
          rcases List.mem_cons.mp hn with rfl | hn
          · exact Or.inr ⟨u, hurl, hnormal⟩
          · exact Or.inl hn
    constructor
    · intro hn
      rcases hrest.1 hn with hn | ⟨e', he', hnames⟩
      · rw [hhttp₂] at hn
        rcases hlogin₁.1 hn with hn | hnames
        · exact Or.inl hn
        · exact Or.inr ⟨e, List.mem_cons_self, hnames⟩
      · exact Or.inr ⟨e', List.mem_cons_of_mem _ he', hnames⟩
    · intro hn
      rcases hrest.2 hn with hn | ⟨e', he', hnames⟩
      · rcases htunnel₂ hn with hn | hnames
        · rcases hlogin₁.2 hn with hn | hnames
          · exact Or.inl hn
          · exact Or.inr ⟨e, List.mem_cons_self, Or.inl hnames⟩
        · exact Or.inr ⟨e, List.mem_cons_self, hnames⟩
      · exact Or.inr ⟨e', List.mem_cons_of_mem _ he', hnames⟩

end GateTargets

/-- What a handler has from its configuration. -/
structure ProxyServer.BuiltFrom (p : ProxyServer) (cfg : ProxyConfig) : Prop where
  loaded : cfg.loadGateTargets = .ok p.gateTargets
  allowAll_eq : p.allowAll = cfg.passthroughAllUnknown
  direct : ∀ k ∈ p.directHosts, cfg.directHost = some k ∧ k ≠ [] ∧ k.head? ≠ some opening
  storage : ∀ t, p.storageTarget = some t → cfg.localStorage = some t

theorem ProxyConfig.directHost_eq {cfg : ProxyConfig} {k : Text} (h : cfg.directHost = some k) :
    k = authorityHostname cfg.storageAuthority := by
  rw [ProxyConfig.directHost] at h
  split at h
  · cases h
  · simp only at h
    split at h
    · exact (Option.some.inj h).symm
    · split at h
      · cases h
      · exact (Option.some.inj h).symm

theorem authorityHostname_head (a : Text) : (authorityHostname a).head? ≠ some opening := by
  rw [authorityHostname]
  split
  · exact trimBrackets_head _
  · exact trimBrackets_head _

theorem newProxyHandler_ok {cfg : ProxyConfig} {p : ProxyServer}
    (h : newProxyHandler cfg = .ok p) : p.BuiltFrom cfg := by
  rw [newProxyHandler] at h
  cases hload : cfg.loadGateTargets with
  | error e =>
    rw [hload] at h
    cases h
  | ok targets =>
    rw [hload] at h
    simp only [bind, Except.bind, pure, Except.pure] at h
    split at h
    · cases h
      exact ⟨hload, rfl, by simp, by simp⟩
    next hauthority =>
    split at h
    · cases h
    next hhost =>
    cases hdirect : cfg.directHost with
    | some host =>
      rw [hdirect] at h
      cases h
      refine ⟨hload, rfl, ?_, by simp⟩
      intro k hk
      have hk' : k = host := by simpa using hk
      have hsame := ProxyConfig.directHost_eq hdirect
      rw [hk']
      exact ⟨hdirect, by rw [hsame]; exact hhost, by rw [hsame]; exact authorityHostname_head _⟩
    | none =>
      rw [hdirect] at h
      simp only at h
      split at h
      · next target hlocal =>
        cases h
        exact ⟨hload, rfl, by simp, fun t ht => Option.some.inj ht ▸ hlocal⟩
      · cases h

theorem colon_readAuthority_port (a scheme : Text) :
    colon ∉ portOr (readAuthority a).2 scheme := by
  unfold portOr
  split
  · exact (digits_plain (defaultPort_digits scheme)).1
  · rw [readAuthority]
    cases hsplit : splitHostPort a with
    | none => exact List.not_mem_nil
    | some q => exact (splitHostPort_eq_some.mp hsplit).1

theorem normalize_addr {addr authority : Text}
    (h : normalizeProxyAuthority addr [] = some authority) :
    ∃ host port, splitHostPort addr = some (host, port) ∧ port ≠ [] ∧
      authority = joinHostPort (canon host) port := by
  rw [normalizeProxyAuthority, readAuthority] at h
  have hdefault : defaultPort (([] : Text).map Rune.lower) = none := by decide
  split at h
  · cases h
  · cases hsplit : splitHostPort addr with
    | none =>
      rw [hsplit] at h
      simp only [ne_eq, not_true_eq_false, if_false, hdefault, Option.map_none, reduceCtorEq] at h
    | some q =>
      obtain ⟨host, port⟩ := q
      rw [hsplit] at h
      simp only at h
      split at h
      · next hport =>
        rw [trimBrackets_bare (splitHostPort_eq_some.mp hsplit).2.1] at h
        exact ⟨host, port, rfl, hport, (Option.some.inj h).symm⟩
      · rw [hdefault] at h
        cases h

namespace ProxyServer.BuiltFrom

variable {p : ProxyServer} {cfg : ProxyConfig} (hbuilt : p.BuiltFrom cfg)

include hbuilt

theorem web (hon : cfg.passthroughGameAddress = true) :
    ∀ e ∈ cfg.serverLists.flatten, ∀ u, e.loginURL = .url u →
      u.scheme = http ∨ u.scheme = https := by
  have hload := hbuilt.loaded
  rw [ProxyConfig.loadGateTargets, if_pos hon] at hload
  cases hadd : GateTargets.addEntries ⟨[], []⟩ cfg.serverLists.flatten with
  | error e =>
    rw [hadd] at hload
    cases hload
  | ok t => exact GateTargets.addEntries_web hadd

theorem filed {t : GateTargets} (ht : p.gateTargets = some t) (n : Text) :
    cfg.passthroughGameAddress = true ∧
      (n ∈ t.httpAuthorities → ∃ e ∈ cfg.serverLists.flatten, e.FilesLogin n) ∧
      (n ∈ t.tunnelAuthorities →
        ∃ e ∈ cfg.serverLists.flatten, e.FilesLogin n ∨ e.FilesAddr n) := by
  have hload := hbuilt.loaded
  rw [ht, ProxyConfig.loadGateTargets] at hload
  split at hload
  · next hon =>
    cases hadd : GateTargets.addEntries ⟨[], []⟩ cfg.serverLists.flatten with
    | error e =>
      rw [hadd] at hload
      cases hload
    | ok t' =>
      rw [hadd] at hload
      cases hload
      obtain ⟨hhttp, htunnel⟩ := GateTargets.addEntries_names hadd n
      refine ⟨hon, fun hn => ?_, fun hn => ?_⟩
      · exact (hhttp hn).resolve_left List.not_mem_nil
      · exact (htunnel hn).resolve_left List.not_mem_nil
  · cases hload

theorem allowsHTTP_files {r : ProxyTarget} (h : p.allowsHTTP r = true) :
    cfg.passthroughGameAddress = true ∧ ∃ n, normalizeProxyAuthority r.authority r.forwardScheme =
      some n ∧ ∃ e ∈ cfg.serverLists.flatten, e.FilesLogin n ∨ e.FilesAddr n := by
  rw [allowsHTTP] at h
  cases ht : p.gateTargets with
  | none =>
    rw [ht] at h
    cases h
  | some t =>
    cases hn : normalizeProxyAuthority r.authority r.forwardScheme with
    | none =>
      rw [ht, hn] at h
      cases h
    | some n =>
      rw [ht, hn] at h
      obtain ⟨hon, hhttp, -⟩ := hbuilt.filed ht n
      obtain ⟨e, he, hfiles⟩ := hhttp (List.contains_iff_mem.mp h)
      exact ⟨hon, n, rfl, e, he, Or.inl hfiles⟩

theorem allowsTunnel_files {authority : Text} (h : p.allowsTunnel authority = true) :
    cfg.passthroughGameAddress = true ∧ ∃ n, normalizeProxyAuthority authority https = some n ∧
      ∃ e ∈ cfg.serverLists.flatten, e.FilesLogin n ∨ e.FilesAddr n := by
  rw [allowsTunnel] at h
  cases ht : p.gateTargets with
  | none =>
    rw [ht] at h
    cases h
  | some t =>
    cases hn : normalizeProxyAuthority authority https with
    | none =>
      rw [ht, hn] at h
      cases h
    | some n =>
      rw [ht, hn] at h
      obtain ⟨hon, -, htunnel⟩ := hbuilt.filed ht n
      exact ⟨hon, n, rfl, htunnel (List.contains_iff_mem.mp h)⟩

theorem direct_key {name : Text} (h : p.allowsDirectHost name = true) :
    cfg.directHost = some (hostKey name) ∧ hostKey name ≠ [] ∧
      (hostKey name).head? ≠ some opening :=
  hbuilt.direct _ (List.contains_iff_mem.mp h)

end ProxyServer.BuiltFrom

theorem ProxyConfig.permits_filed {cfg : ProxyConfig} {host port : Text}
    (hon : cfg.passthroughGameAddress = true) (hp : colon ∉ port)
    (hfiled : ∃ e ∈ cfg.serverLists.flatten,
      e.FilesLogin (joinHostPort host port) ∨ e.FilesAddr (joinHostPort host port))
    (hmis : ¬cfg.Misfiles host port) : cfg.Permits host port := by
  obtain ⟨e, he, hlogin | haddr⟩ := hfiled
  · by_contra hno
    exact hmis ⟨⟨e, he, hlogin⟩, hno⟩
  · obtain ⟨name, port', hsplit, -, hjoin⟩ := normalize_addr haddr
    obtain ⟨rfl, rfl⟩ := joinHostPort_inj hp (splitHostPort_eq_some.mp hsplit).1 hjoin
    exact Or.inl ⟨hon, e, he, Or.inr ⟨name, hsplit, rfl⟩⟩

/-- The check that let a request through read this connection out of it: a
list compares host and port, the storage setting the host alone. -/
def ReadAs (listed : Bool) (authority scheme name : Text) (c : Connection) : Prop :=
  if listed then
    normalizeProxyAuthority authority scheme = some (joinHostPort (canon c.host) c.port)
  else hostKey name = canon c.host

def ProxyServer.Checked (p : ProxyServer) (r : ProxyTarget) (c : Connection) : Prop :=
  if r.method = textOf "CONNECT" then
    ReadAs (p.allowsTunnel r.host) r.host https (authorityHostname r.host) c
  else ReadAs (p.allowsHTTP r) r.authority r.forwardScheme r.requestHostname c

/-- Forwarding and tunnelling connect to the authority that was checked and
that the configuration permits; nothing else connects but to the local storage. -/
def Action.Permitted (cfg : ProxyConfig) (p : ProxyServer) (x : NetLibrary) (r : ProxyTarget) :
    Action → Prop
  | .forwarded c => ∀ d, c = some d → p.Checked r d ∧ cfg.Permits (canon d.host) d.port
  | .tunnelled c => ∀ d, c = some d → p.Checked r d ∧ cfg.Permits (canon d.host) d.port
  | .storage c => ∀ d, c = some d → cfg.storageConnection x = some d
  | _ => True

/-- The dialler takes the name as it is, or out of one pair of brackets. -/
def Dialable (name : Text) : Prop :=
  Bare name ∨ ∃ host, colon ∉ host ∧ Bare host ∧ name = opening :: (host ++ [closing])

/-- A list reads the authority as the transport does, and an entry names it. -/
def ProxyConfig.ListedAlike (cfg : ProxyConfig) (x : NetLibrary) (authority scheme : Text) : Prop :=
  ¬Misread authority ∧
  (Bare (urlHostPort authority).1 →
    canon (x.idnaASCII (urlHostPort authority).1) = canon (urlHostPort authority).1) ∧
  ¬cfg.Misfiles (canon (readAuthority authority).1) (portOr (readAuthority authority).2 scheme)

/-- The storage host is compared with the name that is looked up. -/
def DirectAlike (x : NetLibrary) (r : ProxyTarget) : Prop :=
  (r.urlHost = [] → ¬Misread r.authority) ∧
  (Bare (urlHostPort r.authority).1 →
    hostKey (urlHostPort r.authority).1 = canon (x.idnaASCII (urlHostPort r.authority).1))

/-- If the request is let through, then by its own authority. -/
def ProxyServer.ReadsAlike (p : ProxyServer) (cfg : ProxyConfig) (x : NetLibrary)
    (r : ProxyTarget) : Prop :=
  if r.method = textOf "CONNECT" then
    ∀ host port, splitHostPort r.host = some (host, port) →
      if p.allowsTunnel r.host then port ≠ [] ∧ ¬cfg.Misfiles (canon host) port
      else p.allowsDirectHost (authorityHostname r.host) = true → hostKey host = canon host
  else
    r.forwardScheme = http ∨ r.forwardScheme = https → Dialable (urlHostPort r.authority).1 →
      if p.allowsHTTP r then cfg.ListedAlike x r.authority r.forwardScheme
      else p.allowsDirectHost r.requestHostname = true → DirectAlike x r

theorem dialable_dials {x : NetLibrary} {scheme a : Text} (hscheme : scheme = http ∨ scheme = https)
    (ha : a ≠ []) (h : Dialable (urlHostPort a).1) : ∃ c, roundTrip x scheme a = some c := by
  rcases h with hbare | ⟨host, hno, hhost, hname⟩
  · exact ⟨_, roundTrip_bare hscheme ha hbare⟩
  · exact ⟨_, roundTrip_enclosed hscheme ha hno hhost hname⟩

theorem dialable_of_dials {x : NetLibrary} {scheme a : Text} {c : Connection}
    (h : roundTrip x scheme a = some c) : Dialable (urlHostPort a).1 := by
  obtain ⟨-, -, -, ⟨hbare, -⟩ | ⟨hname, hno, hbare⟩⟩ := roundTrip_some h
  · exact Or.inl hbare
  · exact Or.inr ⟨_, hno, hbare, hname⟩

theorem normalize_read {a scheme n : Text} (hscheme : scheme = http ∨ scheme = https)
    (h : normalizeProxyAuthority a scheme = some n) :
    a ≠ [] ∧ n = joinHostPort (canon (readAuthority a).1) (portOr (readAuthority a).2 scheme) := by
  rw [normalize_web hscheme] at h
  split at h
  · cases h
  next hhost =>
  refine ⟨?_, (Option.some.inj h).symm⟩
  rintro rfl
  exact hhost rfl

/-- An authority that no entry names is on the lists only through a login URL that is misread,
or whose hostname keeps a bracket. -/
theorem ProxyConfig.Misfiles.misread {p : ProxyServer} {cfg : ProxyConfig} {host port : Text}
    (h : cfg.Misfiles host port) (hbuilt : p.BuiltFrom cfg)
    (hon : cfg.passthroughGameAddress = true) (hp : colon ∉ port) :
    ∃ e ∈ cfg.serverLists.flatten, ∃ u, e.loginURL = .url u ∧
      normalizeProxyAuthority u.host u.scheme = some (joinHostPort host port) ∧
      (Misread u.host ∨ ¬Bare (urlHostPort u.host).1) := by
  obtain ⟨⟨e, he, u, hurl, hfiled⟩, hno⟩ := h
  refine ⟨e, he, u, hurl, hfiled, ?_⟩
  by_contra hread
  rw [not_or, not_not] at hread
  have hsame := read_bare hread.1 hread.2
  obtain ⟨-, hjoin⟩ := normalize_read (hbuilt.web hon e he u hurl) hfiled
  have hport : colon ∉ portOr (readAuthority u.host).2 u.scheme :=
    colon_readAuthority_port u.host u.scheme
  obtain ⟨rfl, rfl⟩ := joinHostPort_inj hp hport hjoin
  rw [hsame] at hno
  exact hno (Or.inl ⟨hon, e, he, Or.inl ⟨u, hurl, rfl, rfl⟩⟩)

/-- A listed authority is the one that is connected to, exactly when it is
read alike. -/
theorem listed_iff {cfg : ProxyConfig} {x : NetLibrary} {a scheme n : Text}
    (hscheme : scheme = http ∨ scheme = https) (hname : normalizeProxyAuthority a scheme = some n)
    (hon : cfg.passthroughGameAddress = true)
    (hfiled : ∃ e ∈ cfg.serverLists.flatten, e.FilesLogin n ∨ e.FilesAddr n) :
    (∀ c, roundTrip x scheme a = some c →
        normalizeProxyAuthority a scheme = some (joinHostPort (canon c.host) c.port) ∧
          cfg.Permits (canon c.host) c.port) ↔
      (Dialable (urlHostPort a).1 → cfg.ListedAlike x a scheme) := by
  obtain ⟨ha, rfl⟩ := normalize_read hscheme hname
  have hport := colon_readAuthority_port a scheme
  constructor
  · intro hclosed hdial
    have hread : ∀ c, roundTrip x scheme a = some c →
        canon (readAuthority a).1 = canon c.host ∧ portOr (readAuthority a).2 scheme = c.port := by
      intro c hc
      have hsame := (hclosed c hc).1
      rw [hname] at hsame
      have hcolon : colon ∉ c.port := by
        rw [(roundTrip_some hc).2.2.1]
        exact (digits_plain (portOr_digits (urlHostPort_digits a) scheme)).1
      exact joinHostPort_inj hport hcolon (Option.some.inj hsame)
    have halike : ¬Misread a := by
      intro hmis
      obtain ⟨c, hc, hne⟩ := misread_dials hscheme hmis
      exact hne (hread c hc).1
    refine ⟨halike, ?_, ?_⟩
    · intro hbare
      have hhost := (hread _ (roundTrip_bare (x := x) hscheme ha hbare)).1
      rw [read_bare halike hbare] at hhost
      exact hhost.symm
    · intro hmis
      obtain ⟨c, hc⟩ := dialable_dials (x := x) hscheme ha hdial
      obtain ⟨hhost, hsame⟩ := hread c hc
      apply hmis.2
      rw [hhost, hsame]
      exact (hclosed c hc).2
  · intro halike c hc
    obtain ⟨hread, hkeep, hmis⟩ := halike (dialable_of_dials hc)
    obtain ⟨hsame, hhost⟩ := read_alike hread hc
    have hcanon : canon c.host = canon (readAuthority a).1 := by
      rcases hhost with heq | ⟨hbare, heq, hdialled⟩
      · rw [heq]
      · rw [heq, hdialled, hkeep hbare]
    rw [hcanon, hsame]
    exact ⟨hname, ProxyConfig.permits_filed hon hport hfiled hmis⟩

theorem hostByte_range {r : Rune} (h : Rune.isHostByte r = true) :
    ∃ c, r = .char c ∧ 33 ≤ c.toNat ∧ c.toNat ≤ 126 := by
  cases r with
  | invalid b => cases h
  | char c =>
    refine ⟨c, rfl, ?_⟩
    rw [Rune.isHostByte, Bool.or_eq_true] at h
    rcases h with halnum | hmark
    · change ((decide (c.val ≥ 65 ∧ c.val ≤ 90) || (c.val ≥ 97 && c.val ≤ 122)) ||
        (c.val ≥ 48 && c.val ≤ 57)) = true at halnum
      simp only [Bool.or_eq_true, Bool.and_eq_true, decide_eq_true_eq, ge_iff_le,
        UInt32.le_iff_toNat_le, UInt32.reduceToNat] at halnum
      change 33 ≤ c.val.toNat ∧ c.val.toNat ≤ 126
      omega
    · have hmarks : "!$%&()*+,-.:;=['_]~".toList.all
          (fun d => 33 ≤ d.toNat && d.toNat ≤ 126) = true := by decide
      have hrange := List.all_eq_true.mp hmarks c (List.contains_iff_mem.mp hmark)
      simpa using hrange

theorem hostByte_plain {r : Rune} (h : Rune.isHostByte r = true) :
    r.isSpace = false ∧ r.isASCII = true := by
  obtain ⟨c, rfl, hlow, hhigh⟩ := hostByte_range h
  constructor
  · rw [← Bool.not_eq_true]
    intro hspace
    have hmem := (LetterCase.isSpace_iff c).mp hspace
    simp only [LetterCase.spaces, List.mem_cons, List.not_mem_nil, or_false] at hmem
    omega
  · simp only [Rune.isASCII, decide_eq_true_eq]
    omega

theorem hostKey_spaceless {t : Text} (h : ∀ r ∈ t, r.isSpace = false) : hostKey t = canon t := by
  have htrim : trimSpace t = t :=
    trimSpace_ends (fun r hr => h r (List.mem_of_head? hr))
      (fun r hr => h r (List.mem_of_getLast? hr))
  rw [hostKey, htrim, trimDot_map_lower]

theorem hostKey_enclosed (host : Text) :
    (hostKey (opening :: (host ++ [closing]))).head? = some opening := by
  have hlast : (opening :: (host ++ [closing])).getLast? = some closing := by
    rw [← List.cons_append, List.getLast?_concat]
  have htrim : trimSpace (opening :: (host ++ [closing])) = opening :: (host ++ [closing]) := by
    apply trimSpace_ends
    · intro r hr
      rw [← Option.some.inj hr]
      decide
    · intro r hr
      rw [hlast] at hr
      rw [← Option.some.inj hr]
      decide
  have hdot : ¬(opening :: (host ++ [closing])).getLast? = some dot := by
    rw [hlast]
    decide
  rw [hostKey, htrim, trimDot_map_lower, canon, trimDot, if_neg hdot, List.map_cons]
  exact congrArg some ((Rune.lower_eq_mark (by decide) opening).mpr rfl)

theorem stripBrackets_subset {r : Rune} {t : Text} (h : r ∈ stripBrackets t) : r ∈ t := by
  rcases eq_of_stripBrackets t with heq | heq
  · rwa [heq] at h
  · rw [heq]
    exact List.mem_cons_of_mem _ (List.mem_append_left _ h)

theorem mem_of_mem_urlHost {r : Rune} {a : Text} (h : r ∈ (urlHostPort a).1) : r ∈ a := by
  rcases urlHostPort_cases a with ⟨host, port, rfl, -, hurl⟩ | ⟨hurl, -⟩
  · rw [hurl] at h
    exact List.mem_append_left _ (stripBrackets_subset h)
  · rw [hurl] at h
    exact stripBrackets_subset h

/-- Where a URL has no hostname, the check reads none. -/
theorem read_nameless {a : Text} (h : (urlHostPort a).1 = []) : (readAuthority a).1 = [] := by
  have hbare : Bare [] := ⟨List.not_mem_nil, List.not_mem_nil⟩
  rcases urlHostPort_cases a with ⟨host, port, rfl, hd, hurl⟩ | ⟨hurl, -⟩
  · have hport := digits_plain hd
    have hstrip : stripBrackets host = [] := by rwa [hurl] at h
    rcases eq_of_stripBrackets host with heq | heq
    · rw [← heq, hstrip, read_port hbare List.not_mem_nil hport.2 hport.1]
    · rw [heq, hstrip]
      exact congrArg Prod.fst (read_wrapped_port hbare hport.2 hport.1)
  · have hstrip : stripBrackets a = [] := by rwa [hurl] at h
    rcases eq_of_stripBrackets a with heq | heq
    · rw [← heq, hstrip]
      rfl
    · rw [heq, hstrip]
      exact congrArg Prod.fst (read_wrapped hbare)

/-- The storage host is the one that is connected to, exactly when it is
compared with the name that is looked up. -/
theorem direct_iff {cfg : ProxyConfig} {p : ProxyServer} {x : NetLibrary} {r : ProxyRequest}
    (hbuilt : p.BuiltFrom cfg)
    (hscheme : r.toProxyTarget.forwardScheme = http ∨ r.toProxyTarget.forwardScheme = https)
    (hallow : p.allowsDirectHost r.toProxyTarget.requestHostname = true) :
    (∀ c, roundTrip x r.toProxyTarget.forwardScheme r.toProxyTarget.authority = some c →
        hostKey r.toProxyTarget.requestHostname = canon c.host) ↔
      (Dialable (urlHostPort r.toProxyTarget.authority).1 → DirectAlike x r.toProxyTarget) := by
  obtain ⟨-, hkey, hhead⟩ := hbuilt.direct_key hallow
  have hreceived := r.received
  by_cases hurl : r.urlHost = []
  · -- a Host header, of bytes that no reader trims
    rw [if_neg (not_not.mpr hurl)] at hreceived
    have hauthority : r.toProxyTarget.authority = r.host := if_pos hurl
    have hname : r.toProxyTarget.requestHostname = (readAuthority r.host).1 := by
      rw [ProxyTarget.requestHostname, hurl]
      exact authorityHostname_eq r.host
    have hplain : hostKey (readAuthority r.host).1 = canon (readAuthority r.host).1 :=
      hostKey_spaceless fun b hb => (hostByte_plain (hreceived b (mem_of_mem_readAuthority hb))).1
    have hlook : x.idnaASCII (urlHostPort r.host).1 = (urlHostPort r.host).1 :=
      if_pos (List.all_eq_true.mpr fun b hb =>
        (hostByte_plain (hreceived b (mem_of_mem_urlHost hb))).2)
    have hspaceless : hostKey (urlHostPort r.host).1 = canon (urlHostPort r.host).1 :=
      hostKey_spaceless fun b hb => (hostByte_plain (hreceived b (mem_of_mem_urlHost hb))).1
    rw [DirectAlike, hauthority, hname, hplain, hlook]
    constructor
    · intro hclosed _
      refine ⟨fun _ hmis => ?_, fun _ => hspaceless⟩
      obtain ⟨c, hc, hne⟩ := misread_dials hscheme hmis
      exact hne (hclosed c hc)
    · intro halike c hc
      obtain ⟨hread, -⟩ := halike (dialable_of_dials hc)
      rcases (read_alike (hread hurl) hc).2 with heq | ⟨-, heq, hdialled⟩
      · rw [heq]
      · rw [heq, hdialled, hlook]
  · -- an absolute URL, whose hostname is compared when it has one
    rw [if_pos hurl] at hreceived
    have hauthority : r.toProxyTarget.authority = r.urlHost := if_neg hurl
    have hnamed : (urlHostPort r.urlHost).1 ≠ [] := by
      intro hnone
      have hname : r.toProxyTarget.requestHostname = [] := by
        rw [ProxyTarget.requestHostname, if_neg (not_not.mpr hnone), authorityHostname_eq,
          hreceived.1, read_nameless hnone]
      rw [hname] at hkey
      exact hkey rfl
    have hname : r.toProxyTarget.requestHostname = (urlHostPort r.urlHost).1 := if_pos hnamed
    rw [DirectAlike, hauthority, hname]
    constructor
    · intro hclosed _
      exact ⟨fun hnone => absurd hnone hurl, fun hbare =>
        hclosed _ (roundTrip_bare hscheme hurl hbare)⟩
    · intro halike c hc
      obtain ⟨-, -, -, ⟨hbare, hhost⟩ | ⟨hwrapped, -⟩⟩ := roundTrip_some hc
      · rw [hhost]
        exact (halike (Or.inl hbare)).2 hbare
      · rw [hname, hwrapped] at hhead
        exact absurd (hostKey_enclosed c.host) hhead

theorem dial_eq_some {a : Text} {c : Connection} :
    dial a = some c ↔ splitHostPort a = some (c.host, c.port) := by
  rw [dial, Option.map_eq_some_iff]
  constructor
  · rintro ⟨⟨host, port⟩, hsplit, rfl⟩
    exact hsplit
  · intro h
    exact ⟨_, h, rfl⟩

theorem read_split {a host port : Text} (h : splitHostPort a = some (host, port)) :
    readAuthority a = (host, port) := by
  rw [readAuthority, h]
  simp only [trimBrackets_bare (splitHostPort_eq_some.mp h).2.1]

theorem tunnel_iff {cfg : ProxyConfig} {p : ProxyServer} {a : Text} (hbuilt : p.BuiltFrom cfg)
    (hallow : p.allowsTunnel a = true) :
    (∀ c, dial a = some c →
        normalizeProxyAuthority a https = some (joinHostPort (canon c.host) c.port) ∧
          cfg.Permits (canon c.host) c.port) ↔
      ∀ host port, splitHostPort a = some (host, port) →
        port ≠ [] ∧ ¬cfg.Misfiles (canon host) port := by
  obtain ⟨hon, n, hname, hfiled⟩ := hbuilt.allowsTunnel_files hallow
  obtain ⟨-, rfl⟩ := normalize_read (Or.inr rfl) hname
  constructor
  · intro hclosed host port hsplit
    obtain ⟨hsame, hpermits⟩ := hclosed ⟨host, port⟩ (dial_eq_some.mpr hsplit)
    rw [hname, read_split hsplit, Option.some.injEq] at hsame
    have hcolon := colon_readAuthority_port a https
    rw [read_split hsplit] at hcolon
    have hport := (joinHostPort_inj hcolon (splitHostPort_eq_some.mp hsplit).1 hsame).2
    refine ⟨?_, fun hmis => hmis.2 hpermits⟩
    -- without a port the check takes the default one
    rintro rfl
    have hdefault : portOr [] https ≠ [] := by decide
    exact hdefault hport
  · intro halike c hc
    have hsplit := dial_eq_some.mp hc
    obtain ⟨hport, hmis⟩ := halike _ _ hsplit
    have hsame : portOr c.port https = c.port := if_neg hport
    rw [read_split hsplit, hsame] at hname hfiled
    exact ⟨hname, ProxyConfig.permits_filed hon (splitHostPort_eq_some.mp hsplit).1 hfiled hmis⟩

section Serving

variable {p : ProxyServer} {cfg : ProxyConfig} {x : NetLibrary} {r : ProxyTarget}

theorem serveInternal_permitted (hbuilt : p.BuiltFrom cfg) (i : ProxyTarget) :
    (p.serveInternal x i).Permitted cfg p x r := by
  unfold ProxyServer.serveInternal
  split
  · next target htarget =>
    split
    · unfold ProxyServer.serveStorageHTTP
      split
      · trivial
      · intro d hd
        rw [ProxyConfig.storageConnection, hbuilt.storage target htarget]
        exact hd
    · split
      · trivial
      · trivial
  · split
    · trivial
    · trivial

/-- What is read inside an intercepted connection goes no further than the
local storage, so the request itself decides. -/
theorem actions_permitted_iff {inner : List ProxyTarget} (hbuilt : p.BuiltFrom cfg) :
    (∀ a ∈ p.actions x r inner, a.Permitted cfg p x r) ↔
      (p.serveHTTP x r).Permitted cfg p x r := by
  unfold ProxyServer.actions
  split
  · next hserve =>
    rw [hserve]
    refine ⟨fun _ => trivial, fun _ a ha => ?_⟩
    obtain ⟨i, -, rfl⟩ := List.mem_map.mp ha
    exact serveInternal_permitted hbuilt i
  · exact List.forall_mem_singleton

theorem serveConnect_tunnel (h : p.allowsTunnel r.host = true ∨
    p.allowsDirectHost (authorityHostname r.host) = true) :
    p.serveConnect x r = .tunnelled (dial r.host) := by
  unfold ProxyServer.serveConnect
  split
  · rfl
  next hlist =>
  rw [if_pos (h.resolve_left hlist)]
  rfl

theorem serveConnect_kept (hoff : p.allowAll = false) (hlist : p.allowsTunnel r.host = false)
    (hdirect : p.allowsDirectHost (authorityHostname r.host) = false) :
    p.serveConnect x r = .intercepted ∨ p.serveConnect x r = .rejected := by
  unfold ProxyServer.serveConnect
  simp only [hlist, hdirect, hoff, Bool.false_eq_true, if_false]
  split
  · exact Or.inl rfl
  · split
    · exact Or.inl rfl
    · exact Or.inr rfl

theorem serveConnect_permitted_iff (hbuilt : p.BuiltFrom cfg) (hoff : p.allowAll = false)
    (hmethod : r.method = textOf "CONNECT") :
    (p.serveConnect x r).Permitted cfg p x r ↔ p.ReadsAlike cfg x r := by
  rw [ProxyServer.ReadsAlike, if_pos hmethod]
  have hchecked : ∀ d, p.Checked r d =
      ReadAs (p.allowsTunnel r.host) r.host https (authorityHostname r.host) d :=
    fun d => if_pos hmethod
  by_cases hlist : p.allowsTunnel r.host = true
  · rw [serveConnect_tunnel (Or.inl hlist)]
    simp only [Action.Permitted, hchecked, ReadAs, hlist, if_true]
    exact tunnel_iff hbuilt hlist
  · rw [Bool.not_eq_true] at hlist
    by_cases hdirect : p.allowsDirectHost (authorityHostname r.host) = true
    · rw [serveConnect_tunnel (Or.inr hdirect)]
      simp only [Action.Permitted, hchecked, ReadAs, hlist, hdirect, Bool.false_eq_true, if_false,
        true_imp_iff]
      have hkey := (hbuilt.direct_key hdirect).1
      constructor
      · intro hclosed host port hsplit
        have hsame := (hclosed ⟨host, port⟩ (dial_eq_some.mpr hsplit)).1
        rwa [authorityHostname_eq, read_split hsplit] at hsame
      · intro halike d hd
        have hsplit := dial_eq_some.mp hd
        have hsame := halike _ _ hsplit
        rw [authorityHostname_eq, read_split hsplit] at hkey ⊢
        exact ⟨hsame, Or.inr (hsame ▸ hkey)⟩
    · rw [Bool.not_eq_true] at hdirect
      simp only [hlist, hdirect, Bool.false_eq_true, if_false, false_imp_iff, implies_true,
        iff_true]
      rcases serveConnect_kept (x := x) hoff hlist hdirect with heq | heq
      · rw [heq]
        trivial
      · rw [heq]
        trivial

theorem serveHTTP_forwards (hmethod : r.method ≠ textOf "CONNECT")
    (h : p.allowsHTTP r = true ∨ p.allowsDirectHost r.requestHostname = true) :
    p.serveHTTP x r = .forwarded (roundTrip x r.forwardScheme r.authority) := by
  unfold ProxyServer.serveHTTP
  rw [if_neg hmethod]
  split
  · rfl
  next hlist =>
  rw [if_pos (h.resolve_left hlist)]
  rfl

theorem serveHTTP_kept (hbuilt : p.BuiltFrom cfg) (hoff : p.allowAll = false)
    (hmethod : r.method ≠ textOf "CONNECT") (hlist : p.allowsHTTP r = false)
    (hdirect : p.allowsDirectHost r.requestHostname = false) :
    (p.serveHTTP x r).Permitted cfg p x r := by
  unfold ProxyServer.serveHTTP
  simp only [if_neg hmethod, hlist, hdirect, hoff, Bool.false_eq_true, if_false]
  split
  · exact serveInternal_permitted hbuilt r
  · trivial

end Serving

/-- With the pass-through of unknown hosts off, every connection of a request
goes to a listed host and port or to the storage host, and to the authority
that was checked, exactly when the request is read alike. -/
theorem proxy_is_closed_iff {cfg : ProxyConfig} {p : ProxyServer} (x : NetLibrary)
    (hp : newProxyHandler cfg = .ok p) (hoff : cfg.passthroughAllUnknown = false)
    (r : ProxyRequest) (inner : List ProxyTarget) :
    (∀ a ∈ p.actions x r.toProxyTarget inner, a.Permitted cfg p x r.toProxyTarget) ↔
      p.ReadsAlike cfg x r.toProxyTarget := by
  have hbuilt := newProxyHandler_ok hp
  have hall : p.allowAll = false := hbuilt.allowAll_eq.trans hoff
  rw [actions_permitted_iff hbuilt]
  by_cases hmethod : r.method = textOf "CONNECT"
  · have hserve : p.serveHTTP x r.toProxyTarget = p.serveConnect x r.toProxyTarget :=
      if_pos hmethod
    rw [hserve]
    exact serveConnect_permitted_iff hbuilt hall hmethod
  · rw [ProxyServer.ReadsAlike, if_neg hmethod]
    have hchecked : ∀ d, p.Checked r.toProxyTarget d = ReadAs (p.allowsHTTP r.toProxyTarget)
        r.toProxyTarget.authority r.toProxyTarget.forwardScheme r.toProxyTarget.requestHostname d :=
      fun d => if_neg hmethod
    have hweb : ∀ d, roundTrip x r.toProxyTarget.forwardScheme r.toProxyTarget.authority = some d →
        r.toProxyTarget.forwardScheme = http ∨ r.toProxyTarget.forwardScheme = https :=
      fun d hd => (roundTrip_some hd).1
    by_cases hlist : p.allowsHTTP r.toProxyTarget = true
    · rw [serveHTTP_forwards hmethod (Or.inl hlist)]
      simp only [Action.Permitted, hchecked, ReadAs, hlist, if_true]
      obtain ⟨hon, n, hname, hfiled⟩ := hbuilt.allowsHTTP_files hlist
      constructor
      · intro hclosed hscheme
        exact (listed_iff hscheme hname hon hfiled).mp hclosed
      · intro halike d hd
        exact (listed_iff (hweb d hd) hname hon hfiled).mpr (halike (hweb d hd)) d hd
    · rw [Bool.not_eq_true] at hlist
      by_cases hdirect : p.allowsDirectHost r.toProxyTarget.requestHostname = true
      · rw [serveHTTP_forwards hmethod (Or.inr hdirect)]
        simp only [Action.Permitted, hchecked, ReadAs, hlist, hdirect, Bool.false_eq_true, if_false,
          true_imp_iff]
        have hkey := (hbuilt.direct_key hdirect).1
        constructor
        · intro hclosed hscheme
          exact (direct_iff hbuilt hscheme hdirect).mp fun c hc => (hclosed c hc).1
        · intro halike d hd
          have hsame := (direct_iff hbuilt (hweb d hd) hdirect).mpr (halike (hweb d hd)) d hd
          exact ⟨hsame, Or.inr (hsame ▸ hkey)⟩
      · rw [Bool.not_eq_true] at hdirect
        simp only [hlist, hdirect, Bool.false_eq_true, if_false, false_imp_iff, implies_true,
          iff_true]
        exact serveHTTP_kept hbuilt hall hmethod hlist hdirect

/-- The ASCII names of the samples are not converted. -/
def asciiLibrary : NetLibrary where
  toASCII := fun _ => none
  toASCII_plain := by
    rintro host ascii h
    cases h
  isIP := fun _ => false
  equalFold := fun s t => s.map Rune.lower == t.map Rune.lower

def addressEntry : ServerEntry where
  loginURL := .url ⟨http, textOf "[2001:db8::5:8080]", by decide⟩
  addr := textOf "gate.example.com:7000"

def addressConfig : ProxyConfig where
  passthroughAllUnknown := false
  passthroughGameAddress := true
  serverLists := [[addressEntry]]
  publicHost := []
  endpointHost := []
  storageProxy := .blank

def addressServer : ProxyServer where
  gateTargets := some ⟨[textOf "[2001:db8::5:8080]:80"],
    [textOf "gate.example.com:7000", textOf "[2001:db8::5:8080]:80"]⟩
  allowAll := false
  storageHost := []
  storageTarget := none
  directHosts := []

theorem addressServer_built : newProxyHandler addressConfig = .ok addressServer := by
  decide +kernel

/-- The listed address without its brackets. -/
def unbracketed : ProxyRequest where
  method := textOf "GET"
  scheme := http
  urlHost := textOf "2001:db8::5:8080"
  host := textOf "2001:db8::5:8080"
  path := textOf "/"
  received := by decide

/-- The check takes it for the listed address, the transport for another one
and a port. -/
theorem unbracketed_dialled :
    newProxyHandler addressConfig = .ok addressServer ∧
      addressConfig.passthroughAllUnknown = false ∧
      addressServer.actions asciiLibrary unbracketed.toProxyTarget [] =
        [.forwarded (some ⟨textOf "2001:db8::5", textOf "8080"⟩)] ∧
      ¬∀ a ∈ addressServer.actions asciiLibrary unbracketed.toProxyTarget [],
        a.Permitted addressConfig addressServer asciiLibrary unbracketed.toProxyTarget := by
  have hactions : addressServer.actions asciiLibrary unbracketed.toProxyTarget [] =
      [.forwarded (some ⟨textOf "2001:db8::5", textOf "8080"⟩)] := by decide +kernel
  refine ⟨addressServer_built, rfl, hactions, ?_⟩
  intro hclosed
  rw [hactions] at hclosed
  obtain ⟨-, ⟨-, e, he, hnames⟩ | hdirect⟩ := hclosed _ List.mem_cons_self _ rfl
  · have hentry : e = addressEntry := by simpa [addressConfig] using he
    rw [hentry] at hnames
    rcases hnames with ⟨u, hu, hhost, -⟩ | ⟨name, hsplit, -⟩
    · cases hu
      exact absurd hhost (by decide +kernel)
    · have haddr : splitHostPort addressEntry.addr =
          some (textOf "gate.example.com", textOf "7000") := by decide +kernel
      rw [haddr, Option.some.injEq, Prod.mk.injEq] at hsplit
      exact absurd hsplit.2 (by decide)
  · exact absurd hdirect (by decide +kernel)

/-- A tunnel to the listed gate. -/
def gateTunnel : ProxyRequest where
  method := textOf "CONNECT"
  scheme := []
  urlHost := textOf "Gate.example.com.:7000"
  host := textOf "Gate.example.com.:7000"
  path := []
  received := by decide

theorem gateTunnel_permitted :
    addressServer.actions asciiLibrary gateTunnel.toProxyTarget [] =
        [.tunnelled (some ⟨textOf "Gate.example.com.", textOf "7000"⟩)] ∧
      ∀ a ∈ addressServer.actions asciiLibrary gateTunnel.toProxyTarget [],
        a.Permitted addressConfig addressServer asciiLibrary gateTunnel.toProxyTarget := by
  refine ⟨by decide +kernel, ?_⟩
  apply (proxy_is_closed_iff asciiLibrary addressServer_built rfl gateTunnel []).mpr
  have hsplit : splitHostPort gateTunnel.host =
      some (textOf "Gate.example.com.", textOf "7000") := by decide +kernel
  have hlist : addressServer.allowsTunnel gateTunnel.host = true := by decide +kernel
  have hmethod : gateTunnel.method = textOf "CONNECT" := rfl
  rw [ProxyServer.ReadsAlike, if_pos hmethod]
  intro host port h
  rw [hsplit, Option.some.injEq, Prod.mk.injEq] at h
  obtain ⟨rfl, rfl⟩ := h
  rw [if_pos hlist]
  refine ⟨by decide, fun hmis => hmis.2 (Or.inl ⟨rfl, addressEntry, List.mem_cons_self, Or.inr ?_⟩)⟩
  exact ⟨textOf "gate.example.com", by decide +kernel, by decide +kernel⟩

end PapeSdk
