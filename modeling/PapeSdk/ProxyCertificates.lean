import PapeSdk.EventRuns
import PapeSdk.ProxyClosure

/-!
The certificates of the forward proxy: `GetCertificate` and
`loadOrCreateProxyLeaf` of `internal/app/proxy.go`. A start takes the default
certificate from two files or makes it and writes them anew; a handshake for a
name that the default certificate does not cover gets one of its own, which is
kept for the next handshake. Names are compared with certificates the way
`VerifyHostname` of `crypto/x509` does.
-/

namespace PapeSdk

open Authorities EventRuns

/-- The certificate that signs all others. -/
structure CertAuthority where
  key : ℕ
  notBefore : ℤ
  notAfter : ℤ
  deriving DecidableEq

/-- A certificate of a server; the key stands for the key pair made with it. -/
structure Leaf where
  key : ℕ
  issuer : ℕ
  commonName : Text
  dnsNames : List Text
  notBefore : ℤ
  notAfter : ℤ
  serverAuth : Bool
  deriving DecidableEq

def star : Text := textOf "*"

def labels (host : Text) : List Text := host.splitOn dot

def lowerASCII : Rune → Rune
  | .char c => .char c.toLower
  | r => r

def isLabelByte : Rune → Bool
  | .char c => c.isAlphanum || c == '-' || c == '_'
  | .invalid _ => false

def validLabel (part : Text) : Bool :=
  part != [] && part.head? != some (.char '-') && part.all isLabelByte

def validHostnameInput (host : Text) : Bool := (labels (trimDot host)).all validLabel

def validHostnamePattern (host : Text) : Bool :=
  host != star &&
    match labels host with
    | first :: rest => (first == star || validLabel first) && rest.all validLabel
    | [] => false

def matchLabels : List Text → List Text → Bool
  | p :: ps, h :: hs => (p == star || p == h) && ps == hs
  | _, _ => false

def matchHostnames (pattern host : Text) : Bool :=
  let pattern := pattern.map lowerASCII
  let host := (trimDot host).map lowerASCII
  pattern != [] && host != [] && matchLabels (labels pattern) (labels host)

def matchExactly (a b : Text) : Bool :=
  a != [] && a != [dot] && b != [] && b != [dot] &&
    a.map lowerASCII == b.map lowerASCII

/-- The names of a certificate cover a host that is no address. -/
def Leaf.verifyHostname (c : Leaf) (host : Text) : Bool :=
  let candidate := host.map lowerASCII
  c.dnsNames.any fun name =>
    if validHostnameInput candidate && validHostnamePattern name then matchHostnames name candidate
    else matchExactly name candidate

/-- The two files, as far as they can be parsed. -/
structure CertFiles where
  cert : Option Leaf
  key : Option ℕ
  deriving DecidableEq

def loadX509KeyPair (f : CertFiles) : Option Leaf :=
  match f.cert, f.key with
  | some leaf, some key => if leaf.key = key then some leaf else none
  | _, _ => none

def proxyLeafValid (ca : CertAuthority) (now : ℤ) (leaf : Leaf) : Bool :=
  leaf.issuer = ca.key && leaf.serverAuth && leaf.notBefore ≤ now && now ≤ leaf.notAfter &&
    ca.notBefore ≤ now && now ≤ ca.notAfter &&
    leaf.verifyHostname (textOf "passport.papegames.com") &&
    leaf.verifyHostname (textOf "passport.infoldgames.com")

/-- The calendar and the random numbers of one call; no key when they fail. -/
structure LeafSource where
  twoYearsOn : ℤ
  key : Option ℕ

def createProxyLeaf (ca : CertAuthority) (now : ℤ) (s : LeafSource) (commonName : Text)
    (dnsNames : List Text) : Option Leaf :=
  s.key.map fun key =>
    { key := key, issuer := ca.key, commonName := commonName, dnsNames := dnsNames,
      notBefore := now - 3600, notAfter := if ca.notAfter < s.twoYearsOn then ca.notAfter
        else s.twoYearsOn, serverAuth := true }

def proxyNames : List Text :=
  [textOf "papegames.com", textOf "*.papegames.com", textOf "infoldgames.com",
    textOf "*.infoldgames.com"]

/-- The files after so many steps of writing them: each is emptied first and then filled. -/
def CertFiles.write (f : CertFiles) (leaf : Leaf) : ℕ → CertFiles
  | 0 => f
  | 1 => { f with cert := none }
  | 2 => { f with cert := some leaf }
  | 3 => ⟨some leaf, none⟩
  | _ => ⟨some leaf, some leaf.key⟩

/-- The default certificate and whether it is new; the writing may stop early. -/
def loadOrCreateProxyLeaf (ca : CertAuthority) (now : ℤ) (s : LeafSource) (written : ℕ)
    (f : CertFiles) : CertFiles × Option (Leaf × Bool) :=
  match (loadX509KeyPair f).filter (proxyLeafValid ca now) with
  | some leaf => (f, some (leaf, false))
  | none =>
    match createProxyLeaf ca now s (textOf "*.papegames.com") proxyNames with
    | none => (f, none)
    | some leaf => (f.write leaf written, if 4 ≤ written then some (leaf, true) else none)

structure CertManager where
  ca : CertAuthority
  defaultCert : Leaf
  cache : List (Text × Leaf)
  deriving DecidableEq

inductive CertReply where
  | certificate (leaf : Leaf)
  | unexpectedName
  | failed
  deriving DecidableEq

/-- The names that the default certificate is for. -/
def isDefaultName (host : Text) : Bool :=
  host == [] || host == textOf "papegames.com" ||
    ((textOf ".papegames.com").isSuffixOf host && host.count dot == 2)

def CertManager.getCertificate (m : CertManager) (now : ℤ) (s : LeafSource) (serverName : Text) :
    CertManager × CertReply :=
  let host := hostKey serverName
  if isDefaultName host then (m, .certificate m.defaultCert)
  else if !isPapegamesHost host then (m, .unexpectedName)
  else
    match m.cache.lookup host with
    | some leaf => (m, .certificate leaf)
    | none =>
      match createProxyLeaf m.ca now s host [host] with
      | none => (m, .failed)
      | some leaf => ({ m with cache := (host, leaf) :: m.cache }, .certificate leaf)

theorem isLabelByte_ascii {c : Char} (h : isLabelByte (.char c) = true) : c.toNat < 128 := by
  have hbyte : Rune.isHostByte (.char c) = true := by
    simp only [isLabelByte, Bool.or_eq_true, beq_iff_eq, or_assoc] at h
    rcases h with h | rfl | rfl
    · simp only [Rune.isHostByte, h, Bool.true_or]
    · decide
    · decide
  simpa [Rune.isASCII] using (hostByte_plain hbyte).2

/-- The bytes of a label are neither spaces nor dots, and both ways to small letters agree. -/
theorem isLabelByte_plain {r : Rune} (h : isLabelByte r = true) :
    r.isSpace = false ∧ r.lower = lowerASCII r ∧ r ≠ dot ∧ isLabelByte (lowerASCII r) = true := by
  cases r with
  | invalid b => cases h
  | char c =>
    have hall : ∀ n, n < 128 → isLabelByte (.char (Char.ofNat n)) = true →
        LetterCase.isSpace (Char.ofNat n) = false ∧
        LetterCase.lowerRune (Char.ofNat n) = (Char.ofNat n).toLower ∧ Char.ofNat n ≠ '.' ∧
        isLabelByte (.char (Char.ofNat n).toLower) = true := by
      decide +kernel
    have hbyte := hall c.toNat (isLabelByte_ascii h)
    rw [Char.ofNat_toNat] at hbyte
    obtain ⟨hspace, hlower, hdot, hagain⟩ := hbyte h
    refine ⟨hspace, ?_, ?_, hagain⟩
    · rw [Rune.lower, lowerASCII, hlower]
    · intro heq
      exact hdot (Rune.char.inj heq)

theorem toLower_cases (c : Char) :
    c.toLower = c ∨ 65 ≤ c.toNat ∧ c.toNat ≤ 90 ∧ c.toLower.toNat = c.toNat + 32 := by
  unfold Char.toLower
  split
  · next hupper =>
    have hrange : 65 ≤ c.val.toNat ∧ c.val.toNat ≤ 90 := by
      simpa [UInt32.le_iff_toNat_le, ge_iff_le] using hupper
    refine Or.inr ⟨hrange.1, hrange.2, ?_⟩
    change (c.val + ('a'.val - 'A'.val)).toNat = c.val.toNat + 32
    have hshift : ('a'.val - 'A'.val).toNat = 32 := by decide
    rw [UInt32.toNat_add, hshift]
    omega
  · exact Or.inl rfl

theorem lowerASCII_eq_mark {m : Char} (hm : m.toNat < 65) {r : Rune} :
    lowerASCII r = .char m ↔ r = .char m := by
  cases r with
  | invalid b => exact Iff.rfl
  | char c =>
    simp only [lowerASCII, Rune.char.injEq]
    rcases toLower_cases c with h | ⟨hlow, -, hsum⟩
    · rw [h]
    · constructor
      · rintro rfl
        omega
      · rintro rfl
        omega

theorem lowerASCII_eq_dot {r : Rune} : lowerASCII r = dot ↔ r = dot :=
  lowerASCII_eq_mark (by decide)

theorem lowerASCII_idem (r : Rune) : lowerASCII (lowerASCII r) = lowerASCII r := by
  cases r with
  | invalid b => rfl
  | char c =>
    simp only [lowerASCII, Rune.char.injEq]
    rcases toLower_cases c.toLower with h | ⟨hlow, hhigh, -⟩
    · exact h
    · rcases toLower_cases c with h | ⟨hlow', -, hsum⟩
      · rw [h, h]
      · omega

theorem labels_map_lowerASCII (t : Text) :
    labels (t.map lowerASCII) = (labels t).map (List.map lowerASCII) := by
  induction t with
  | nil => rfl
  | cons r rest ih =>
    rw [labels, labels] at ih ⊢
    rw [List.map_cons, List.splitOn_cons_eq_if_modifyHead, List.splitOn_cons_eq_if_modifyHead, ih]
    by_cases hr : r = dot
    · rw [if_pos (by simp [lowerASCII_eq_dot, hr]), if_pos (by simp [hr])]
      rfl
    · rw [if_neg (by simp [lowerASCII_eq_dot, hr]), if_neg (by simp [hr])]
      cases List.splitOn dot rest <;> rfl

theorem mem_labels {t : Text} {r : Rune} (hr : r ∈ t) (hdot : r ≠ dot) :
    ∃ part ∈ labels t, r ∈ part := by
  induction t with
  | nil => cases hr
  | cons first rest ih =>
    rw [labels] at ih ⊢
    rw [List.splitOn_cons_eq_if_modifyHead]
    rcases List.mem_cons.mp hr with rfl | hr
    · rw [if_neg (by simpa using hdot)]
      obtain ⟨part, others, hsplit⟩ :=
        List.exists_cons_of_ne_nil (List.splitOn_ne_nil dot rest)
      rw [hsplit]
      exact ⟨r :: part, List.mem_cons_self, List.mem_cons_self⟩
    · obtain ⟨part, hpart, hmem⟩ := ih hr
      split
      · exact ⟨part, List.mem_cons_of_mem _ hpart, hmem⟩
      · obtain ⟨head, others, hsplit⟩ :=
          List.exists_cons_of_ne_nil (List.splitOn_ne_nil dot rest)
        rw [hsplit] at hpart ⊢
        rcases List.mem_cons.mp hpart with rfl | hpart
        · exact ⟨first :: part, List.mem_cons_self, List.mem_cons_of_mem _ hmem⟩
        · exact ⟨part, List.mem_cons_of_mem _ hpart, hmem⟩

theorem trimDot_map_lowerASCII (t : Text) :
    trimDot (t.map lowerASCII) = (trimDot t).map lowerASCII := by
  have hlast : (t.map lowerASCII).getLast? = some dot ↔ t.getLast? = some dot := by
    rw [List.getLast?_map, Option.map_eq_some_iff]
    simp [lowerASCII_eq_dot]
  unfold trimDot
  by_cases h : t.getLast? = some dot
  · rw [if_pos (hlast.mpr h), if_pos h, List.map_dropLast]
  · rw [if_neg (fun hl => h (hlast.mp hl)), if_neg h]

theorem validLabel_map {part : Text} (h : validLabel part = true) :
    validLabel (part.map lowerASCII) = true := by
  simp only [validLabel, Bool.and_eq_true, bne_iff_ne] at h ⊢
  obtain ⟨⟨hne, hhead⟩, hall⟩ := h
  refine ⟨⟨by simpa using hne, ?_⟩, ?_⟩
  · rw [List.head?_map]
    intro hmark
    obtain ⟨r, hr, hlow⟩ := Option.map_eq_some_iff.mp hmark
    rw [(lowerASCII_eq_mark (by decide)).mp hlow] at hr
    exact hhead hr
  · rw [List.all_eq_true] at hall ⊢
    intro r hr
    obtain ⟨q, hq, rfl⟩ := List.mem_map.mp hr
    exact (isLabelByte_plain (hall q hq)).2.2.2

section
variable {name : Text}

theorem bytes_of_valid (h : validHostnameInput name = true) :
    ∀ r ∈ name, r = dot ∨ isLabelByte r = true := by
  intro r hr
  by_cases hdot : r = dot
  · exact Or.inl hdot
  · obtain ⟨part, hpart, hmem⟩ := mem_labels ((mem_trimDot hdot).mpr hr) hdot
    have hvalid := List.all_eq_true.mp h part hpart
    simp only [validLabel, Bool.and_eq_true] at hvalid
    exact Or.inr (List.all_eq_true.mp hvalid.2 r hmem)

/-- A well-formed name is compared without its last dot and in small letters. -/
theorem hostKey_of_valid (h : validHostnameInput name = true) :
    hostKey name = (trimDot name).map lowerASCII := by
  have hbytes := bytes_of_valid h
  rw [hostKey_spaceless, canon]
  · refine List.map_congr_left ?_
    intro r hr
    by_cases hdot : r = dot
    · rw [hdot]
      decide +kernel
    · rcases hbytes r ((mem_trimDot hdot).mp hr) with rfl | hbyte
      · exact absurd rfl hdot
      · exact (isLabelByte_plain hbyte).2.1
  · intro r hr
    rcases hbytes r hr with rfl | hbyte
    · decide
    · exact (isLabelByte_plain hbyte).1

theorem labels_hostKey (h : validHostnameInput name = true) :
    (labels (hostKey name)).all validLabel = true := by
  rw [hostKey_of_valid h, labels_map_lowerASCII, List.all_eq_true]
  intro part hpart
  obtain ⟨q, hq, rfl⟩ := List.mem_map.mp hpart
  exact validLabel_map (List.all_eq_true.mp h q hq)

theorem hostKey_map (h : validHostnameInput name = true) :
    (hostKey name).map lowerASCII = hostKey name := by
  rw [hostKey_of_valid h, List.map_map]
  exact List.map_congr_left fun r _ => lowerASCII_idem r

theorem hostKey_ne_nil (h : validHostnameInput name = true) : hostKey name ≠ [] := by
  intro hnil
  have hlabels := labels_hostKey h
  rw [hnil] at hlabels
  cases hlabels

theorem trimDot_hostKey (h : validHostnameInput name = true) :
    trimDot (hostKey name) = hostKey name := by
  refine if_neg ?_
  intro hlast
  have hlabels := labels_hostKey h
  rw [← List.dropLast_append_getLast? dot hlast, labels, List.splitOn_append_cons_self,
    List.all_append, Bool.and_eq_true] at hlabels
  cases hlabels.2

theorem hostKey_hostKey (h : validHostnameInput name = true) :
    hostKey (hostKey name) = hostKey name := by
  have hvalid : validHostnameInput (hostKey name) = true := by
    rw [validHostnameInput, trimDot_hostKey h]
    exact labels_hostKey h
  rw [hostKey_of_valid hvalid, trimDot_hostKey h, hostKey_map h]

theorem validHostnameInput_map (h : validHostnameInput name = true) :
    validHostnameInput (name.map lowerASCII) = true := by
  rw [validHostnameInput, trimDot_map_lowerASCII, ← hostKey_of_valid h]
  exact labels_hostKey h

theorem verifyHostname_of_pattern {c : Leaf} {pattern : Text}
    (h : validHostnameInput name = true) (hmem : pattern ∈ c.dnsNames)
    (hpattern : validHostnamePattern pattern = true)
    (hmatch : matchLabels (labels (pattern.map lowerASCII)) (labels (hostKey name)) = true) :
    c.verifyHostname name = true := by
  have hne : pattern ≠ [] := by
    rintro rfl
    revert hpattern
    decide
  refine List.any_eq_true.mpr ⟨pattern, hmem, ?_⟩
  have hhost : (trimDot (name.map lowerASCII)).map lowerASCII = hostKey name := by
    rw [trimDot_map_lowerASCII, ← hostKey_of_valid h, hostKey_map h]
  rw [validHostnameInput_map h, hpattern, Bool.and_self, if_pos rfl, matchHostnames]
  simp only [hhost, hmatch, Bool.and_true, Bool.and_eq_true, bne_iff_ne]
  exact ⟨by simpa using hne, hostKey_ne_nil h⟩

/-- A certificate for a host alone covers every name that stands for it. -/
theorem verifyHostname_own {c : Leaf} (h : validHostnameInput name = true)
    (hnames : c.dnsNames = [hostKey name]) : c.verifyHostname name = true := by
  have hlabels := labels_hostKey h
  refine verifyHostname_of_pattern h (by rw [hnames]; exact List.mem_singleton_self _) ?_ ?_
  · rw [validHostnamePattern, Bool.and_eq_true, bne_iff_ne]
    constructor
    · intro hstar
      rw [hstar] at hlabels
      revert hlabels
      decide
    · cases hsplit : labels (hostKey name) with
      | nil => exact absurd hsplit (List.splitOn_ne_nil _ _)
      | cons first rest =>
        rw [hsplit, List.all_cons, Bool.and_eq_true] at hlabels
        simp only [hlabels.1, hlabels.2, Bool.or_true, Bool.and_true]
  · rw [hostKey_map h]
    cases hsplit : labels (hostKey name) with
    | nil => exact absurd hsplit (List.splitOn_ne_nil _ _)
    | cons first rest => simp [matchLabels]

/-- The generated names cover the hosts that the default certificate is shown for. -/
theorem verifyHostname_default {c : Leaf} (h : validHostnameInput name = true)
    (hnames : c.dnsNames = proxyNames) (hdefault : isDefaultName (hostKey name) = true) :
    c.verifyHostname name = true := by
  have hmem : ∀ pattern ∈ proxyNames, pattern ∈ c.dnsNames := by
    rw [hnames]
    exact fun _ hp => hp
  simp only [isDefaultName, Bool.or_eq_true, beq_iff_eq, Bool.and_eq_true, or_assoc] at hdefault
  rcases hdefault with hnil | hroot | ⟨hsuffix, hcount⟩
  · exact absurd hnil (hostKey_ne_nil h)
  · refine verifyHostname_of_pattern h (hmem (textOf "papegames.com") (by decide)) (by decide) ?_
    rw [hroot]
    decide
  · refine verifyHostname_of_pattern h (hmem (textOf "*.papegames.com") (by decide)) (by decide) ?_
    obtain ⟨front, hfront⟩ := List.isSuffixOf_iff_suffix.mp hsuffix
    have hsplit : hostKey name = front ++ dot :: textOf "papegames.com" := hfront.symm
    have hplain : dot ∉ front := by
      rw [hsplit, List.count_append] at hcount
      have htail : (dot :: textOf "papegames.com").count dot = 2 := by decide
      rw [htail] at hcount
      exact List.count_eq_zero.mp (by omega)
    have hlabels : labels (hostKey name) = front :: labels (textOf "papegames.com") := by
      rw [hsplit, labels, List.splitOn_append_cons_self, List.splitOn_eq_singleton hplain]
      rfl
    have hpattern : labels ((textOf "*.papegames.com").map lowerASCII) =
        star :: labels (textOf "papegames.com") := by decide
    rw [hlabels, hpattern, matchLabels]
    simp

end

/-- The files and, while the proxy runs, its certificates. -/
structure CertWorld where
  files : CertFiles
  manager : Option CertManager

inductive CertEvent where
  | start (now : ℤ) (source : LeafSource) (written : ℕ) (outcome : Option (Leaf × Bool))
  | hello (now : ℤ) (source : LeafSource) (serverName : Text) (reply : CertReply)
  | crash

inductive CertStep (ca : CertAuthority) : CertWorld → CertEvent → CertWorld → Prop
  | start {f f' : CertFiles} {now : ℤ} {s : LeafSource} {written : ℕ}
      {outcome : Option (Leaf × Bool)}
      (h : loadOrCreateProxyLeaf ca now s written f = (f', outcome)) :
      CertStep ca ⟨f, none⟩ (.start now s written outcome)
        ⟨f', outcome.map fun loaded => ⟨ca, loaded.1, []⟩⟩
  | hello {f : CertFiles} {m m' : CertManager} {now : ℤ} {s : LeafSource} {serverName : Text}
      {reply : CertReply} (h : m.getCertificate now s serverName = (m', reply)) :
      CertStep ca ⟨f, some m⟩ (.hello now s serverName reply) ⟨f, some m'⟩
  | crash {f : CertFiles} {m : Option CertManager} : CertStep ca ⟨f, m⟩ .crash ⟨f, none⟩

/-- Signed by the authority for these names, and not for longer than the authority is good. -/
structure Leaf.MadeFor (leaf : Leaf) (ca : CertAuthority) (names : List Text) : Prop where
  issuer : leaf.issuer = ca.key
  names : leaf.dnsNames = names
  notAfter : leaf.notAfter ≤ ca.notAfter
  serverAuth : leaf.serverAuth = true

structure CertManager.Sound (m : CertManager) (ca : CertAuthority) : Prop where
  authority : m.ca = ca
  defaultCert : m.defaultCert.MadeFor ca proxyNames
  cache : ∀ host leaf, m.cache.lookup host = some leaf → leaf.MadeFor ca [host]

structure CertWorld.Sound (w : CertWorld) (ca : CertAuthority) : Prop where
  cert : ∀ leaf, w.files.cert = some leaf → leaf.MadeFor ca proxyNames
  manager : ∀ m, w.manager = some m → m.Sound ca

section
variable {ca : CertAuthority} {now : ℤ} {s : LeafSource} {written : ℕ} {f f' : CertFiles}
  {m m' : CertManager} {name : Text} {leaf leaf' : Leaf} {w w' : CertWorld} {log : List CertEvent}

theorem createProxyLeaf_madeFor {commonName : Text} {names : List Text}
    (h : createProxyLeaf ca now s commonName names = some leaf) : leaf.MadeFor ca names := by
  obtain ⟨key, -, rfl⟩ := Option.map_eq_some_iff.mp h
  refine ⟨rfl, rfl, ?_, rfl⟩
  dsimp only
  split <;> omega

theorem loadX509KeyPair_cert (h : loadX509KeyPair f = some leaf) : f.cert = some leaf := by
  unfold loadX509KeyPair at h
  split at h
  · next hcert _ =>
    split at h
    · cases h
      exact hcert
    · cases h
  · cases h

/-- What a start can do: it takes the files as they are, or fails, or writes them. -/
theorem loadOrCreate_cases {outcome : Option (Leaf × Bool)}
    (h : loadOrCreateProxyLeaf ca now s written f = (f', outcome)) :
    (∃ leaf, loadX509KeyPair f = some leaf ∧ proxyLeafValid ca now leaf = true ∧ f' = f ∧
      outcome = some (leaf, false)) ∨
    ((loadX509KeyPair f).filter (proxyLeafValid ca now) = none ∧
      ((f' = f ∧ outcome = none) ∨ ∃ leaf, leaf.MadeFor ca proxyNames ∧ f' = f.write leaf written ∧
        outcome = if 4 ≤ written then some (leaf, true) else none)) := by
  unfold loadOrCreateProxyLeaf at h
  cases hload : (loadX509KeyPair f).filter (proxyLeafValid ca now) with
  | some leaf =>
    rw [hload] at h
    obtain ⟨hpair, hvalid⟩ := Option.filter_eq_some_iff.mp hload
    obtain ⟨rfl, rfl⟩ := Prod.mk.inj h
    exact Or.inl ⟨leaf, hpair, hvalid, rfl, rfl⟩
  | none =>
    rw [hload] at h
    refine Or.inr ⟨rfl, ?_⟩
    cases hcreate : createProxyLeaf ca now s (textOf "*.papegames.com") proxyNames with
    | none =>
      rw [hcreate] at h
      obtain ⟨rfl, rfl⟩ := Prod.mk.inj h
      exact Or.inl ⟨rfl, rfl⟩
    | some leaf =>
      rw [hcreate] at h
      obtain ⟨rfl, rfl⟩ := Prod.mk.inj h
      exact Or.inr ⟨leaf, createProxyLeaf_madeFor hcreate, rfl, rfl⟩

theorem write_cert {n : ℕ} (h : (f.write leaf n).cert = some leaf') :
    f.cert = some leaf' ∨ leaf' = leaf := by
  unfold CertFiles.write at h
  split at h
  · exact Or.inl h
  · cases h
  all_goals exact Or.inr (Option.some.inj h).symm

/-- What a handshake can do. -/
theorem getCertificate_cases {reply : CertReply}
    (h : m.getCertificate now s name = (m', reply)) :
    (isDefaultName (hostKey name) = true ∧ m' = m ∧ reply = .certificate m.defaultCert) ∨
    (isDefaultName (hostKey name) = false ∧
      ((isPapegamesHost (hostKey name) = false ∧ m' = m ∧ reply = .unexpectedName) ∨
      (isPapegamesHost (hostKey name) = true ∧
        ((∃ leaf, m.cache.lookup (hostKey name) = some leaf ∧ m' = m ∧
          reply = .certificate leaf) ∨
        (m.cache.lookup (hostKey name) = none ∧
          ((m' = m ∧ reply = .failed) ∨
          ∃ leaf, leaf.MadeFor m.ca [hostKey name] ∧
            m' = { m with cache := (hostKey name, leaf) :: m.cache } ∧
            reply = .certificate leaf)))))) := by
  unfold CertManager.getCertificate at h
  dsimp only at h
  cases hdefault : isDefaultName (hostKey name) with
  | true =>
    rw [hdefault, if_pos rfl] at h
    obtain ⟨rfl, rfl⟩ := Prod.mk.inj h
    exact Or.inl ⟨rfl, rfl, rfl⟩
  | false =>
    rw [hdefault, if_neg (by decide)] at h
    refine Or.inr ⟨rfl, ?_⟩
    cases hhost : isPapegamesHost (hostKey name) with
    | false =>
      rw [hhost, if_pos (by decide)] at h
      obtain ⟨rfl, rfl⟩ := Prod.mk.inj h
      exact Or.inl ⟨rfl, rfl, rfl⟩
    | true =>
      rw [hhost, if_neg (by decide)] at h
      refine Or.inr ⟨rfl, ?_⟩
      cases hcache : m.cache.lookup (hostKey name) with
      | some leaf =>
        rw [hcache] at h
        obtain ⟨rfl, rfl⟩ := Prod.mk.inj h
        exact Or.inl ⟨leaf, rfl, rfl, rfl⟩
      | none =>
        rw [hcache] at h
        refine Or.inr ⟨rfl, ?_⟩
        cases hcreate : createProxyLeaf m.ca now s (hostKey name) [hostKey name] with
        | none =>
          rw [hcreate] at h
          obtain ⟨rfl, rfl⟩ := Prod.mk.inj h
          exact Or.inl ⟨rfl, rfl⟩
        | some leaf =>
          rw [hcreate] at h
          obtain ⟨rfl, rfl⟩ := Prod.mk.inj h
          exact Or.inr ⟨leaf, createProxyLeaf_madeFor hcreate, rfl, rfl⟩

theorem isPapegamesHost_of_default (h : validHostnameInput name = true)
    (hdefault : isDefaultName (hostKey name) = true) : isPapegamesHost name = true := by
  simp only [isDefaultName, Bool.or_eq_true, beq_iff_eq, Bool.and_eq_true, or_assoc] at hdefault
  simp only [isPapegamesHost, Bool.or_eq_true, beq_iff_eq, or_assoc]
  rcases hdefault with hnil | hroot | ⟨hsuffix, -⟩
  · exact absurd hnil (hostKey_ne_nil h)
  · exact Or.inl hroot
  · exact Or.inr (Or.inl hsuffix)

theorem CertManager.Sound.step {reply : CertReply} (hm : m.Sound ca)
    (h : m.getCertificate now s name = (m', reply)) :
    m'.Sound ca ∧ ∀ leaf, reply = .certificate leaf →
      (leaf.MadeFor ca proxyNames ∧ isDefaultName (hostKey name) = true) ∨
        leaf.MadeFor ca [hostKey name] := by
  rcases getCertificate_cases h with ⟨hdefault, rfl, rfl⟩ | ⟨-, ⟨-, rfl, rfl⟩ | ⟨-, hrest⟩⟩
  · refine ⟨hm, ?_⟩
    rintro leaf ⟨⟩
    exact Or.inl ⟨hm.defaultCert, hdefault⟩
  · exact ⟨hm, nofun⟩
  rcases hrest with ⟨leaf, hcache, rfl, rfl⟩ | ⟨-, ⟨rfl, rfl⟩ | ⟨leaf, hmade, rfl, rfl⟩⟩
  · refine ⟨hm, ?_⟩
    rintro leaf ⟨⟩
    exact Or.inr (hm.cache _ _ hcache)
  · exact ⟨hm, nofun⟩
  · rw [hm.authority] at hmade
    refine ⟨⟨hm.authority, hm.defaultCert, ?_⟩, ?_⟩
    · intro host leaf' hlookup
      rw [List.lookup_cons] at hlookup
      split at hlookup
      · next heq =>
        cases hlookup
        rw [beq_iff_eq.mp heq]
        exact hmade
      · exact hm.cache host leaf' hlookup
    · rintro leaf' ⟨⟩
      exact Or.inr hmade

theorem CertStep.sound {e : CertEvent} (hw : w.Sound ca) (h : CertStep ca w e w') :
    w'.Sound ca := by
  cases h with
  | @start f f' now s written outcome h =>
    rcases loadOrCreate_cases h with
      ⟨leaf, hpair, -, rfl, rfl⟩ | ⟨-, ⟨rfl, rfl⟩ | ⟨leaf, hmade, rfl, rfl⟩⟩
    · refine ⟨hw.cert, ?_⟩
      rintro m ⟨⟩
      exact ⟨rfl, hw.cert leaf (loadX509KeyPair_cert hpair), nofun⟩
    · exact ⟨hw.cert, nofun⟩
    · constructor
      · intro leaf' hcert
        rcases write_cert hcert with hold | rfl
        · exact hw.cert leaf' hold
        · exact hmade
      · intro m hm
        dsimp only at hm
        split at hm
        · cases hm
          exact ⟨rfl, hmade, nofun⟩
        · cases hm
  | hello h =>
    refine ⟨hw.cert, ?_⟩
    rintro m ⟨⟩
    exact ((hw.manager _ rfl).step h).1
  | crash => exact ⟨hw.cert, nofun⟩

theorem CertWorld.sound_of_run (h : Run (CertStep ca) ⟨⟨none, none⟩, none⟩ log w) :
    w.Sound ca := by
  induction h with
  | refl => exact ⟨nofun, nofun⟩
  | tail _ hstep ih => exact hstep.sound ih

/-- Whatever crashed in between, a proxy that began without files answers a well-formed name of
the game with a certificate that covers it and has not outlived its authority, and every other
well-formed name with none. -/
theorem certificates_cover_their_names {reply : CertReply}
    (hrun : Run (CertStep ca) ⟨⟨none, none⟩, none⟩ log w)
    (he : CertEvent.hello now s name reply ∈ log) (hname : validHostnameInput name = true) :
    (reply = .unexpectedName ↔ isPapegamesHost name = false) ∧
      ∀ leaf, reply = .certificate leaf → leaf.verifyHostname name = true ∧
        leaf.issuer = ca.key ∧ leaf.notAfter ≤ ca.notAfter := by
  obtain ⟨before, after, u, v, rfl, hbefore, hstep, -⟩ := hrun.exists_step he
  have hsound := CertWorld.sound_of_run hbefore
  cases hstep with
  | @hello f m m' now s name reply h =>
  constructor
  · have hkey : isPapegamesHost (hostKey name) = isPapegamesHost name := by
      rw [isPapegamesHost, isPapegamesHost, hostKey_hostKey hname]
    rcases getCertificate_cases h with ⟨hdefault, -, rfl⟩ | ⟨-, ⟨hhost, -, rfl⟩ | ⟨hhost, hrest⟩⟩
    · simp [isPapegamesHost_of_default hname hdefault]
    · simp [← hkey, hhost]
    · rw [← hkey, hhost]
      rcases hrest with ⟨leaf, -, -, rfl⟩ | ⟨-, ⟨-, rfl⟩ | ⟨leaf, -, -, rfl⟩⟩ <;> simp
  · intro leaf hreply
    rcases ((hsound.manager m rfl).step h).2 leaf hreply with ⟨hmade, hdefault⟩ | hmade
    · exact ⟨verifyHostname_default hname hmade.names hdefault, hmade.issuer, hmade.notAfter⟩
    · exact ⟨verifyHostname_own hname hmade.names, hmade.issuer, hmade.notAfter⟩

theorem proxyNames_passport (h : leaf.MadeFor ca proxyNames) :
    leaf.verifyHostname (textOf "passport.papegames.com") = true ∧
      leaf.verifyHostname (textOf "passport.infoldgames.com") = true := by
  have hmem : ∀ pattern ∈ proxyNames, pattern ∈ leaf.dnsNames := by
    rw [h.names]
    exact fun _ hp => hp
  constructor
  · exact verifyHostname_of_pattern (by decide) (hmem (textOf "*.papegames.com") (by decide))
      (by decide) (by decide +kernel)
  · exact verifyHostname_of_pattern (by decide) (hmem (textOf "*.infoldgames.com") (by decide))
      (by decide) (by decide +kernel)

/-- A certificate that every start accepts while it and the authority are good. -/
structure Leaf.Lasting (leaf : Leaf) (ca : CertAuthority) : Prop where
  issuer : leaf.issuer = ca.key
  serverAuth : leaf.serverAuth = true
  papegames : leaf.verifyHostname (textOf "passport.papegames.com") = true
  infoldgames : leaf.verifyHostname (textOf "passport.infoldgames.com") = true

def Leaf.GoodAt (leaf : Leaf) (ca : CertAuthority) (now : ℤ) : Prop :=
  (leaf.notBefore ≤ now ∧ now ≤ leaf.notAfter) ∧ ca.notBefore ≤ now ∧ now ≤ ca.notAfter

theorem proxyLeafValid_iff :
    proxyLeafValid ca now leaf = true ↔ leaf.Lasting ca ∧ leaf.GoodAt ca now := by
  simp only [proxyLeafValid, Bool.and_eq_true, decide_eq_true_eq]
  constructor
  · rintro ⟨⟨⟨⟨⟨⟨⟨h1, h2⟩, h3⟩, h4⟩, h5⟩, h6⟩, h7⟩, h8⟩
    exact ⟨⟨h1, h2, h7, h8⟩, ⟨h3, h4⟩, h5, h6⟩
  · rintro ⟨h, ⟨h3, h4⟩, h5, h6⟩
    exact ⟨⟨⟨⟨⟨⟨⟨h.issuer, h.serverAuth⟩, h3⟩, h4⟩, h5⟩, h6⟩, h.papegames⟩, h.infoldgames⟩

/-- A start that succeeds leaves files that the next start can take. -/
theorem loadOrCreate_lasting {isNew : Bool}
    (h : loadOrCreateProxyLeaf ca now s written f = (f', some (leaf, isNew))) :
    loadX509KeyPair f' = some leaf ∧ leaf.Lasting ca := by
  rcases loadOrCreate_cases h with
    ⟨leaf', hpair, hvalid, rfl, heq⟩ | ⟨-, ⟨-, heq⟩ | ⟨leaf', hmade, rfl, heq⟩⟩
  · cases heq
    exact ⟨hpair, (proxyLeafValid_iff.mp hvalid).1⟩
  · cases heq
  · by_cases hwritten : 4 ≤ written
    · rw [if_pos hwritten] at heq
      cases heq
      obtain ⟨n, rfl⟩ := Nat.exists_eq_add_of_le' hwritten
      obtain ⟨hpapegames, hinfoldgames⟩ := proxyNames_passport hmade
      exact ⟨if_pos rfl, hmade.issuer, hmade.serverAuth, hpapegames, hinfoldgames⟩
    · rw [if_neg hwritten] at heq
      cases heq

theorem loadOrCreate_again {outcome : Option (Leaf × Bool)} (hpair : loadX509KeyPair f = some leaf)
    (hlasting : leaf.Lasting ca) (hgood : leaf.GoodAt ca now)
    (h : loadOrCreateProxyLeaf ca now s written f = (f', outcome)) :
    f' = f ∧ outcome = some (leaf, false) := by
  have hvalid := proxyLeafValid_iff.mpr ⟨hlasting, hgood⟩
  rcases loadOrCreate_cases h with ⟨leaf', hpair', -, rfl, rfl⟩ | ⟨hnone, -⟩
  · rw [hpair] at hpair'
    cases hpair'
    exact ⟨rfl, rfl⟩
  · rw [hpair, Option.filter_some, if_pos hvalid] at hnone
    cases hnone

/-- The files hold the certificate, and a running proxy shows it for the default names. -/
def CertWorld.Settled (w : CertWorld) (leaf : Leaf) : Prop :=
  loadX509KeyPair w.files = some leaf ∧ ∀ m, w.manager = some m → m.defaultCert = leaf

theorem getCertificate_default {reply : CertReply}
    (h : m.getCertificate now s name = (m', reply)) : m'.defaultCert = m.defaultCert := by
  rcases getCertificate_cases h with ⟨-, rfl, -⟩ | ⟨-, ⟨-, rfl, -⟩ | ⟨-, hrest⟩⟩
  · rfl
  · rfl
  · rcases hrest with ⟨-, -, rfl, -⟩ | ⟨-, ⟨rfl, -⟩ | ⟨-, -, rfl, -⟩⟩ <;> rfl

/-- The starts of a history come while the certificate and the authority are good. -/
def StartsWhileGood (ca : CertAuthority) (leaf : Leaf) (log : List CertEvent) : Prop :=
  ∀ now s written outcome, CertEvent.start now s written outcome ∈ log → leaf.GoodAt ca now

theorem CertStep.settled {e : CertEvent} (h : CertStep ca w e w') (hw : w.Settled leaf)
    (hlasting : leaf.Lasting ca) (hgood : StartsWhileGood ca leaf [e]) :
    w'.Settled leaf ∧
      (∀ now s written outcome, e = .start now s written outcome →
        outcome = some (leaf, false)) ∧
      ∀ now s name reply, e = .hello now s name reply → isDefaultName (hostKey name) = true →
        reply = .certificate leaf := by
  cases h with
  | @start f f' now s written outcome h =>
    have hnow := hgood now s written outcome List.mem_cons_self
    obtain ⟨rfl, rfl⟩ := loadOrCreate_again hw.1 hlasting hnow h
    refine ⟨⟨hw.1, ?_⟩, ?_, nofun⟩
    · rintro m ⟨⟩
      rfl
    · rintro _ _ _ _ ⟨⟩
      rfl
  | @hello f m m' now s name reply h =>
    refine ⟨⟨hw.1, ?_⟩, nofun, ?_⟩
    · rintro _ ⟨⟩
      rw [getCertificate_default h]
      exact hw.2 m rfl
    · rintro _ _ _ _ ⟨⟩ hdefault
      rcases getCertificate_cases h with ⟨-, -, rfl⟩ | ⟨hnot, -⟩
      · rw [hw.2 m rfl]
      · rw [hdefault] at hnot
        cases hnot
  | crash => exact ⟨⟨hw.1, nofun⟩, nofun, nofun⟩

theorem CertWorld.Settled.run (h : Run (CertStep ca) w log w') (hw : w.Settled leaf)
    (hlasting : leaf.Lasting ca) (hgood : StartsWhileGood ca leaf log) : w'.Settled leaf := by
  induction h with
  | refl => exact hw
  | tail _ hstep ih =>
    refine (hstep.settled (ih ?_) hlasting ?_).1
    · intro now s written outcome he
      exact hgood now s written outcome (List.mem_append_left _ he)
    · intro now s written outcome he
      exact hgood now s written outcome (List.mem_append_right _ he)

/-- Every start after a successful one finds its certificate again, as long as the certificate and
the authority are good, and shows it for the default names. -/
theorem default_certificate_survives_restarts {isNew : Bool} {before after : List CertEvent}
    (hrun : Run (CertStep ca) w (before ++ .start now s written (some (leaf, isNew)) :: after) w')
    (hgood : StartsWhileGood ca leaf after) :
    (∀ now s written outcome, CertEvent.start now s written outcome ∈ after →
      outcome = some (leaf, false)) ∧
    ∀ now s name reply, CertEvent.hello now s name reply ∈ after →
      isDefaultName (hostKey name) = true → reply = .certificate leaf := by
  obtain ⟨u, -, hrest⟩ := Run.of_append hrun
  obtain ⟨v, hstart, hafter⟩ := Run.of_cons hrest
  have hsettled : v.Settled leaf ∧ leaf.Lasting ca := by
    cases hstart with
    | start h =>
      obtain ⟨hpair, hlasting⟩ := loadOrCreate_lasting h
      refine ⟨⟨hpair, ?_⟩, hlasting⟩
      rintro m ⟨⟩
      rfl
  have hstep : ∀ e ∈ after, ∃ u u', CertStep ca u e u' ∧ u.Settled leaf ∧
      StartsWhileGood ca leaf [e] := by
    intro e he
    obtain ⟨early, late, x, y, rfl, hearly, hmid, -⟩ := hafter.exists_step he
    refine ⟨x, y, hmid, hsettled.1.run hearly hsettled.2 ?_, ?_⟩
    · intro now s written outcome hmem
      exact hgood now s written outcome (List.mem_append_left _ hmem)
    · intro now s written outcome hmem
      rw [List.mem_singleton] at hmem
      exact hgood now s written outcome (hmem ▸ he)
  constructor
  · intro now s written outcome he
    obtain ⟨x, y, hmid, hx, hnow⟩ := hstep _ he
    exact (hmid.settled hx hsettled.2 hnow).2.1 now s written outcome rfl
  · intro now s name reply he hdefault
    obtain ⟨x, y, hmid, hx, hnow⟩ := hstep _ he
    exact (hmid.settled hx hsettled.2 hnow).2.2 now s name reply rfl hdefault

/-- What the proxy shows for a host now. -/
def CertManager.shown (m : CertManager) (host : Text) : Option Leaf :=
  if isDefaultName host then some m.defaultCert else m.cache.lookup host

/-- A certificate that is shown once is shown for the host from then on. -/
theorem getCertificate_shown {reply : CertReply}
    (h : m.getCertificate now s name = (m', reply)) :
    (∀ leaf, reply = .certificate leaf → m'.shown (hostKey name) = some leaf) ∧
      ∀ host leaf, m.shown host = some leaf → m'.shown host = some leaf := by
  unfold CertManager.shown
  rcases getCertificate_cases h with ⟨hdefault, rfl, rfl⟩ | ⟨hdefault, hrest⟩
  · refine ⟨?_, fun _ _ hshown => hshown⟩
    rintro leaf ⟨⟩
    rw [if_pos hdefault]
  rw [if_neg (by simp [hdefault])]
  rcases hrest with ⟨-, rfl, rfl⟩ | ⟨-, ⟨leaf, hcache, rfl, rfl⟩ | ⟨hnone, ⟨rfl, rfl⟩ | hnew⟩⟩
  · exact ⟨nofun, fun _ _ hshown => hshown⟩
  · refine ⟨?_, fun _ _ hshown => hshown⟩
    rintro leaf ⟨⟩
    exact hcache
  · exact ⟨nofun, fun _ _ hshown => hshown⟩
  · obtain ⟨leaf, -, rfl, rfl⟩ := hnew
    constructor
    · rintro leaf ⟨⟩
      exact List.lookup_cons_self
    · intro host leaf' hshown
      by_cases hhost : isDefaultName host = true
      · rw [if_pos hhost] at hshown ⊢
        exact hshown
      · rw [if_neg hhost] at hshown ⊢
        rw [List.lookup_cons]
        split
        · next heq =>
          rw [beq_iff_eq.mp heq, hnone] at hshown
          cases hshown
        · exact hshown

/-- A name that is shown a certificate is one that the proxy answers for. -/
theorem answered_of_certificate (h : m.getCertificate now s name = (m', .certificate leaf)) :
    isDefaultName (hostKey name) = true ∨ isPapegamesHost (hostKey name) = true := by
  rcases getCertificate_cases h with ⟨hdefault, -, -⟩ | ⟨-, ⟨-, -, hreply⟩ | ⟨hhost, -⟩⟩
  · exact Or.inl hdefault
  · cases hreply
  · exact Or.inr hhost

/-- A handshake is answered with the certificate that is shown for its host. -/
theorem getCertificate_of_shown {reply : CertReply}
    (h : m.getCertificate now s name = (m', reply))
    (hanswered : isDefaultName (hostKey name) = true ∨ isPapegamesHost (hostKey name) = true)
    (hshown : m.shown (hostKey name) = some leaf) : reply = .certificate leaf := by
  unfold CertManager.shown at hshown
  rcases getCertificate_cases h with ⟨hdefault, -, rfl⟩ | ⟨hdefault, hrest⟩
  · rw [if_pos hdefault] at hshown
    rw [Option.some.inj hshown]
  rw [if_neg (by simp [hdefault])] at hshown
  rcases hrest with ⟨hhost, -, -⟩ | ⟨-, ⟨leaf', hcache, -, rfl⟩ | ⟨hnone, -⟩⟩
  · rcases hanswered with hname | hname
    · rw [hdefault] at hname
      cases hname
    · rw [hhost] at hname
      cases hname
  · rw [hcache] at hshown
    rw [Option.some.inj hshown]
  · rw [hnone] at hshown
    cases hshown

theorem CertStep.shown {e : CertEvent} {host : Text} (h : CertStep ca w e w') (hup : e ≠ .crash)
    (hshown : ∃ m, w.manager = some m ∧ m.shown host = some leaf) :
    ∃ m, w'.manager = some m ∧ m.shown host = some leaf := by
  obtain ⟨m, hm, hleaf⟩ := hshown
  cases h with
  | start h => cases hm
  | hello h =>
    cases hm
    exact ⟨_, rfl, (getCertificate_shown h).2 host leaf hleaf⟩
  | crash => exact absurd rfl hup

theorem CertWorld.shown_of_run {host : Text} (h : Run (CertStep ca) w log w')
    (hup : CertEvent.crash ∉ log)
    (hshown : ∃ m, w.manager = some m ∧ m.shown host = some leaf) :
    ∃ m, w'.manager = some m ∧ m.shown host = some leaf := by
  induction h with
  | refl => exact hshown
  | tail _ hstep ih =>
    refine hstep.shown ?_ (ih fun hcrash => hup (List.mem_append_left _ hcrash))
    rintro rfl
    exact hup (List.mem_append_right _ List.mem_cons_self)

/-- As long as the proxy runs, a host that was shown a certificate is shown the same one in every
later handshake, under each of its names. -/
theorem one_certificate_for_each_host {now' : ℤ} {s' : LeafSource} {name' : Text}
    {reply : CertReply} {before between after : List CertEvent}
    (hrun : Run (CertStep ca) w (before ++ .hello now s name (.certificate leaf) ::
      (between ++ .hello now' s' name' reply :: after)) w')
    (hup : CertEvent.crash ∉ between) (hhost : hostKey name' = hostKey name) :
    reply = .certificate leaf := by
  obtain ⟨u, -, hrest⟩ := Run.of_append hrun
  obtain ⟨v, hfirst, hrest⟩ := Run.of_cons hrest
  obtain ⟨x, hbetween, hrest⟩ := Run.of_append hrest
  obtain ⟨y, hsecond, -⟩ := Run.of_cons hrest
  have hshown : (isDefaultName (hostKey name) = true ∨ isPapegamesHost (hostKey name) = true) ∧
      ∃ m, v.manager = some m ∧ m.shown (hostKey name) = some leaf := by
    cases hfirst with
    | hello h => exact ⟨answered_of_certificate h, _, rfl, (getCertificate_shown h).1 leaf rfl⟩
  obtain ⟨m, hm, hleaf⟩ := CertWorld.shown_of_run hbetween hup hshown.2
  cases hsecond with
  | hello h =>
    cases hm
    rw [← hhost] at hleaf hshown
    exact getCertificate_of_shown h hshown.1 hleaf

end

def goodCA : CertAuthority := ⟨1, 0, 1000000000⟩

def freshLeaf (key : ℕ) (commonName : Text) (names : List Text) : Leaf where
  key := key
  issuer := 1
  commonName := commonName
  dnsNames := names
  notBefore := 6400
  notAfter := 63082000
  serverAuth := true

def firstLeaf : Leaf := freshLeaf 7 (textOf "*.papegames.com") proxyNames

def ownHost : Text := textOf "a.b.papegames.com"

def hostLeaf : Leaf := freshLeaf 8 ownHost [ownHost]

def freshSource (key : ℕ) : LeafSource := ⟨63082000, some key⟩

def bothFiles : CertFiles := ⟨some firstLeaf, some 7⟩

def hostShown : CertManager := ⟨goodCA, firstLeaf, [(ownHost, hostLeaf)]⟩

def proxyLog : List CertEvent :=
  [.start 10000 (freshSource 7) 4 (some (firstLeaf, true)),
    .hello 10000 (freshSource 8) ownHost (.certificate hostLeaf),
    .hello 10001 (freshSource 9) (textOf "A.b.Papegames.com.") (.certificate hostLeaf),
    .crash,
    .start 20000 (freshSource 10) 4 (some (firstLeaf, false))]

theorem proxyLog_run :
    Run (CertStep goodCA) ⟨⟨none, none⟩, none⟩ proxyLog
      ⟨bothFiles, some ⟨goodCA, firstLeaf, []⟩⟩ := by
  have hstart : loadOrCreateProxyLeaf goodCA 10000 (freshSource 7) 4 ⟨none, none⟩ =
      (bothFiles, some (firstLeaf, true)) := by decide +kernel
  have hfirst : (CertManager.mk goodCA firstLeaf []).getCertificate 10000 (freshSource 8)
      ownHost = (hostShown, .certificate hostLeaf) := by decide +kernel
  have hsecond : hostShown.getCertificate 10001 (freshSource 9) (textOf "A.b.Papegames.com.") =
      (hostShown, .certificate hostLeaf) := by decide +kernel
  have hagain : loadOrCreateProxyLeaf goodCA 20000 (freshSource 10) 4 bothFiles =
      (bothFiles, some (firstLeaf, false)) := by decide +kernel
  exact Run.tail (Run.tail (Run.tail (Run.tail (Run.single (.start hstart)) (.hello hfirst))
    (.hello hsecond)) .crash) (.start hagain)

theorem hostLeaf_covers_its_host :
    hostLeaf.verifyHostname ownHost = true ∧ hostLeaf.issuer = goodCA.key ∧
      hostLeaf.notAfter ≤ goodCA.notAfter :=
  (certificates_cover_their_names proxyLog_run (List.mem_cons_of_mem _ List.mem_cons_self)
    (by decide)).2 hostLeaf rfl

theorem firstLeaf_is_found_again :
    ∃ outcome, CertEvent.start 20000 (freshSource 10) 4 outcome ∈ proxyLog ∧
      outcome = some (firstLeaf, false) := by
  have hgood : StartsWhileGood goodCA firstLeaf (proxyLog.drop 1) := by
    intro now s written outcome he
    simp only [proxyLog, List.drop_succ_cons, List.drop_zero, List.mem_cons, reduceCtorEq,
      List.not_mem_nil, or_false, false_or, CertEvent.start.injEq] at he
    obtain ⟨rfl, -⟩ := he
    exact ⟨by decide, by decide⟩
  have hrun : Run (CertStep goodCA) ⟨⟨none, none⟩, none⟩ ([] ++ proxyLog)
      ⟨bothFiles, some ⟨goodCA, firstLeaf, []⟩⟩ := proxyLog_run
  refine ⟨some (firstLeaf, false), by simp [proxyLog], ?_⟩
  exact (default_certificate_survives_restarts hrun hgood).1 20000 (freshSource 10) 4 _
    (by simp)

theorem hostLeaf_is_shown_again :
    ∃ reply, CertEvent.hello 10001 (freshSource 9) (textOf "A.b.Papegames.com.") reply ∈ proxyLog ∧
      reply = .certificate hostLeaf := by
  have hrun : Run (CertStep goodCA) ⟨⟨none, none⟩, none⟩
      ([.start 10000 (freshSource 7) 4 (some (firstLeaf, true))] ++
        .hello 10000 (freshSource 8) ownHost (.certificate hostLeaf) ::
          ([] ++ .hello 10001 (freshSource 9) (textOf "A.b.Papegames.com.")
            (.certificate hostLeaf) :: proxyLog.drop 3))
      ⟨bothFiles, some ⟨goodCA, firstLeaf, []⟩⟩ := proxyLog_run
  refine ⟨.certificate hostLeaf, by simp [proxyLog], ?_⟩
  exact one_certificate_for_each_host hrun (by simp) (by decide +kernel)

end PapeSdk
