import PapeSdk.ProxyAuthorities

/-!
Where a local request is forwarded to. The authority comes from a header, from the
request or from the configuration, and has to name a host of the two domains. The
check lowers Unicode letters, for which the dotted İ is one more capital i; the
forwarded name keeps it, so that it is a host of another domain.
-/

namespace PapeSdk

open Authorities

/-- What is read of a request; a header that is missing is empty. -/
structure UpstreamRequest extends ProxyTarget where
  rawPath : Text
  rawQuery : Text
  originalHost : Text
  originalScheme : Text

structure UpstreamURL where
  scheme : Text
  host : Text
  path : Text
  rawPath : Text
  rawQuery : Text
  deriving DecidableEq

/-- The error names the host of the request. -/
inductive UpstreamError where
  | undetermined (host : Text)
  deriving DecidableEq

/-- The authority that `upstreamTarget` checks. -/
def upstreamAuthority (r : UpstreamRequest) (defaultAuthority : Text) : Text :=
  let authority := trimSpace r.originalHost
  let authority :=
    if authority = [] ∧ isPapegamesHost r.requestHostname = true then r.host else authority
  if authority = [] then defaultAuthority else authority

def upstreamTarget (r : UpstreamRequest) (defaultAuthority : Text) :
    Except UpstreamError (UpstreamURL × Text) :=
  let authority := upstreamAuthority r defaultAuthority
  if authority = [] ∨ isPapegamesHost (authorityHostname authority) = false then
    .error (.undetermined r.host)
  else
    let scheme := trimSpace r.originalScheme
    let scheme := if scheme = [] then https else scheme
    .ok (⟨scheme, authority, r.path, r.rawPath, r.rawQuery⟩, authority)

def papegames : Text := textOf "papegames.com"

def infoldgames : Text := textOf "infoldgames.com"

/-- The domain that differs from `infoldgames` in the first letter. -/
def dottedInfoldgames : Text := textOf "İnfoldgames.com"

/-- The name of a host in lower case of ASCII, without spaces around it and one dot at the end. -/
def hostName (host : Text) : Text := (trimDot (trimSpace host)).map Rune.asciiLower

def OfficialHost (host : Text) : Prop :=
  Under papegames (hostName host) ∨ Under infoldgames (hostName host)

def DottedHost (host : Text) : Prop := Under dottedInfoldgames (hostName host)

section
variable {host : Text}

theorem plain_textOf {s : String}
    (h : (s.toList.all fun c => c.toNat < 128 && c != 'i' && c != 'k') = true) :
    Plain (textOf s) := by
  intro r hr
  obtain ⟨c, hc, rfl⟩ := List.mem_map.mp hr
  have hplain := List.all_eq_true.mp h c hc
  simp only [Bool.and_eq_true, decide_eq_true_eq, bne_iff_ne] at hplain
  exact ⟨c, rfl, hplain.1.1, hplain.1.2, hplain.2⟩

theorem isPapegamesHost_iff_under : isPapegamesHost host = true ↔
    Under papegames (hostKey host) ∨ Under infoldgames (hostKey host) := by
  simp only [isPapegamesHost, Bool.or_eq_true, beq_iff_eq, List.isSuffixOf_iff_suffix, Under,
    or_assoc]
  rfl

/-- The check accepts the hosts of the two domains and of the third one. -/
theorem isPapegamesHost_iff : isPapegamesHost host = true ↔ OfficialHost host ∨ DottedHost host := by
  have hpapegames : Plain papegames := plain_textOf (by decide)
  have hrest : Plain (textOf "nfoldgames.com") := plain_textOf (by decide)
  have hkey : hostKey host = (trimDot (trimSpace host)).map Rune.lower := trimDot_map_lower _
  have hinfold := under_lower_i (t := trimDot (trimSpace host)) hrest
  rw [isPapegamesHost_iff_under, hkey, under_lower_plain hpapegames, OfficialHost, DottedHost,
    or_assoc]
  exact or_congr_right hinfold

/-- The third domain is apart from the other two. -/
theorem DottedHost.not_official (h : DottedHost host) : ¬ OfficialHost host := by
  rintro (hother | hother)
  · exact Under.apart h (by decide) (by decide) hother
  · exact Under.apart h (by decide) (by decide) hother

theorem dottedHost_empty : ¬ DottedHost [] := by
  unfold DottedHost
  decide

end

/-- The host part of an authority: a host, before a port or not, in brackets or not. -/
theorem authorityHostname_forms {host port : Text} (hhost : Bare host) (hport : Bare port)
    (hp : colon ∉ port) :
    (colon ∉ host → authorityHostname host = host ∧
      authorityHostname (host ++ colon :: port) = host) ∧
    authorityHostname (opening :: (host ++ [closing])) = host ∧
    authorityHostname (opening :: (host ++ closing :: colon :: port)) = host := by
  simp only [authorityHostname_eq]
  refine ⟨fun hno => ⟨?_, ?_⟩, ?_, ?_⟩
  · rw [read_unsplit (split_none_of_no_colon hno), trimBrackets_bare hhost]
  · rw [read_port hhost hno hport hp]
  · rw [read_wrapped hhost]
  · rw [read_wrapped_port hhost hport hp]

/-- A target that is returned is a host of the official domains. -/
def StaysOfficial (r : UpstreamRequest) (defaultAuthority : Text) : Prop :=
  ∀ target authority, upstreamTarget r defaultAuthority = .ok (target, authority) →
    target.host = authority ∧ OfficialHost (authorityHostname authority)

/-- The header names the third domain, or without one the host of a request for the
official ones, or without that the configuration. -/
def NamesDotted (r : UpstreamRequest) (defaultAuthority : Text) : Prop :=
  if trimSpace r.originalHost ≠ [] then DottedHost (authorityHostname (trimSpace r.originalHost))
  else if isPapegamesHost r.requestHostname = true ∧ r.host ≠ [] then
    DottedHost (authorityHostname r.host)
  else DottedHost (authorityHostname defaultAuthority)

section
variable {r : UpstreamRequest} {defaultAuthority : Text}

theorem upstreamTarget_ok {target : UpstreamURL} {authority : Text} :
    upstreamTarget r defaultAuthority = .ok (target, authority) ↔
      authority = upstreamAuthority r defaultAuthority ∧ authority ≠ [] ∧
        isPapegamesHost (authorityHostname authority) = true ∧
        target = ⟨if trimSpace r.originalScheme = [] then https else trimSpace r.originalScheme,
          authority, r.path, r.rawPath, r.rawQuery⟩ := by
  unfold upstreamTarget
  dsimp only
  constructor
  · intro h
    split at h
    · cases h
    · next hok =>
      cases h
      rw [not_or, Bool.not_eq_false] at hok
      exact ⟨rfl, hok.1, hok.2, rfl⟩
  · rintro ⟨rfl, hne, haccepted, rfl⟩
    rw [if_neg (by rw [not_or, Bool.not_eq_false]; exact ⟨hne, haccepted⟩)]

theorem namesDotted_iff : NamesDotted r defaultAuthority ↔
    DottedHost (authorityHostname (upstreamAuthority r defaultAuthority)) := by
  unfold NamesDotted upstreamAuthority
  by_cases hheader : trimSpace r.originalHost = []
  · by_cases hrequest : isPapegamesHost r.requestHostname = true
    · by_cases hhost : r.host = []
      · simp [hheader, hrequest, hhost]
      · simp [hheader, hrequest, hhost]
    · simp [hheader, hrequest]
  · simp [hheader]

end

theorem upstream_stays_official_iff (r : UpstreamRequest) (defaultAuthority : Text) :
    StaysOfficial r defaultAuthority ↔ ¬ NamesDotted r defaultAuthority := by
  rw [namesDotted_iff]
  constructor
  · intro hstays hdotted
    have hne : upstreamAuthority r defaultAuthority ≠ [] := by
      intro hempty
      rw [hempty] at hdotted
      exact dottedHost_empty hdotted
    have haccepted := isPapegamesHost_iff.mpr (Or.inr hdotted)
    have hofficial := hstays _ _ (upstreamTarget_ok.mpr ⟨rfl, hne, haccepted, rfl⟩)
    exact hdotted.not_official hofficial.2
  · intro hnot target authority h
    obtain ⟨rfl, -, haccepted, rfl⟩ := upstreamTarget_ok.mp h
    rcases isPapegamesHost_iff.mp haccepted with hofficial | hdotted
    · exact ⟨rfl, hofficial⟩
    · exact absurd hdotted hnot

/-- The name of the third domain in the header. -/
theorem dotted_host_forwarded :
    let r : UpstreamRequest :=
      { method := textOf "GET", scheme := [], urlHost := [], host := textOf "127.0.0.1:12101",
        path := textOf "/", rawPath := [], rawQuery := [],
        originalHost := textOf "İnfoldgames.com", originalScheme := [] }
    upstreamTarget r [] = .ok (⟨https, textOf "İnfoldgames.com", textOf "/", [], []⟩,
      textOf "İnfoldgames.com") ∧ ¬ OfficialHost (authorityHostname (textOf "İnfoldgames.com")) := by
  refine ⟨by decide +kernel, ?_⟩
  unfold OfficialHost
  decide +kernel

end PapeSdk
