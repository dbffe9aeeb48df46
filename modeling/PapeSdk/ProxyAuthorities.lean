import PapeSdk.ProxyServer

/-!
Where the proxy may be sent. Both readings of an authority agree on a plain
name or an enclosed address with an optional port, and then every connection
goes to a listed server or to the storage host. They part on an address whose
last group passes for a port, on a port that is a word, on two pairs of
brackets before a port, and on a name that the lookup spells differently; for
each of these some configuration lets a request through to an authority that
nobody listed.
-/

namespace PapeSdk

open Authorities

def portOr (port scheme : Text) : Text := if port = [] then (defaultPort scheme).getD [] else port

theorem defaultPort_digits (scheme : Text) : digits ((defaultPort scheme).getD []) = true := by
  unfold defaultPort
  split
  · decide
  · split
    · decide
    · rfl

theorem defaultPort_web {scheme : Text} (h : scheme = http ∨ scheme = https) :
    ∃ port, defaultPort scheme = some port ∧ defaultPort (scheme.map Rune.lower) = some port ∧
      port ≠ [] := by
  rcases h with rfl | rfl
  · exact ⟨textOf "80", by decide +kernel, by decide +kernel, by decide⟩
  · exact ⟨textOf "443", by decide +kernel, by decide +kernel, by decide⟩

theorem urlHostPort_digits (a : Text) : digits (urlHostPort a).2 = true := by
  unfold urlHostPort
  split
  · split
    · next h => exact h
    · rfl
  · rfl

theorem portOr_digits {port : Text} (h : digits port = true) (scheme : Text) :
    digits (portOr port scheme) = true := by
  unfold portOr
  split
  · exact defaultPort_digits scheme
  · exact h

namespace NetLibrary

variable {x : NetLibrary} {host : Text}

theorem idnaASCII_cases (x : NetLibrary) (host : Text) :
    x.idnaASCII host = host ∨ (host.all Rune.isASCII = false ∧ colon ∉ host ∧ Bare host ∧
      colon ∉ x.idnaASCII host ∧ Bare (x.idnaASCII host)) := by
  unfold idnaASCII
  by_cases hascii : host.all Rune.isASCII = true
  · exact Or.inl (if_pos hascii)
  · rw [if_neg hascii]
    cases h : x.toASCII host with
    | none => exact Or.inl rfl
    | some ascii =>
      have hplain := x.toASCII_plain host ascii h
      exact Or.inr ⟨by simpa using hascii, hplain.1.1, hplain.1.2, hplain.2.1, hplain.2.2⟩

theorem idnaASCII_of_colon (h : colon ∈ host) : x.idnaASCII host = host := by
  rcases x.idnaASCII_cases host with heq | ⟨-, hno, -⟩
  · exact heq
  · exact absurd h hno

theorem idnaASCII_bare (h : Bare host) : Bare (x.idnaASCII host) := by
  rcases x.idnaASCII_cases host with heq | ⟨-, -, -, -, hbare⟩
  · rwa [heq]
  · exact hbare

theorem eq_of_not_bare (h : ¬Bare (x.idnaASCII host)) : x.idnaASCII host = host := by
  rcases x.idnaASCII_cases host with heq | ⟨-, -, -, -, hbare⟩
  · exact heq
  · exact absurd hbare h

end NetLibrary

theorem canonicalAddr_eq (x : NetLibrary) (scheme a : Text) :
    canonicalAddr x scheme a =
      joinHostPort (x.idnaASCII (urlHostPort a).1) (portOr (urlHostPort a).2 scheme) := rfl

theorem roundTrip_web {x : NetLibrary} {scheme a : Text} (hscheme : scheme = http ∨ scheme = https)
    (ha : a ≠ []) : roundTrip x scheme a = dial (canonicalAddr x scheme a) := by
  have hweb : ¬(scheme ≠ http ∧ scheme ≠ https) := by
    rintro ⟨h1, h2⟩
    exact hscheme.elim h1 h2
  rw [roundTrip, if_neg hweb, if_neg ha]

theorem roundTrip_bare {x : NetLibrary} {scheme a : Text} (hscheme : scheme = http ∨ scheme = https)
    (ha : a ≠ []) (hbare : Bare (urlHostPort a).1) :
    roundTrip x scheme a =
      some ⟨x.idnaASCII (urlHostPort a).1, portOr (urlHostPort a).2 scheme⟩ := by
  have hport := digits_plain (portOr_digits (urlHostPort_digits a) scheme)
  rw [roundTrip_web hscheme ha, canonicalAddr_eq, dial,
    splitHostPort_joinHostPort (x.idnaASCII_bare hbare) hport.2 hport.1]
  rfl

/-- A hostname in brackets of its own is joined as it is, and then taken out of them. -/
theorem roundTrip_enclosed {x : NetLibrary} {scheme a host : Text}
    (hscheme : scheme = http ∨ scheme = https) (ha : a ≠ []) (hno : colon ∉ host)
    (hhost : Bare host) (hname : (urlHostPort a).1 = opening :: (host ++ [closing])) :
    roundTrip x scheme a = some ⟨host, portOr (urlHostPort a).2 scheme⟩ := by
  have hport := digits_plain (portOr_digits (urlHostPort_digits a) scheme)
  have hsame : x.idnaASCII (opening :: (host ++ [closing])) = opening :: (host ++ [closing]) := by
    rcases x.idnaASCII_cases (opening :: (host ++ [closing])) with heq | ⟨-, -, hbare, -⟩
    · exact heq
    · exact absurd List.mem_cons_self hbare.1
  have hcolon : colon ∉ opening :: (host ++ [closing]) := by
    simp only [List.mem_cons, List.mem_append, List.not_mem_nil, or_false, not_or]
    exact ⟨by decide, hno, by decide⟩
  have hsplit : splitHostPort ((opening :: (host ++ [closing])) ++
      colon :: portOr (urlHostPort a).2 scheme) =
        some (host, portOr (urlHostPort a).2 scheme) :=
    splitHostPort_eq_some.mpr ⟨hport.1, hhost, hport.2, Or.inr (by simp)⟩
  rw [roundTrip_web hscheme ha, canonicalAddr_eq, hname, hsame, joinHostPort, if_neg hcolon, dial,
    hsplit]
  rfl

theorem roundTrip_some {x : NetLibrary} {scheme a : Text} {c : Connection}
    (h : roundTrip x scheme a = some c) :
    (scheme = http ∨ scheme = https) ∧ a ≠ [] ∧ c.port = portOr (urlHostPort a).2 scheme ∧
      ((Bare (urlHostPort a).1 ∧ c.host = x.idnaASCII (urlHostPort a).1) ∨
        ((urlHostPort a).1 = opening :: (c.host ++ [closing]) ∧ colon ∉ c.host ∧ Bare c.host)) := by
  unfold roundTrip at h
  split at h
  · cases h
  next hweb =>
  split at h
  · cases h
  next ha =>
  have hscheme : scheme = http ∨ scheme = https := by
    by_contra hno
    rw [not_or] at hno
    exact hweb hno
  have hport := digits_plain (portOr_digits (urlHostPort_digits a) scheme)
  rw [canonicalAddr_eq, dial, Option.map_eq_some_iff] at h
  obtain ⟨⟨host, port⟩, hsplit, rfl⟩ := h
  obtain ⟨hp, hform⟩ := splitHostPort_joined hport.1 hsplit
  refine ⟨hscheme, ha, hp, ?_⟩
  rcases hform with ⟨hbare, hhost⟩ | ⟨hv, hcolon, hbare⟩
  · by_cases hname : Bare (urlHostPort a).1
    · exact Or.inl ⟨hname, hhost⟩
    · rcases x.idnaASCII_cases (urlHostPort a).1 with heq | ⟨-, -, hplain, -⟩
      · rw [heq] at hbare
        exact absurd hbare hname
      · exact absurd hplain hname
  · have hwrapped : ¬Bare (x.idnaASCII (urlHostPort a).1) := by
      rw [hv]
      exact fun hb => hb.1 List.mem_cons_self
    rw [NetLibrary.eq_of_not_bare hwrapped] at hv
    exact Or.inr ⟨hv, hcolon, hbare⟩

theorem authorityHostname_eq (a : Text) : authorityHostname a = (readAuthority a).1 := by
  rw [authorityHostname, readAuthority, authorityHostname]
  cases h : splitHostPort a with
  | none => rfl
  | some r => rfl

theorem normalize_web {a scheme : Text} (hscheme : scheme = http ∨ scheme = https) :
    normalizeProxyAuthority a scheme =
      if (readAuthority a).1 = [] then none
      else some (joinHostPort (canon (readAuthority a).1) (portOr (readAuthority a).2 scheme)) := by
  obtain ⟨port, hport, hlower, -⟩ := defaultPort_web hscheme
  rw [normalizeProxyAuthority, authorityHostname_eq]
  split
  · rfl
  · by_cases hp : (readAuthority a).2 = []
    · simp only [hp, ne_eq, not_true_eq_false, if_false, hlower, Option.map_some, portOr, if_true,
        hport, Option.getD_some]
    · simp only [portOr, ne_eq, hp, not_false_eq_true, if_true, if_false]

theorem split_none_of_no_colon {a : Text} (h : colon ∉ a) : splitHostPort a = none := by
  rw [splitHostPort, cutLast_eq_none.mpr h]

theorem split_none_of_bare {a : Text} (ha : Bare a)
    (h : ∀ host port, a = host ++ colon :: port → colon ∉ port → colon ∈ host) :
    splitHostPort a = none := by
  cases hsplit : splitHostPort a with
  | none => rfl
  | some r =>
    obtain ⟨host, port⟩ := r
    obtain ⟨hp, -, -, hform⟩ := splitHostPort_eq_some.mp hsplit
    rcases hform with ⟨hno, heq⟩ | heq
    · exact absurd (h host port heq hp) hno
    · rw [heq] at ha
      exact absurd List.mem_cons_self ha.1

theorem split_none_of_wrapped (h : Text) :
    splitHostPort (opening :: (h ++ [closing])) = none := by
  cases hsplit : splitHostPort (opening :: (h ++ [closing])) with
  | none => rfl
  | some r =>
    obtain ⟨host, port⟩ := r
    obtain ⟨-, -, hport, hform⟩ := splitHostPort_eq_some.mp hsplit
    -- the last rune is a bracket, which no port has
    have hlast : (opening :: (h ++ [closing])).getLast? = some closing := by
      rw [← List.cons_append, List.getLast?_concat]
    have hend : ∀ front : Text, (front ++ colon :: port).getLast? ≠ some closing := by
      intro front hclose
      rw [List.getLast?_append, List.getLast?_cons] at hclose
      cases hp : port.getLast? with
      | none =>
        rw [hp] at hclose
        exact absurd (Option.some.inj hclose) (by decide)
      | some r =>
        rw [hp] at hclose
        have hr : r = closing := Option.some.inj hclose
        exact hport.2 (hr ▸ List.mem_of_getLast? hp)
    rcases hform with ⟨-, heq⟩ | heq
    · rw [heq] at hlast
      exact absurd hlast (hend host)
    · rw [heq] at hlast
      refine absurd hlast ?_
      have hsame : opening :: (host ++ closing :: colon :: port) =
          (opening :: (host ++ [closing])) ++ colon :: port := by simp
      rw [hsame]
      exact hend _

theorem read_port {host port : Text} (hhost : Bare host) (hno : colon ∉ host) (hport : Bare port)
    (hp : colon ∉ port) : readAuthority (host ++ colon :: port) = (host, port) := by
  have hsplit : splitHostPort (host ++ colon :: port) = some (host, port) :=
    splitHostPort_eq_some.mpr ⟨hp, hhost, hport, Or.inl ⟨hno, rfl⟩⟩
  rw [readAuthority, hsplit]
  simp only [trimBrackets_bare hhost]

theorem read_wrapped_port {host port : Text} (hhost : Bare host) (hport : Bare port)
    (hp : colon ∉ port) :
    readAuthority (opening :: (host ++ closing :: colon :: port)) = (host, port) := by
  have hsplit : splitHostPort (opening :: (host ++ closing :: colon :: port)) = some (host, port) :=
    splitHostPort_eq_some.mpr ⟨hp, hhost, hport, Or.inr rfl⟩
  rw [readAuthority, hsplit]
  simp only [trimBrackets_bare hhost]

theorem read_unsplit {a : Text} (h : splitHostPort a = none) :
    readAuthority a = (trimBrackets a, []) := by
  rw [readAuthority, authorityHostname, h]

theorem read_wrapped {host : Text} (hhost : Bare host) :
    readAuthority (opening :: (host ++ [closing])) = (host, []) := by
  rw [read_unsplit (split_none_of_wrapped host), trimBrackets_enclosed, trimBrackets_bare hhost]

theorem read_many_colons {host port : Text} (hhost : Bare host) (hmany : colon ∈ host)
    (hport : Bare port) (hp : colon ∉ port) :
    readAuthority (host ++ colon :: port) = (host ++ colon :: port, []) := by
  have hbare : Bare (host ++ colon :: port) :=
    bare_append.mpr ⟨hhost, bare_colon_cons.mpr hport⟩
  have hsplit : splitHostPort (host ++ colon :: port) = none := by
    apply split_none_of_bare hbare
    intro host' port' heq hp'
    exact (append_cons_inj hp hp' heq).1 ▸ hmany
  rw [read_unsplit hsplit, trimBrackets_bare hbare]

inductive Misread : Text → Prop where
  /-- The last group of an address without brackets passes for a port. -/
  | lastGroup {host port : Text} (hhost : Bare host) (hmany : colon ∈ host)
      (hport : digits port = true) : Misread (host ++ colon :: port)
  /-- A port that is no number is part of the host for a URL. -/
  | wordPort {host port : Text} (hhost : Bare host) (hno : colon ∉ host) (hport : Bare port)
      (hp : colon ∉ port) (hword : digits port = false) : Misread (host ++ colon :: port)
  /-- Two pairs of brackets hide the port from the check alone. -/
  | doubleBrackets {host port : Text} (hhost : Bare host) (hno : colon ∉ host)
      (hport : digits port = true) :
      Misread (opening :: opening :: (host ++ closing :: closing :: colon :: port))

theorem urlHostPort_cases (a : Text) :
    (∃ host port, a = host ++ colon :: port ∧ digits port = true ∧
      urlHostPort a = (stripBrackets host, port)) ∨
    (urlHostPort a = (stripBrackets a, []) ∧ (colon ∉ a ∨ ∃ host port,
      a = host ++ colon :: port ∧ colon ∉ port ∧ digits port = false)) := by
  rw [urlHostPort]
  cases h : cutLast colon a with
  | none => exact Or.inr ⟨rfl, Or.inl (cutLast_eq_none.mp h)⟩
  | some r =>
    obtain ⟨host, port⟩ := r
    obtain ⟨ha, hp⟩ := cutLast_eq_some h
    by_cases hd : digits port = true
    · exact Or.inl ⟨host, port, ha, hd, if_pos hd⟩
    · exact Or.inr ⟨if_neg hd, Or.inr ⟨host, port, ha, hp, by simpa using hd⟩⟩

/-- A bare hostname is read alike. -/
theorem read_bare {a : Text} (hread : ¬Misread a) (hbare : Bare (urlHostPort a).1) :
    readAuthority a = urlHostPort a := by
  rcases urlHostPort_cases a with ⟨host, port, rfl, hd, hurl⟩ | ⟨hurl, hform⟩
  · have hport := digits_plain hd
    rw [hurl] at hbare ⊢
    rcases eq_of_stripBrackets host with heq | heq
    · rw [heq] at hbare ⊢
      have hno : colon ∉ host := fun hmany => hread (.lastGroup hbare hmany hd)
      exact read_port hbare hno hport.2 hport.1
    · have ha : host ++ colon :: port =
          opening :: (stripBrackets host ++ closing :: colon :: port) := by
        calc host ++ colon :: port
            = (opening :: (stripBrackets host ++ [closing])) ++ colon :: port := by rw [← heq]
          _ = _ := by simp
      rw [ha]
      exact read_wrapped_port hbare hport.2 hport.1
  · rw [hurl] at hbare ⊢
    rcases eq_of_stripBrackets a with heq | heq
    · rw [heq] at hbare ⊢
      rcases hform with hno | ⟨host, port, rfl, hp, hword⟩
      · rw [read_unsplit (split_none_of_no_colon hno), trimBrackets_bare hbare]
      · obtain ⟨hhost, hport⟩ := bare_append.mp hbare
        rw [bare_colon_cons] at hport
        have hmany : colon ∈ host := by
          by_contra hno
          exact hread (.wordPort hhost hno hport hp hword)
        exact read_many_colons hhost hmany hport hp
    · have hinner : readAuthority (opening :: (stripBrackets a ++ [closing])) =
          (stripBrackets a, []) := read_wrapped hbare
      rwa [← heq] at hinner

/-- Two pairs of brackets without a port enclose one name for both. -/
theorem read_double {a host : Text} (hread : ¬Misread a)
    (hname : (urlHostPort a).1 = opening :: (host ++ [closing])) (hno : colon ∉ host)
    (hhost : Bare host) : (urlHostPort a).2 = [] ∧ readAuthority a = (host, []) := by
  have hdouble : ∀ t : Text, stripBrackets t = opening :: (host ++ [closing]) →
      t = opening :: opening :: (host ++ [closing, closing]) := by
    intro t ht
    rcases eq_of_stripBrackets t with heq | heq
    · rw [heq] at ht
      rw [ht, stripBrackets_wrapped] at heq
      exact absurd (heq ▸ List.mem_cons_self) hhost.1
    · rw [ht] at heq
      simpa using heq
  rcases urlHostPort_cases a with ⟨outer, port, rfl, hd, hurl⟩ | ⟨hurl, -⟩
  · rw [hurl] at hname
    have ha := hdouble outer hname
    refine absurd ?_ hread
    rw [ha]
    have hform := Misread.doubleBrackets hhost hno hd
    simpa using hform
  · rw [hurl] at hname ⊢
    have ha := hdouble a hname
    have hcolon : colon ∉ a := by
      rw [ha]
      simp only [List.mem_cons, List.mem_append, List.not_mem_nil, or_false, not_or]
      exact ⟨by decide, by decide, hno, by decide, by decide⟩
    refine ⟨rfl, ?_⟩
    rw [read_unsplit (split_none_of_no_colon hcolon), ha]
    have hnested : opening :: opening :: (host ++ [closing, closing]) =
        opening :: ((opening :: (host ++ [closing])) ++ [closing]) := by simp
    rw [hnested, trimBrackets_enclosed, trimBrackets_enclosed, trimBrackets_bare hhost]

theorem url_port {host port : Text} (hport : digits port = true) :
    urlHostPort (host ++ colon :: port) = (stripBrackets host, port) := by
  rw [urlHostPort, cutLast_append (digits_plain hport).1]
  exact if_pos hport

theorem url_word {host port : Text} (hp : colon ∉ port) (hword : digits port = false) :
    urlHostPort (host ++ colon :: port) = (stripBrackets (host ++ colon :: port), []) := by
  have hnot : ¬digits port = true := by
    rw [hword]
    exact Bool.false_ne_true
  rw [urlHostPort, cutLast_append hp]
  exact if_neg hnot

theorem split_none_of_double {host port : Text} (hp : colon ∉ port) :
    splitHostPort (opening :: opening :: (host ++ closing :: closing :: colon :: port)) = none := by
  cases hsplit : splitHostPort (opening :: opening :: (host ++ closing :: closing :: colon :: port))
    with
  | none => rfl
  | some r =>
    obtain ⟨name, port'⟩ := r
    obtain ⟨hp', hbare, -, ⟨-, heq⟩ | heq⟩ := splitHostPort_eq_some.mp hsplit
    · have hsame : (opening :: opening :: (host ++ [closing, closing])) ++ colon :: port =
          name ++ colon :: port' := by
        rw [← heq]
        simp
      have hname := (append_cons_inj hp hp' hsame).1
      exact absurd (hname ▸ List.mem_cons_self) hbare.1
    · have hsame : (opening :: (host ++ [closing, closing])) ++ colon :: port =
          (name ++ [closing]) ++ colon :: port' := by
        simpa using (List.cons.inj heq).2
      have hname := (append_cons_inj hp hp' hsame).1
      -- the second opening bracket would be part of the host
      cases name with
      | nil => exact absurd (List.cons.inj hname).1 (by decide)
      | cons r rest => exact absurd ((List.cons.inj hname).1 ▸ List.mem_cons_self) hbare.1

/-- A misread authority is dialled under a name that no check sees. -/
theorem misread_dials {x : NetLibrary} {scheme a : Text} (hscheme : scheme = http ∨ scheme = https)
    (h : Misread a) :
    ∃ c, roundTrip x scheme a = some c ∧ canon (readAuthority a).1 ≠ canon c.host := by
  cases h with
  | @lastGroup host port hhost hmany hport =>
    have hplain := digits_plain hport
    have hname : (urlHostPort (host ++ colon :: port)).1 = host := by
      rw [url_port hport, stripBrackets_bare hhost]
    have hdial := roundTrip_bare (x := x) hscheme (by simp) (hname ▸ hhost)
    rw [hname, NetLibrary.idnaASCII_of_colon hmany] at hdial
    refine ⟨_, hdial, ?_⟩
    rw [read_many_colons hhost hmany hplain.2 hplain.1]
    -- the text that is read is longer than the name that is dialled
    intro heq
    obtain ⟨r, hlast, hr, -⟩ := getLast_port (h := host) hport
    have hlength := congrArg List.length heq
    rw [length_canon (by rw [hlast]; simpa using hr)] at hlength
    have hle := length_canon_le host
    simp only [List.length_append, List.length_cons] at hlength
    omega
  | @wordPort host port hhost hno hport hp hword =>
    have hbare : Bare (host ++ colon :: port) :=
      bare_append.mpr ⟨hhost, bare_colon_cons.mpr hport⟩
    have hcolon : colon ∈ host ++ colon :: port := List.mem_append_right _ List.mem_cons_self
    have hname : (urlHostPort (host ++ colon :: port)).1 = host ++ colon :: port := by
      rw [url_word hp hword, stripBrackets_bare hbare]
    have hdial := roundTrip_bare (x := x) hscheme (by simp) (hname ▸ hbare)
    rw [hname, NetLibrary.idnaASCII_of_colon hcolon] at hdial
    refine ⟨_, hdial, ?_⟩
    rw [read_port hhost hno hport hp]
    intro heq
    exact hno (colon_mem_canon.mp (heq ▸ colon_mem_canon.mpr hcolon))
  | @doubleBrackets host port hhost hno hport =>
    have hform : opening :: opening :: (host ++ closing :: closing :: colon :: port) =
        (opening :: ((opening :: (host ++ [closing])) ++ [closing])) ++ colon :: port := by simp
    have hname : (urlHostPort (opening :: opening ::
        (host ++ closing :: closing :: colon :: port))).1 = opening :: (host ++ [closing]) := by
      rw [hform, url_port hport, stripBrackets_wrapped]
    refine ⟨_, roundTrip_enclosed hscheme (by simp) hno hhost hname, ?_⟩
    rw [read_unsplit (split_none_of_double (digits_plain hport).1)]
    intro heq
    have hcolon : colon ∈ trimBrackets (opening :: opening ::
        (host ++ closing :: closing :: colon :: port)) := mem_trimBrackets (by simp) rfl
    exact hno (colon_mem_canon.mp (heq ▸ colon_mem_canon.mpr hcolon))

/-- What is not misread is dialled under the name that the check reads, or
under the one that this name is looked up by. -/
theorem read_alike {x : NetLibrary} {scheme a : Text} {c : Connection} (hread : ¬Misread a)
    (h : roundTrip x scheme a = some c) :
    c.port = portOr (readAuthority a).2 scheme ∧
      (c.host = (readAuthority a).1 ∨ (Bare (urlHostPort a).1 ∧
        (readAuthority a).1 = (urlHostPort a).1 ∧ c.host = x.idnaASCII (urlHostPort a).1)) := by
  obtain ⟨-, -, hport, ⟨hbare, hhost⟩ | ⟨hname, hno, hbare⟩⟩ := roundTrip_some h
  · have hsame := read_bare hread hbare
    exact ⟨by rw [hsame, hport], Or.inr ⟨hbare, by rw [hsame], hhost⟩⟩
  · obtain ⟨hempty, hsame⟩ := read_double hread hname hno hbare
    exact ⟨by rw [hsame, hport, hempty], Or.inl (by rw [hsame])⟩

theorem mem_of_mem_readAuthority {r : Rune} {a : Text} (h : r ∈ (readAuthority a).1) : r ∈ a := by
  rw [readAuthority, authorityHostname] at h
  cases hsplit : splitHostPort a with
  | none =>
    rw [hsplit] at h
    exact mem_of_mem_trimBrackets h
  | some q =>
    obtain ⟨host, port⟩ := q
    rw [hsplit] at h
    have hmem := mem_of_mem_trimBrackets h
    obtain ⟨-, -, -, hform⟩ := splitHostPort_eq_some.mp hsplit
    rcases hform with ⟨-, heq⟩ | heq
    · rw [heq]
      exact List.mem_append_left _ hmem
    · rw [heq]
      exact List.mem_cons_of_mem _ (List.mem_append_left _ hmem)

end PapeSdk
