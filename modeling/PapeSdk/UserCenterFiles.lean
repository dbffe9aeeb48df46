import PapeSdk.ApplicationScoping

/-!
The files of the user center, as `userCenterAsset`, `serveUserCenterFile` and the
routes of `mountUserCenter` hand them out. A request names a file by the rest of
its path; the name is cleaned or only joined, and the result is compared with the
directory by its text. The page itself is never sent as a file, since it carries
a token for the forms on it.
-/

namespace PapeSdk

open BlockModes AsciiBytes FilePaths TextCodecs

inductive FileEntry where
  | directory
  | file (bytes : Bytes)
  deriving DecidableEq

/-- The configuration, the working directory and what `os.Stat` finds. -/
structure Site where
  cfg : Config
  cwd : Path
  entry : Path → Option FileEntry

inductive PageAnswer where
  | page (token html : Bytes)
  | file (path : Path)
  | redirect
  | badURL
  | badPath
  | notFound
  | missingPage
  | empty
  deriving DecidableEq

def indexPage : Bytes := bytesOf "index.html"

/-- The mark in the page that its token replaces. -/
def csrfMark : Bytes := bytesOf "\x7b\x7bcsrf\x7d\x7d"

/-- `strings.ReplaceAll` after `skip` more bytes of the last match. -/
def replaceFrom (old new : Bytes) : ℕ → Bytes → Bytes
  | _, [] => []
  | skip + 1, _ :: rest => replaceFrom old new skip rest
  | 0, b :: rest =>
    if old <+: b :: rest then new ++ replaceFrom old new (old.length - 1) rest
    else b :: replaceFrom old new 0 rest

/-- A field between slashes and backslashes is a parent step. -/
def containsDotDot (urlPath : Bytes) : Bool :=
  (urlPath.splitOn slash).any fun part => (part.splitOn backslash).contains [dot, dot]

/-- `http.ServeFile` for a file that exists. -/
def serveFile (urlPath : Bytes) (name : Path) : PageAnswer :=
  if containsDotDot urlPath then .badURL
  else if slash :: indexPage <:+ urlPath then .redirect
  else .file name

namespace Site

/-- `filepath.Abs`. -/
def abs (site : Site) (path : Path) : Path :=
  if path.rooted then path else site.cwd.append path

def root (site : Site) : Path := site.cfg.fileIn (bytesOf "static") (bytesOf "usercenter")

/-- `serveUserCenterFile`, with the token of a page that may be sent; `none` is `false`. -/
def serveUserCenterFile (site : Site) (token urlPath rel : Bytes) : Option PageAnswer :=
  let target := site.root.descend rel
  let absRoot := site.abs site.root
  let absTarget := site.abs target
  if absTarget.text ≠ absRoot.text ∧ ¬ absRoot.text ++ [slash] <+: absTarget.text then none
  else
    match site.entry absTarget with
    | some (.file raw) =>
      if rel = indexPage then some (.page token (replaceFrom csrfMark token 0 raw))
      else some (serveFile urlPath absTarget)
    | _ => none

/-- `GET /usercenter`. -/
def userCenterHome (site : Site) (token : Bytes) : PageAnswer :=
  (site.serveUserCenterFile token (bytesOf "/usercenter") indexPage).getD .missingPage

/-- `GET /usercenter/*filepath`, for the part of the path behind the slash. -/
def userCenterAsset (site : Site) (token filepath : Bytes) : PageAnswer :=
  let urlPath := bytesOf "/usercenter/" ++ filepath
  let rel := if filepath = [] then indexPage else filepath
  if bytesOf "api/" <+: rel then .notFound
  else
    let clean := Path.clean rel
    if clean.text = [dot] ∨ [dot, dot] <+: clean.text ∨ clean.rooted = true then .badPath
    else
      match site.serveUserCenterFile token urlPath clean.text with
      | some answer => answer
      | none => (site.serveUserCenterFile token urlPath indexPage).getD .empty

/-- `GET` and `HEAD` of `/assets/*filepath`. -/
def assets (site : Site) (token filepath : Bytes) : PageAnswer :=
  (site.serveUserCenterFile token (bytesOf "/assets/" ++ filepath)
    (bytesOf "assets/" ++ filepath)).getD .notFound

end Site

/-- A request for the routes of `mountUserCenter`; `other` is a page that `NoRoute` answers. -/
inductive PageRequest where
  | home
  | asset (filepath : Bytes)
  | assets (filepath : Bytes)
  | other (urlPath : Bytes)

def PageRequest.answer (site : Site) (token : Bytes) : PageRequest → PageAnswer
  | home => site.userCenterHome token
  | asset filepath => site.userCenterAsset token filepath
  | assets filepath => site.assets token filepath
  | other urlPath => (site.serveUserCenterFile token urlPath indexPage).getD .notFound

/-- The file that the elements of a path name below the directory of the user center. -/
def Site.below (site : Site) (parts : List Bytes) : Path :=
  ⟨site.root.rooted, parts.reverse ++ site.root.trail⟩

/-- The configuration has been read from an absolute path. -/
def Site.Absolute (site : Site) : Prop := site.cfg.baseDir.rooted = true

section
variable {site : Site} {parts : List Bytes} {rel urlPath token filepath : Bytes}

theorem root_eq (site : Site) : site.root =
    ⟨site.cfg.baseDir.rooted,
      bytesOf "usercenter" :: bytesOf "static" :: site.cfg.baseDir.trail⟩ := by
  have hstatic : FilePaths.Plain (bytesOf "static") := by decide
  have hcenter : FilePaths.Plain (bytesOf "usercenter") := by decide
  rw [Site.root, site.cfg.fileIn_eq (by decide) hcenter]
  have hdir : Path.clean (bytesOf "static") = (⟨false, []⟩ : Path).child (bytesOf "static") := by
    decide
  rw [Config.directory, hdir, site.cfg.resolve_child _ hstatic]
  rfl

theorem root_rooted (h : site.Absolute) : site.root.rooted = true := by
  rw [root_eq]
  exact h

theorem abs_root (h : site.Absolute) : site.abs site.root = site.root := if_pos (root_rooted h)

theorem descend_plain (hparts : ∀ part ∈ parts, FilePaths.Plain part)
    (hrel : rel.splitOn slash = parts) : site.root.descend rel = site.below parts := by
  rw [Path.descend, hrel, Path.foldl_step_plain hparts]
  rfl

/-- Everything below the directory passes the comparison of texts. -/
theorem below_passes (h : site.Absolute) (hne : parts ≠ []) :
    site.root.text ++ [slash] <+: (site.below parts).text := by
  have htext := @Path.text_below site.root (site.below parts) parts.reverse (root_rooted h)
    (root_rooted h) (by rw [root_eq]; exact List.cons_ne_nil _ _) (by simpa using hne) rfl
  rw [htext, List.reverse_reverse]
  exact ⟨[slash].intercalate parts, by rw [List.append_assoc]; rfl⟩

theorem containsDotDot_eq_false : containsDotDot urlPath = false ↔
    ∀ part ∈ urlPath.splitOn slash, [dot, dot] ∉ part.splitOn backslash := by
  simp [containsDotDot]

theorem splitOn_intercalate_plain (hparts : ∀ part ∈ parts, FilePaths.Plain part)
    (hne : parts ≠ []) : ([slash].intercalate parts).splitOn slash = parts :=
  List.splitOn_intercalate slash (fun part hpart => (hparts part hpart).no_slash) hne

end

/-- The elements of a path that a request can lead to. -/
structure Reachable (parts : List Bytes) : Prop where
  nonempty : parts ≠ []
  plain : ∀ part ∈ parts, FilePaths.Plain part
  visible : ∀ part ∈ parts, [dot, dot] ∉ part.splitOn backslash
  first : ∀ part, parts.head? = some part → ¬ [dot, dot] <+: part
  not_page : parts ≠ [indexPage]

/-- The file of a path below the directory. -/
def Site.Shows (site : Site) (path : Path) : Prop :=
  ∃ parts, Reachable parts ∧ path = site.below parts ∧
    ∃ bytes, site.entry path = some (.file bytes)

section
variable {site : Site} {parts : List Bytes} {rel urlPath token filepath : Bytes}
  {path path' : Path}

theorem serveFile_eq_file (h : serveFile urlPath path = .file path') :
    containsDotDot urlPath = false ∧ path' = path := by
  unfold serveFile at h
  split at h
  · cases h
  next hdots =>
  split at h
  · cases h
  · cases h
    exact ⟨Bool.eq_false_of_not_eq_true hdots, rfl⟩

theorem serve_eq_file (h : site.Absolute)
    (hserved : site.serveUserCenterFile token urlPath rel = some (.file path)) :
    rel ≠ indexPage ∧ containsDotDot urlPath = false ∧ path = site.root.descend rel ∧
      ∃ bytes, site.entry path = some (.file bytes) := by
  have habs : site.abs (site.root.descend rel) = site.root.descend rel := if_pos (root_rooted h)
  simp only [Site.serveUserCenterFile, habs] at hserved
  split at hserved
  · cases hserved
  split at hserved
  · next raw hraw =>
    split at hserved
    · cases hserved
    · next hrel =>
      obtain ⟨hdots, rfl⟩ := serveFile_eq_file (Option.some.inj hserved)
      exact ⟨hrel, hdots, rfl, raw, hraw⟩
  · cases hserved

theorem index_not_file (h : site.Absolute) {other : PageAnswer} (hother : other ≠ .file path) :
    (site.serveUserCenterFile token urlPath indexPage).getD other ≠ .file path := by
  intro hfile
  cases hserved : site.serveUserCenterFile token urlPath indexPage with
  | none =>
    rw [hserved] at hfile
    exact hother hfile
  | some answer =>
    rw [hserved, Option.getD_some] at hfile
    rw [hfile] at hserved
    exact (serve_eq_file h hserved).1 rfl

theorem index_asset_not_file (h : site.Absolute) : site.userCenterAsset token [] ≠ .file path := by
  have hname : ¬ bytesOf "api/" <+: indexPage := by decide
  have htext : (Path.clean indexPage).text = indexPage := by decide
  have hclean : ¬ (indexPage = [dot] ∨ [dot, dot] <+: indexPage ∨
      (Path.clean indexPage).rooted = true) := by decide
  intro hanswer
  simp only [Site.userCenterAsset, if_true, if_neg hname, htext, if_neg hclean] at hanswer
  split at hanswer
  · next answer hserved =>
    rw [hanswer] at hserved
    exact (serve_eq_file h hserved).1 rfl
  · exact index_not_file h (by simp) hanswer

/-- A cleaned name that is no page leads to a file below the directory. -/
theorem asset_shows (h : site.Absolute)
    (hanswer : site.userCenterAsset token filepath = .file path) :
    site.Shows path := by
  have hfilepath : filepath ≠ [] := by
    rintro rfl
    exact index_asset_not_file h hanswer
  simp only [Site.userCenterAsset, if_neg hfilepath] at hanswer
  split at hanswer
  · cases hanswer
  split at hanswer
  · cases hanswer
  next hclean =>
  rw [not_or, not_or] at hclean
  obtain ⟨hdot, hdots, hrooted⟩ := hclean
  split at hanswer
  · next answer hserved =>
    rw [hanswer] at hserved
    obtain ⟨hpage, hvisible, hpath, hentry⟩ := serve_eq_file h hserved
    obtain ⟨htrail, hplain, hsplit⟩ := Path.clean_inside (Bool.eq_false_of_not_eq_true hrooted)
      hdot (fun heq => hdots (heq ▸ List.prefix_rfl))
      (fun hup => hdots (List.IsPrefix.trans ⟨[slash], rfl⟩ hup))
    have htext : [slash].intercalate ((Path.clean filepath).text.splitOn slash) =
        (Path.clean filepath).text := List.intercalate_splitOn slash
    rw [hsplit] at htext
    have hparts : ∀ part ∈ (Path.clean filepath).trail.reverse, FilePaths.Plain part :=
      fun part hpart => hplain part (List.mem_reverse.mp hpart)
    refine ⟨(Path.clean filepath).trail.reverse, ⟨by simpa using htrail, hparts, ?_, ?_, ?_⟩, ?_,
      hentry⟩
    · intro part hpart
      refine containsDotDot_eq_false.mp hvisible part ?_
      have hurl : bytesOf "/usercenter/" ++ filepath =
          bytesOf "/usercenter" ++ slash :: filepath := rfl
      rw [hurl, List.splitOn_append_cons_self]
      exact List.mem_append_right _ (Path.mem_clean (List.mem_reverse.mp hpart))
    · intro part hhead hup
      obtain ⟨rest, hrest⟩ := List.head?_eq_some_iff.mp hhead
      refine hdots (hup.trans ?_)
      rw [← htext, hrest]
      cases rest with
      | nil => exact ⟨[], by rw [List.intercalate_singleton, List.append_nil]⟩
      | cons next rest =>
        rw [List.intercalate_cons_cons, List.append_assoc]
        exact List.prefix_append _ _
    · intro hpage'
      rw [hpage', List.intercalate_singleton] at htext
      exact hpage htext.symm
    · rw [hpath]
      exact descend_plain hparts hsplit
  · exact absurd hanswer (index_not_file h (by simp))

/-- Below `assets` no element is cleaned away but the empty ones and single dots. -/
theorem assets_shows (h : site.Absolute) (hanswer : site.assets token filepath = .file path) :
    site.Shows path := by
  cases hserved : site.serveUserCenterFile token (bytesOf "/assets/" ++ filepath)
      (bytesOf "assets/" ++ filepath) with
  | none =>
    rw [Site.assets, hserved] at hanswer
    cases hanswer
  | some answer =>
    rw [Site.assets, hserved, Option.getD_some] at hanswer
    rw [hanswer] at hserved
    obtain ⟨-, hvisible, hpath, hentry⟩ := serve_eq_file h hserved
    have hurl : (bytesOf "/assets/" ++ filepath).splitOn slash =
        [[], bytesOf "assets"] ++ filepath.splitOn slash := by
      have hname : bytesOf "/assets/" ++ filepath = bytesOf "/assets" ++ slash :: filepath := rfl
      have hfirst : (bytesOf "/assets").splitOn slash = [[], bytesOf "assets"] := by decide
      rw [hname, List.splitOn_append_cons_self, hfirst]
    have hrel : (bytesOf "assets/" ++ filepath).splitOn slash =
        bytesOf "assets" :: filepath.splitOn slash := by
      have hname : bytesOf "assets/" ++ filepath = bytesOf "assets" ++ slash :: filepath := rfl
      have hfirst : (bytesOf "assets").splitOn slash = [bytesOf "assets"] := by decide
      rw [hname, List.splitOn_append_cons_self, hfirst]
      rfl
    have hshown : ∀ part ∈ filepath.splitOn slash, [dot, dot] ∉ part.splitOn backslash := by
      intro part hpart
      refine containsDotDot_eq_false.mp hvisible part ?_
      rw [hurl]
      exact List.mem_append_right _ hpart
    have hdots : [dot, dot] ∉ filepath.splitOn slash := by
      intro hmem
      exact hshown _ hmem (by decide)
    refine ⟨bytesOf "assets" :: (filepath.splitOn slash).filter fun part =>
      part ≠ [] ∧ part ≠ [dot], ⟨List.cons_ne_nil _ _, ?_, ?_, ?_, ?_⟩, ?_, hentry⟩
    · rw [List.forall_mem_cons]
      refine ⟨by decide, fun part hpart => ?_⟩
      obtain ⟨hmem, hkeep⟩ := List.mem_filter.mp hpart
      have hkeep : part ≠ [] ∧ part ≠ [dot] := by simpa using hkeep
      exact ⟨hkeep.1, hkeep.2, fun heq => hdots (heq ▸ hmem),
        fun hslash => (Path.mem_splitOn hmem slash hslash).2 rfl⟩
    · rw [List.forall_mem_cons]
      exact ⟨by decide, fun part hpart => hshown part (List.mem_filter.mp hpart).1⟩
    · intro part hhead
      rw [List.head?_cons] at hhead
      rw [← Option.some.inj hhead]
      decide
    · intro hpage
      have hname : bytesOf "assets" = indexPage := (List.cons.inj hpage).1
      revert hname
      decide
    · rw [hpath, Path.descend, hrel, List.foldl_cons, Path.foldl_step hdots, Site.below,
        List.reverse_cons, List.append_assoc]
      rfl

/-- A way to ask for a path: a dot in front, and a slash behind that ends no page name. -/
def namedPath (parts : List Bytes) : Bytes :=
  dot :: slash :: ([slash].intercalate parts ++ [slash])

theorem splitOn_namedPath (hparts : ∀ part ∈ parts, FilePaths.Plain part) (hne : parts ≠ []) :
    (namedPath parts).splitOn slash = [dot] :: (parts ++ [[]]) := by
  have hdot : namedPath parts = [dot] ++ slash :: ([slash].intercalate parts ++ slash :: []) := rfl
  have hsplit : ([dot] : Bytes).splitOn slash = [[dot]] := by decide
  rw [hdot, List.splitOn_append_cons_self, List.splitOn_append_cons_self, hsplit,
    splitOn_intercalate_plain hparts hne, List.splitOn_nil]
  rfl

theorem clean_namedPath (hparts : ∀ part ∈ parts, FilePaths.Plain part) (hne : parts ≠ []) :
    Path.clean (namedPath parts) = ⟨false, parts.reverse⟩ := by
  have habs : Path.isAbs (namedPath parts) = false := rfl
  unfold Path.clean
  rw [habs, splitOn_namedPath hparts hne, List.foldl_cons, List.foldl_append,
    Path.foldl_step_plain hparts]
  simp only [List.foldl_cons, List.foldl_nil]
  exact congrArg (FilePaths.Path.mk false) (by simp [Path.step])

theorem text_plain (hne : parts ≠ []) :
    (⟨false, parts.reverse⟩ : Path).text = [slash].intercalate parts := by
  rw [Path.text, if_neg (by simpa using hne), List.reverse_reverse]
  rfl

/-- The text of a reachable path does not look like one that leads out. -/
theorem Reachable.text_inside (h : Reachable parts) : [slash].intercalate parts ≠ [dot] ∧
    ¬ [dot, dot] <+: [slash].intercalate parts := by
  obtain ⟨name, rest, rfl⟩ := List.exists_cons_of_ne_nil h.nonempty
  have hname := h.plain name List.mem_cons_self
  obtain ⟨c, t, rfl⟩ := List.exists_cons_of_ne_nil hname.nonempty
  have hstart : ∃ behind, [slash].intercalate ((c :: t) :: rest) = c :: (t ++ behind) ∧
      (behind = [] ∨ ∃ more, behind = slash :: more) := by
    cases rest with
    | nil => exact ⟨[], by rw [List.intercalate_singleton, List.append_nil], Or.inl rfl⟩
    | cons next rest =>
      refine ⟨slash :: [slash].intercalate (next :: rest), ?_, Or.inr ⟨_, rfl⟩⟩
      rw [List.intercalate_cons_cons, List.append_assoc]
      rfl
  obtain ⟨behind, htext, hbehind⟩ := hstart
  rw [htext]
  constructor
  · intro hdot
    obtain ⟨rfl, hnil⟩ := List.cons.inj hdot
    obtain ⟨rfl, -⟩ := List.append_eq_nil_iff.mp hnil
    exact hname.not_dot rfl
  · intro hup
    obtain ⟨rfl, hsecond⟩ := List.cons_prefix_cons.mp hup
    cases t with
    | nil => exact hname.not_dot rfl
    | cons d t =>
      obtain ⟨rfl, -⟩ := List.cons_prefix_cons.mp hsecond
      exact h.first _ rfl ⟨t, rfl⟩

theorem Reachable.url_shown (h : Reachable parts) :
    containsDotDot (bytesOf "/usercenter/" ++ namedPath parts) = false ∧
      ¬ slash :: indexPage <:+ bytesOf "/usercenter/" ++ namedPath parts := by
  constructor
  · have hname : bytesOf "/usercenter/" ++ namedPath parts =
        bytesOf "/usercenter" ++ slash :: namedPath parts := rfl
    have hfirst : (bytesOf "/usercenter").splitOn slash = [[], bytesOf "usercenter"] := by decide
    rw [containsDotDot_eq_false, hname, List.splitOn_append_cons_self, hfirst,
      splitOn_namedPath h.plain h.nonempty]
    have hconst : ∀ part ∈ [[], bytesOf "usercenter"],
        [dot, dot] ∉ part.splitOn backslash := by decide
    intro part hpart
    rcases List.mem_append.mp hpart with hfront | hpart
    · exact hconst part hfront
    rcases List.mem_cons.mp hpart with rfl | hpart
    · decide
    rcases List.mem_append.mp hpart with hmem | hlast
    · exact h.visible part hmem
    · rw [List.mem_singleton.mp hlast]
      decide
  · rintro ⟨front, hend⟩
    have hlast := congrArg List.getLast? hend
    have hslash : (bytesOf "/usercenter/" ++ namedPath parts).getLast? = some slash := by
      have hname : bytesOf "/usercenter/" ++ namedPath parts =
          (bytesOf "/usercenter/" ++ dot :: slash :: [slash].intercalate parts) ++ [slash] := by
        rw [List.append_assoc]
        rfl
      rw [hname, List.getLast?_concat]
    have hletter : (front ++ slash :: indexPage).getLast? = some 108 := by
      rw [List.getLast?_append]
      have hpage : (slash :: indexPage).getLast? = some 108 := by decide
      rw [hpage]
      rfl
    rw [hslash, hletter] at hlast
    revert hlast
    decide

theorem Reachable.served (hreach : Reachable parts) (h : site.Absolute) {bytes : Bytes}
    (hentry : site.entry (site.below parts) = some (.file bytes)) :
    site.userCenterAsset token (namedPath parts) = .file (site.below parts) := by
  have hclean := clean_namedPath hreach.plain hreach.nonempty
  have htext := text_plain hreach.nonempty
  obtain ⟨hdot, hdots⟩ := hreach.text_inside
  obtain ⟨hvisible, hindex⟩ := hreach.url_shown
  have hrel : (if namedPath parts = [] then indexPage else namedPath parts) = namedPath parts :=
    if_neg (List.cons_ne_nil _ _)
  have hapi : ¬ bytesOf "api/" <+: namedPath parts := by
    intro hstart
    have hletter := (List.cons_prefix_cons.mp hstart).1
    revert hletter
    decide
  have hgood : ¬ ([slash].intercalate parts = [dot] ∨ [dot, dot] <+: [slash].intercalate parts ∨
      (⟨false, parts.reverse⟩ : Path).rooted = true) := by
    rintro (heq | hup | hrooted)
    · exact hdot heq
    · exact hdots hup
    · cases hrooted
  have hpage : [slash].intercalate parts ≠ indexPage := by
    intro heq
    have hsplit := splitOn_intercalate_plain hreach.plain hreach.nonempty
    have hindexSplit : indexPage.splitOn slash = [indexPage] := by decide
    rw [heq, hindexSplit] at hsplit
    exact hreach.not_page hsplit.symm
  have hbelow : site.root.descend ([slash].intercalate parts) = site.below parts :=
    descend_plain hreach.plain (splitOn_intercalate_plain hreach.plain hreach.nonempty)
  have habs : site.abs (site.below parts) = site.below parts := if_pos (root_rooted h)
  have hpasses : ¬ ((site.below parts).text ≠ site.root.text ∧
      ¬ site.root.text ++ [slash] <+: (site.below parts).text) := by
    rintro ⟨-, hoff⟩
    exact hoff (below_passes h hreach.nonempty)
  have hserved : site.serveUserCenterFile token (bytesOf "/usercenter/" ++ namedPath parts)
      ([slash].intercalate parts) = some (.file (site.below parts)) := by
    simp only [Site.serveUserCenterFile, hbelow, habs, abs_root h, if_neg hpasses, hentry,
      if_neg hpage, serveFile, hvisible, Bool.false_eq_true, if_false, if_neg hindex]
  simp only [Site.userCenterAsset, hrel, if_neg hapi, hclean, htext, if_neg hgood, hserved]

/-- The routes of the user center hand out exactly the files below its directory, but for the
page, names that begin with two dots, and names that hide a parent step. -/
theorem file_handed_out_iff (h : site.Absolute) :
    (∃ (request : PageRequest) (token : Bytes), request.answer site token = .file path) ↔
      site.Shows path := by
  constructor
  · rintro ⟨request, token, hanswer⟩
    cases request with
    | home => exact absurd hanswer (index_not_file h (by simp))
    | asset filepath => exact asset_shows h hanswer
    | assets filepath => exact assets_shows h hanswer
    | other urlPath => exact absurd hanswer (index_not_file h (by simp))
  · rintro ⟨parts, hreach, rfl, bytes, hentry⟩
    exact ⟨.asset (namedPath parts), [], hreach.served h hentry⟩

end

def shownSite : Site where
  cfg := ⟨∅, [], Constants.zero, [], Constants.zero, ∅, ⟨true, [bytesOf "srv"]⟩⟩
  cwd := ⟨true, []⟩
  entry path := if path.trail.head? = some (bytesOf "keys.txt") then some (.file [1]) else none

theorem api_file_handed_out :
    ∃ (request : PageRequest) (token : Bytes), request.answer shownSite token =
      .file (shownSite.below [bytesOf "api", bytesOf "keys.txt"]) := by
  refine (file_handed_out_iff (rfl : shownSite.Absolute)).mpr ⟨_, ?_, rfl, [1], by decide⟩
  refine ⟨by decide, by decide, by decide, ?_, by decide⟩
  intro part hpart
  rw [← Option.some.inj hpart]
  decide

end PapeSdk
