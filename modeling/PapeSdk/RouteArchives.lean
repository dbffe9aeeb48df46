import PapeSdk.ApplicationScoping
import PapeSdk.EventRuns
import PapeSdk.ProxyClosure
import PapeSdk.UpstreamTargets

/-!
Exchanges with the original servers that are kept on disk: `createRouteArchive`
and `saveArchivedResponse` of `internal/app/upstream.go`. Every exchange has a
directory of its own, named by the time, a number that counts the exchanges and
what was asked for. Requests are served at the same time, so that the writes of
one exchange come between those of others.
-/

namespace PapeSdk

open Authorities EventRuns FilePaths BlockModes TextCodecs

def underscore : Rune := .char '_'

/-- The time as `20060102T150405.000000000`. -/
structure ArchiveTime where
  text : Text
  length : text.length = 25
  plain : ∀ r ∈ text, r.isDigit = true ∨ r = .char 'T' ∨ r = .char '.'
  first : ∃ r, text.head? = some r ∧ r.isDigit = true

/-- A number as `%06d`. -/
def paddedDigits (n : ℕ) : List Char :=
  List.replicate (6 - (Nat.toDigits 10 n).length) '0' ++ Nat.toDigits 10 n

def isNameRune : Rune → Bool
  | .char c => c.isAlphanum || c == '.' || c == '_' || c == '-'
  | .invalid _ => false

/-- Every run of other runes becomes one underscore. -/
def cleanName : Bool → Text → Text
  | _, [] => []
  | inRun, r :: rest =>
    if isNameRune r then r :: cleanName false rest
    else if inRun then cleanName true rest
    else underscore :: cleanName true rest

def trimUnderscores (t : Text) : Text :=
  (t.dropWhile (· == underscore)).rdropWhile (· == underscore)

def trimSlashes (t : Text) : Text :=
  (t.dropWhile (· == .char '/')).rdropWhile (· == .char '/')

/-- What the name of a directory begins with. -/
def archiveMark (t : ArchiveTime) (sequence : ℕ) : Text :=
  t.text ++ underscore :: (paddedDigits sequence).map Rune.char

def archiveName (t : ArchiveTime) (sequence : ℕ) (method host path : Text) : Text :=
  let name := archiveMark t sequence ++ underscore ::
    (method ++ underscore :: (host ++ underscore :: trimSlashes path))
  (trimUnderscores (cleanName false name)).take 180

/-- The bytes of a name that is cleaned. -/
def nameBytes (t : Text) : Bytes :=
  t.map fun
    | .char c => c.toNat.toUInt8
    | .invalid b => b

theorem isNameRune_digit {c : Char} (h : c.isDigit = true) : isNameRune (.char c) = true := by
  simp [isNameRune, Char.isAlphanum, h]

theorem paddedDigits_isDigit {n : ℕ} : ∀ c ∈ paddedDigits n, c.isDigit = true := by
  intro c hc
  rcases List.mem_append.mp hc with hzero | hdigit
  · rw [List.eq_of_mem_replicate hzero]
    decide
  · exact Nat.isDigit_of_mem_toDigits (by decide) (by decide) hdigit

theorem paddedDigits_ne_nil (n : ℕ) : paddedDigits n ≠ [] := by
  simp [paddedDigits, Nat.toDigits_ne_nil]

theorem paddedDigits_injective {m n : ℕ} (h : paddedDigits m = paddedDigits n) : m = n := by
  have hvalue : ∀ k, Nat.ofDigitChars 10 (paddedDigits k) 0 = k := by
    intro k
    rw [paddedDigits, Nat.ofDigitChars_append, Nat.ofDigitChars_replicate_zero, Nat.mul_zero,
      Nat.ofDigitChars_ten_toDigits]
  rw [← hvalue m, h, hvalue]

theorem length_paddedDigits {n : ℕ} (h : n < 2 ^ 64) : (paddedDigits n).length ≤ 20 := by
  have hdigits : (Nat.toDigits 10 n).length ≤ 20 := by
    rw [Nat.length_toDigits_le_iff (by decide) (by decide)]
    exact lt_of_lt_of_le h (by decide)
  rw [paddedDigits, List.length_append, List.length_replicate]
  omega

theorem cleanName_append {t rest : Text} (h : ∀ r ∈ t, isNameRune r = true) :
    cleanName false (t ++ rest) = t ++ cleanName false rest := by
  induction t with
  | nil => rfl
  | cons r t ih =>
    rw [List.cons_append, cleanName, if_pos (h r List.mem_cons_self),
      ih fun q hq => h q (List.mem_cons_of_mem r hq), List.cons_append]

theorem cleanName_plain (inRun : Bool) (t : Text) :
    ∀ r ∈ cleanName inRun t, isNameRune r = true := by
  induction t generalizing inRun with
  | nil => exact nofun
  | cons first rest ih =>
    intro r hr
    rw [cleanName] at hr
    split at hr
    · next hfirst =>
      rcases List.mem_cons.mp hr with rfl | hr
      · exact hfirst
      · exact ih _ r hr
    · split at hr
      · exact ih _ r hr
      · rcases List.mem_cons.mp hr with rfl | hr
        · decide
        · exact ih _ r hr

theorem rdropWhile_append {p : Rune → Bool} {front : Text}
    (hfront : front.rdropWhile p = front) (rest : Text) :
    ∃ tail, (front ++ rest).rdropWhile p = front ++ tail ∧ tail <+: rest := by
  induction rest using List.reverseRecOn with
  | nil => exact ⟨[], by rw [List.append_nil, hfront], List.prefix_refl _⟩
  | append_singleton rest r ih =>
    rw [← List.append_assoc]
    by_cases hr : p r = true
    · rw [List.rdropWhile_concat_pos _ _ _ hr]
      obtain ⟨tail, heq, hprefix⟩ := ih
      exact ⟨tail, heq, hprefix.trans (List.prefix_append _ _)⟩
    · rw [List.rdropWhile_concat_neg _ _ _ hr, List.append_assoc]
      exact ⟨rest ++ [r], rfl, List.prefix_refl _⟩

section
variable {t t' : ArchiveTime} {m n : ℕ} {method method' host host' path path' : Text}

theorem archiveMark_plain (t : ArchiveTime) (n : ℕ) :
    ∀ r ∈ archiveMark t n, isNameRune r = true := by
  intro r hr
  rcases List.mem_append.mp hr with htime | hr
  · rcases t.plain r htime with hdigit | rfl | rfl
    · cases r with
      | char c => exact isNameRune_digit hdigit
      | invalid b => cases hdigit
    · decide
    · decide
  · rcases List.mem_cons.mp hr with rfl | hr
    · decide
    · obtain ⟨c, hc, rfl⟩ := List.mem_map.mp hr
      exact isNameRune_digit (paddedDigits_isDigit c hc)

theorem archiveMark_trimmed (t : ArchiveTime) (n : ℕ) :
    (archiveMark t n).rdropWhile (· == underscore) = archiveMark t n := by
  rw [List.rdropWhile_eq_self_iff]
  intro hne hlast
  obtain ⟨c, hc⟩ : ∃ c, (paddedDigits n).getLast? = some c := by
    rw [List.getLast?_eq_some_getLast (paddedDigits_ne_nil n)]
    exact ⟨_, rfl⟩
  have hend : (archiveMark t n).getLast? = some (.char c) := by
    rw [archiveMark, List.getLast?_append, List.getLast?_cons, List.getLast?_map, hc]
    rfl
  rw [List.getLast?_eq_some_getLast hne, Option.some.injEq] at hend
  rw [hend] at hlast
  have hdigit := paddedDigits_isDigit c (List.mem_of_getLast? hc)
  rw [Rune.char.inj (beq_iff_eq.mp hlast)] at hdigit
  revert hdigit
  decide

/-- A name begins with its mark, and an underscore ends the mark. -/
theorem archiveName_mark (hn : n < 2 ^ 64) :
    ∃ tail, archiveName t n method host path = archiveMark t n ++ tail ∧
      ∀ r, tail.head? = some r → r = underscore := by
  have hclean : ∀ rest, cleanName false (archiveMark t n ++ underscore :: rest) =
      archiveMark t n ++ underscore :: cleanName false rest := by
    intro rest
    rw [cleanName_append (archiveMark_plain t n), cleanName, if_pos (by decide)]
  obtain ⟨first, hfirst, hdigit⟩ := t.first
  have hleft : ∀ rest, (archiveMark t n ++ rest).dropWhile (· == underscore) =
      archiveMark t n ++ rest := by
    intro rest
    cases htext : t.text with
    | nil =>
      rw [htext] at hfirst
      cases hfirst
    | cons r others =>
      rw [htext] at hfirst
      cases hfirst
      rw [archiveMark, htext, List.cons_append, List.cons_append, List.dropWhile_cons, if_neg]
      rintro hunder
      rw [beq_iff_eq.mp hunder] at hdigit
      cases hdigit
  have hlength : (archiveMark t n).length ≤ 180 := by
    have := length_paddedDigits hn
    simp only [archiveMark, List.length_append, List.length_cons, List.length_map, t.length]
    omega
  rw [archiveName]
  simp only [hclean, trimUnderscores, hleft]
  obtain ⟨tail, htail, hprefix⟩ := rdropWhile_append (archiveMark_trimmed t n)
    (underscore :: cleanName false (method ++ underscore :: (host ++ underscore ::
      trimSlashes path)))
  rw [htail, List.take_append, List.take_of_length_le hlength]
  refine ⟨_, rfl, ?_⟩
  intro r hr
  have hstart := (List.take_prefix (180 - (archiveMark t n).length) tail).trans hprefix
  obtain ⟨others, hothers⟩ := List.head?_eq_some_iff.mp hr
  rw [hothers] at hstart
  exact (List.cons_prefix_cons.mp hstart).1

theorem archiveName_plain (n : ℕ) : ∀ r ∈ archiveName t n method host path,
    isNameRune r = true := by
  intro r hr
  have hr := (List.rdropWhile_prefix _ _).subset (List.mem_of_mem_take hr)
  exact cleanName_plain _ _ r ((List.dropWhile_sublist _).subset hr)

/-- A name tells the time and the number of its exchange. -/
theorem archiveName_injective (hm : m < 2 ^ 64) (hn : n < 2 ^ 64)
    (h : archiveName t m method host path = archiveName t' n method' host' path') :
    t.text = t'.text ∧ m = n := by
  obtain ⟨tail, hname, htail⟩ := @archiveName_mark t m method host path hm
  obtain ⟨tail', hname', htail'⟩ := @archiveName_mark t' n method' host' path' hn
  rw [hname, hname', archiveMark, archiveMark, List.append_assoc, List.append_assoc] at h
  obtain ⟨htime, hrest⟩ := List.append_inj h (t.length.trans t'.length.symm)
  have hnumber : ∀ (k : ℕ) (tail : Text), (∀ r, tail.head? = some r → r = underscore) →
      ((paddedDigits k).map Rune.char ++ tail).takeWhile Rune.isDigit =
        (paddedDigits k).map Rune.char := by
    intro k tail htail
    rw [List.takeWhile_append_of_pos]
    · cases tail with
      | nil => simp
      | cons r rest =>
        rw [htail r rfl, List.takeWhile_cons, if_neg (by decide), List.append_nil]
    · intro r hr
      obtain ⟨c, hc, rfl⟩ := List.mem_map.mp hr
      exact paddedDigits_isDigit c hc
  rw [List.cons_append, List.cons_append] at hrest
  have hdigits := congrArg (List.takeWhile Rune.isDigit) (List.cons.inj hrest).2
  rw [hnumber m tail htail, hnumber n tail' htail'] at hdigits
  have hchars := List.map_injective_iff.mpr (fun _ _ => Rune.char.inj) hdigits
  exact ⟨htime, paddedDigits_injective hchars⟩

end

theorem nameRune_cases {r : Rune} (h : isNameRune r = true) :
    ∃ c, r = .char c ∧ c.toNat < 128 ∧ c ≠ '/' := by
  cases r with
  | invalid b => cases h
  | char c =>
    have hbyte : Rune.isHostByte (.char c) = true := by
      simp only [isNameRune, Bool.or_eq_true, beq_iff_eq, or_assoc] at h
      rcases h with h | rfl | rfl | rfl
      · simp only [Rune.isHostByte, h, Bool.true_or]
      all_goals decide
    refine ⟨c, rfl, ?_, ?_⟩
    · simpa [Rune.isASCII] using (hostByte_plain hbyte).2
    · rintro rfl
      revert h
      decide

theorem toUInt8_inj {c d : Char} (hc : c.toNat < 128) (hd : d.toNat < 128)
    (h : c.toNat.toUInt8 = d.toNat.toUInt8) : c = d := by
  have hvalue := congrArg UInt8.toNat h
  simp only [Nat.toUInt8_eq, UInt8.toNat_ofNat'] at hvalue
  exact Char.toNat_inj.mp (by omega)

theorem nameBytes_injective {s t : Text} (hs : ∀ r ∈ s, isNameRune r = true)
    (ht : ∀ r ∈ t, isNameRune r = true) (h : nameBytes s = nameBytes t) : s = t := by
  induction s generalizing t with
  | nil =>
    cases t with
    | nil => rfl
    | cons r rest => cases h
  | cons r rest ih =>
    cases t with
    | nil => cases h
    | cons q others =>
      obtain ⟨c, rfl, hc, -⟩ := nameRune_cases (hs r List.mem_cons_self)
      obtain ⟨d, rfl, hd, -⟩ := nameRune_cases (ht q List.mem_cons_self)
      obtain ⟨hfirst, hrest⟩ := List.cons.inj h
      rw [toUInt8_inj hc hd hfirst, ih (fun r hr => hs r (List.mem_cons_of_mem _ hr))
        (fun r hr => ht r (List.mem_cons_of_mem _ hr)) hrest]

theorem nameBytes_plain {t : Text} (h : ∀ r ∈ t, isNameRune r = true) (hlength : 2 < t.length) :
    FilePaths.Plain (nameBytes t) := by
  have hbytes : (nameBytes t).length = t.length := by rw [nameBytes, List.length_map]
  refine ⟨?_, ?_, ?_, ?_⟩
  · intro hnil
    rw [hnil, List.length_nil] at hbytes
    omega
  · intro hdot
    rw [hdot, List.length_singleton] at hbytes
    omega
  · intro hdots
    rw [hdots] at hbytes
    simp only [List.length_cons, List.length_nil] at hbytes
    omega
  · intro hslash
    obtain ⟨r, hr, hbyte⟩ := List.mem_map.mp hslash
    obtain ⟨c, rfl, hc, hne⟩ := nameRune_cases (h r hr)
    exact hne (toUInt8_inj hc (by decide) hbyte)

structure ArchivedRequest where
  capturedAt : Text
  reason : Text
  method : Text
  url : Text
  protocol : Text
  remoteAddress : Text
  headers : List (Text × List Text)
  contentLength : ℤ
  deriving DecidableEq

structure ArchivedResponse where
  status : Text
  statusCode : ℕ
  protocol : Text
  headers : List (Text × List Text)
  contentLength : ℤ
  deriving DecidableEq

/-- What a file holds; a write that fails leaves any part of it behind. -/
inductive ArchiveContent where
  | request (metadata : ArchivedRequest)
  | response (metadata : ArchivedResponse)
  | body (bytes : Bytes)
  | torn
  deriving DecidableEq

/-- A request as it is forwarded; the URL also as its text. -/
structure CollectedRequest where
  method : Text
  protocol : Text
  remoteAddr : Text
  headers : List (Text × List Text)
  contentLength : ℤ
  body : Bytes
  target : UpstreamURL
  targetText : Text
  reason : Text

def CollectedRequest.metadata (r : CollectedRequest) (capturedAt : Text) : ArchivedRequest where
  capturedAt := capturedAt
  reason := r.reason
  method := r.method
  url := r.targetText
  protocol := r.protocol
  remoteAddress := r.remoteAddr
  headers := r.headers
  contentLength := r.contentLength

structure UpstreamResponse where
  status : Text
  statusCode : ℕ
  protocol : Text
  headers : List (Text × List Text)
  body : Bytes

def UpstreamResponse.metadata (r : UpstreamResponse) : ArchivedResponse where
  status := r.status
  statusCode := r.statusCode
  protocol := r.protocol
  headers := r.headers
  contentLength := r.body.length

/-- The files of an exchange, in the order in which they are written. -/
def archiveFiles : List Bytes :=
  [bytesOf "request.json", bytesOf "request.body", bytesOf "response.json",
    bytesOf "response.body"]

def collectedRoute : Bytes := bytesOf "collected_route"

/-- The directory of an exchange. -/
def archiveDir (cfg : Config) (t : ArchiveTime) (sequence : ℕ) (r : CollectedRequest) : Path :=
  cfg.fileIn collectedRoute
    (nameBytes (archiveName t sequence r.method (authorityHostname r.target.host) r.target.path))

/-- An exchange that is being kept: how many files are written, and whether a write failed. -/
structure Archive where
  dir : Path
  time : ArchiveTime
  sequence : ℕ
  request : CollectedRequest
  capturedAt : Text
  response : Option UpstreamResponse
  written : ℕ
  broken : Bool

def Archive.content (a : Archive) : ℕ → Option ArchiveContent
  | 0 => some (.request (a.request.metadata a.capturedAt))
  | 1 => some (.body a.request.body)
  | 2 => a.response.map fun r => .response r.metadata
  | 3 => a.response.map fun r => .body r.body
  | _ => none

def Archive.file (a : Archive) (i : ℕ) : Path := a.dir.child (archiveFiles.getD i [])

structure ArchiveWorld where
  sequence : ℕ
  files : Path → Option ArchiveContent
  archives : List Archive

inductive ArchiveEvent where
  | create (time : ArchiveTime) (capturedAt : Text) (request : CollectedRequest) (made : Bool)
  | respond (sequence : ℕ) (response : UpstreamResponse)
  | write (sequence : ℕ) (complete : Bool)

/-- One step of one of the requests that are served. The number is taken from a counter of
sixty-four bits; the response is kept only behind a request that was kept whole. -/
inductive ArchiveStep (cfg : Config) : ArchiveWorld → ArchiveEvent → ArchiveWorld → Prop
  | unmade {w : ArchiveWorld} (t : ArchiveTime) (capturedAt : Text) (r : CollectedRequest) :
      ArchiveStep cfg w (.create t capturedAt r false)
        { w with sequence := (w.sequence + 1) % 2 ^ 64 }
  | made {w : ArchiveWorld} (t : ArchiveTime) (capturedAt : Text) (r : CollectedRequest) :
      ArchiveStep cfg w (.create t capturedAt r true)
        { w with
          sequence := (w.sequence + 1) % 2 ^ 64
          archives := w.archives ++ [⟨archiveDir cfg t ((w.sequence + 1) % 2 ^ 64) r, t,
            (w.sequence + 1) % 2 ^ 64, r, capturedAt, none, 0, false⟩] }
  | respond {n : ℕ} {files : Path → Option ArchiveContent} {front rest : List Archive}
      {a : Archive} (hkept : a.written = 2) (hwhole : a.broken = false)
      (hfirst : a.response = none) (r : UpstreamResponse) :
      ArchiveStep cfg ⟨n, files, front ++ a :: rest⟩ (.respond a.sequence r)
        ⟨n, files, front ++ { a with response := some r } :: rest⟩
  | write {n : ℕ} {files : Path → Option ArchiveContent} {front rest : List Archive} {a : Archive}
      {c : ArchiveContent} (hnext : a.content a.written = some c) (hwhole : a.broken = false) :
      ArchiveStep cfg ⟨n, files, front ++ a :: rest⟩ (.write a.sequence true)
        ⟨n, Function.update files (a.file a.written) (some c),
          front ++ { a with written := a.written + 1 } :: rest⟩
  | tear {n : ℕ} {files : Path → Option ArchiveContent} {front rest : List Archive} {a : Archive}
      {c : ArchiveContent} (hnext : a.content a.written = some c) (hwhole : a.broken = false) :
      ArchiveStep cfg ⟨n, files, front ++ a :: rest⟩ (.write a.sequence false)
        ⟨n, Function.update files (a.file a.written) (some .torn),
          front ++ { a with broken := true } :: rest⟩

section
variable {cfg : Config} {files : Path → Option ArchiveContent} {w w' : ArchiveWorld}
  {log : List ArchiveEvent} {a b : Archive}

/-- The directory is the one that the time, the number and the request of the exchange name. -/
def Archive.Placed (a : Archive) (cfg : Config) : Prop :=
  a.sequence < 2 ^ 64 ∧ a.dir = archiveDir cfg a.time a.sequence a.request

theorem archiveName_length (t : ArchiveTime) {n : ℕ} (hn : n < 2 ^ 64) (method host path : Text) :
    2 < (archiveName t n method host path).length := by
  obtain ⟨tail, hname, -⟩ := @archiveName_mark t n method host path hn
  rw [hname, archiveMark, List.length_append, List.length_append, t.length]
  omega

def Archive.name (a : Archive) : Text :=
  archiveName a.time a.sequence a.request.method (authorityHostname a.request.target.host)
    a.request.target.path

theorem Archive.Placed.dir_eq (h : a.Placed cfg) :
    FilePaths.Plain (nameBytes a.name) ∧
      a.dir = (cfg.directory collectedRoute).child (nameBytes a.name) := by
  have hplain : FilePaths.Plain (nameBytes a.name) :=
    nameBytes_plain (archiveName_plain a.sequence) (archiveName_length a.time h.1 _ _ _)
  exact ⟨hplain, h.2.trans (cfg.fileIn_eq (by decide) hplain)⟩

/-- Exchanges of different numbers have different directories. -/
theorem Archive.Placed.dir_ne (ha : a.Placed cfg) (hb : b.Placed cfg)
    (hab : a.sequence ≠ b.sequence) : a.dir ≠ b.dir := by
  intro hdir
  rw [ha.dir_eq.2, hb.dir_eq.2] at hdir
  have hbytes : nameBytes a.name = nameBytes b.name :=
    (List.cons.inj (congrArg Path.trail hdir)).1
  have hnames := nameBytes_injective (archiveName_plain _) (archiveName_plain _) hbytes
  exact hab (archiveName_injective ha.1 hb.1 hnames).2

theorem file_ne (h : a.dir ≠ b.dir) (i j : ℕ) : a.file i ≠ b.file j := by
  intro hfile
  refine h ?_
  have htrail := (List.cons.inj (congrArg Path.trail hfile)).2
  have hrooted : (a.file i).rooted = (b.file j).rooted := congrArg Path.rooted hfile
  change a.dir.rooted = b.dir.rooted at hrooted
  rcases hda : a.dir with ⟨root, trail⟩
  rcases hdb : b.dir with ⟨root', trail'⟩
  rw [hda, hdb] at htrail hrooted
  exact congrArg₂ FilePaths.Path.mk hrooted htrail

theorem file_injective (a : Archive) {i j : ℕ} (hi : i < 4) (hj : j < 4)
    (h : a.file i = a.file j) : i = j := by
  have hname := (List.cons.inj (congrArg Path.trail h)).1
  have hall : ∀ i < 4, ∀ j < 4, archiveFiles.getD i [] = archiveFiles.getD j [] → i = j := by
    decide +kernel
  exact hall i hi j hj hname

theorem content_lt {i : ℕ} {c : ArchiveContent} (h : a.content i = some c) : i < 4 := by
  unfold Archive.content at h
  split at h
  all_goals first | omega | cases h

/-- What holds after every step: the numbers are counted, the directories are apart, a file that
was written holds what its exchange put there, and nothing else has changed. -/
structure ArchiveWorld.Kept (w : ArchiveWorld) (cfg : Config)
    (files : Path → Option ArchiveContent) : Prop where
  placed : ∀ a ∈ w.archives, a.Placed cfg ∧ a.sequence ≤ w.sequence
  apart : (w.archives.map Archive.sequence).Nodup
  written : ∀ a ∈ w.archives, ∀ i < a.written, w.files (a.file i) = a.content i
  owned : ∀ p, w.files p ≠ files p → ∃ a ∈ w.archives, ∃ i < 4, p = a.file i
  bounded : ∀ a ∈ w.archives, a.written ≤ 4

/-- The archive that a step changed, and the others. -/
theorem mem_replaced {front rest : List Archive} {a' : Archive}
    (hb : b ∈ front ++ a' :: rest) : b = a' ∨ b ∈ front ++ rest := by
  rcases List.mem_append.mp hb with hb | hb
  · exact Or.inr (List.mem_append_left _ hb)
  · rcases List.mem_cons.mp hb with rfl | hb
    · exact Or.inl rfl
    · exact Or.inr (List.mem_append_right _ hb)

theorem mem_others {front rest : List Archive} (hb : b ∈ front ++ rest) :
    b ∈ front ++ a :: rest := by
  rcases List.mem_append.mp hb with hb | hb
  · exact List.mem_append_left _ hb
  · exact List.mem_append_right _ (List.mem_cons_of_mem _ hb)

theorem ArchiveWorld.Kept.others {n : ℕ} {files' : Path → Option ArchiveContent}
    {front rest : List Archive} (hw : ArchiveWorld.Kept ⟨n, files', front ++ a :: rest⟩ cfg files)
    (hb : b ∈ front ++ rest) (i j : ℕ) : b.file i ≠ a.file j := by
  refine file_ne ((hw.placed b (mem_others hb)).1.dir_ne (hw.placed a ?_).1 ?_) i j
  · exact List.mem_append_right _ List.mem_cons_self
  · intro hsame
    have hapart := hw.apart
    rw [List.map_append, List.map_cons] at hapart
    have hnodup := (List.nodup_middle.mp hapart)
    rw [List.nodup_cons, ← List.map_append] at hnodup
    exact hnodup.1 (hsame ▸ List.mem_map_of_mem hb)

/-- An exchange goes on by one file, or by none. -/
theorem ArchiveWorld.Kept.replace {n : ℕ} {files' files'' : Path → Option ArchiveContent}
    {front rest : List Archive} {a' : Archive}
    (hw : ArchiveWorld.Kept ⟨n, files', front ++ a :: rest⟩ cfg files)
    (hdir : a'.dir = a.dir) (htime : a'.time = a.time) (hsequence : a'.sequence = a.sequence)
    (hrequest : a'.request = a.request) (hbound : a'.written ≤ 4)
    (hchanged : ∀ p, files'' p ≠ files' p → ∃ i < 4, p = a.file i)
    (hwritten : ∀ i < a'.written, files'' (a.file i) = a'.content i) :
    ArchiveWorld.Kept ⟨n, files'', front ++ a' :: rest⟩ cfg files := by
  have ha : a ∈ front ++ a :: rest := List.mem_append_right _ List.mem_cons_self
  have ha' : a' ∈ front ++ a' :: rest := List.mem_append_right _ List.mem_cons_self
  have hfile : ∀ i, a'.file i = a.file i := by
    intro i
    rw [Archive.file, Archive.file, hdir]
  refine ⟨?_, ?_, ?_, ?_, ?_⟩
  · intro b hb
    rcases mem_replaced hb with rfl | hb
    · rw [Archive.Placed, hdir, htime, hsequence, hrequest]
      exact hw.placed a ha
    · exact hw.placed b (mem_others hb)
  · have hapart := hw.apart
    simp only [List.map_append, List.map_cons, hsequence] at hapart ⊢
    exact hapart
  · intro b hb i hi
    rcases mem_replaced hb with rfl | hb
    · rw [hfile]
      exact hwritten i hi
    · have hsame : files'' (b.file i) = files' (b.file i) := by
        by_contra hne
        obtain ⟨j, -, hown⟩ := hchanged _ hne
        exact hw.others hb i j hown
      exact hsame.trans (hw.written b (mem_others hb) i hi)
  · intro p hp
    by_cases hstep : files'' p = files' p
    · have hp : files' p ≠ files p := hstep ▸ hp
      obtain ⟨b, hb, i, hi, rfl⟩ := hw.owned p hp
      rcases mem_replaced hb with rfl | hb
      · exact ⟨a', ha', i, hi, (hfile i).symm⟩
      · exact ⟨b, mem_others hb, i, hi, rfl⟩
    · obtain ⟨i, hi, rfl⟩ := hchanged p hstep
      exact ⟨a', ha', i, hi, (hfile i).symm⟩
  · intro b hb
    rcases mem_replaced hb with rfl | hb
    · exact hbound
    · exact hw.bounded b (mem_others hb)

theorem update_changed {files : Path → Option ArchiveContent} {q p : Path}
    {c : Option ArchiveContent} (h : Function.update files q c p ≠ files p) : p = q := by
  by_contra hne
  exact h (Function.update_of_ne hne c files)

theorem ArchiveStep.kept {e : ArchiveEvent} (h : ArchiveStep cfg w e w') (hw : w.Kept cfg files)
    (hroom : w.sequence + 1 < 2 ^ 64) : w'.Kept cfg files ∧ w'.sequence ≤ w.sequence + 1 := by
  have hcount : (w.sequence + 1) % 2 ^ 64 = w.sequence + 1 := Nat.mod_eq_of_lt hroom
  cases h with
  | unmade t capturedAt r =>
    dsimp only
    rw [hcount]
    refine ⟨⟨?_, hw.apart, hw.written, hw.owned, hw.bounded⟩, le_refl _⟩
    intro b hb
    obtain ⟨hplaced, hle⟩ := hw.placed b hb
    exact ⟨hplaced, Nat.le_succ_of_le hle⟩
  | made t capturedAt r =>
    dsimp only
    rw [hcount]
    refine ⟨⟨?_, ?_, ?_, ?_, ?_⟩, le_refl _⟩
    · intro b hb
      rcases List.mem_append.mp hb with hb | hb
      · obtain ⟨hplaced, hle⟩ := hw.placed b hb
        exact ⟨hplaced, Nat.le_succ_of_le hle⟩
      · rw [List.mem_singleton.mp hb]
        exact ⟨⟨hroom, rfl⟩, le_refl _⟩
    · rw [List.map_append, List.nodup_append']
      refine ⟨hw.apart, List.nodup_singleton _, ?_⟩
      rw [List.map_singleton, List.disjoint_singleton]
      intro hold
      obtain ⟨b, hb, hsame⟩ := List.mem_map.mp hold
      have hle := (hw.placed b hb).2
      rw [hsame] at hle
      exact Nat.not_succ_le_self _ hle
    · intro b hb i hi
      rcases List.mem_append.mp hb with hb | hb
      · exact hw.written b hb i hi
      · rw [List.mem_singleton.mp hb] at hi
        exact absurd hi (Nat.not_lt_zero i)
    · intro p hp
      obtain ⟨b, hb, hown⟩ := hw.owned p hp
      exact ⟨b, List.mem_append_left _ hb, hown⟩
    · intro b hb
      rcases List.mem_append.mp hb with hb | hb
      · exact hw.bounded b hb
      · rw [List.mem_singleton.mp hb]
        exact Nat.zero_le 4
  | @respond n files' front rest a hkept hwhole hfirst r =>
    have ha : a ∈ front ++ a :: rest := List.mem_append_right _ List.mem_cons_self
    refine ⟨hw.replace rfl rfl rfl rfl (hw.bounded a ha) (fun p hp => absurd rfl hp) ?_,
      Nat.le_succ n⟩
    intro i hi
    have hi : i < a.written := hi
    refine (hw.written a ha i hi).trans ?_
    rw [hkept] at hi
    rcases Nat.le_one_iff_eq_zero_or_eq_one.mp (Nat.le_of_lt_succ hi) with rfl | rfl
    · rfl
    · rfl
  | @write n files' front rest a c hnext hwhole =>
    have ha : a ∈ front ++ a :: rest := List.mem_append_right _ List.mem_cons_self
    have hlt := content_lt hnext
    refine ⟨hw.replace rfl rfl rfl rfl hlt (fun p hp => ⟨_, hlt, update_changed hp⟩) ?_,
      Nat.le_succ n⟩
    intro i hi
    by_cases hlast : i = a.written
    · rw [hlast, Function.update_self]
      exact hnext.symm
    · have hi : i < a.written := Nat.lt_of_le_of_ne (Nat.le_of_lt_succ hi) hlast
      rw [Function.update_of_ne fun hsame =>
        hlast (file_injective a (lt_trans hi hlt) hlt hsame)]
      exact hw.written a ha i hi
  | @tear n files' front rest a c hnext hwhole =>
    have ha : a ∈ front ++ a :: rest := List.mem_append_right _ List.mem_cons_self
    have hlt := content_lt hnext
    refine ⟨hw.replace rfl rfl rfl rfl (hw.bounded a ha)
      (fun p hp => ⟨_, hlt, update_changed hp⟩) ?_, Nat.le_succ n⟩
    intro i hi
    have hi : i < a.written := hi
    rw [Function.update_of_ne fun hsame =>
      absurd (file_injective a (lt_trans hi hlt) hlt hsame) (Nat.ne_of_lt hi)]
    exact hw.written a ha i hi

theorem ArchiveWorld.kept_of_run (h : Run (ArchiveStep cfg) ⟨0, files, []⟩ log w)
    (hfew : log.length < 2 ^ 64) : w.Kept cfg files ∧ w.sequence ≤ log.length := by
  induction h with
  | refl =>
    exact ⟨⟨nofun, List.nodup_nil, nofun, fun p hp => absurd rfl hp, nofun⟩, le_refl _⟩
  | tail _ hstep ih =>
    rw [List.length_append, List.length_singleton] at hfew ⊢
    obtain ⟨hkept, hsequence⟩ := ih (by omega)
    obtain ⟨hkept', hsequence'⟩ := hstep.kept hkept (by omega)
    exact ⟨hkept', by omega⟩

/-- However the requests come between each other, every exchange has a directory of its own
directly below the directory for all, what is written there is its own request and response, and
no other file is touched. -/
theorem exchanges_are_archived_apart (hrun : Run (ArchiveStep cfg) ⟨0, files, []⟩ log w)
    (hfew : log.length < 2 ^ 64) :
    w.archives.Pairwise (fun a b => a.dir ≠ b.dir) ∧
      (∀ a ∈ w.archives, ∃ dir, FilePaths.Plain dir ∧
        a.dir = (cfg.directory collectedRoute).child dir) ∧
      (∀ a ∈ w.archives, ∀ i < a.written, w.files (a.file i) = a.content i) ∧
      ∀ p, w.files p ≠ files p → ∃ a ∈ w.archives, ∃ dir, ∃ file ∈ archiveFiles,
        FilePaths.Plain dir ∧ a.dir = (cfg.directory collectedRoute).child dir ∧
          p = a.dir.child file := by
  obtain ⟨hkept, -⟩ := ArchiveWorld.kept_of_run hrun hfew
  refine ⟨?_, ?_, hkept.written, ?_⟩
  · refine (List.pairwise_map.mp (List.nodup_iff_pairwise_ne.mp hkept.apart)).imp_of_mem ?_
    intro a b ha hb hne
    exact (hkept.placed a ha).1.dir_ne (hkept.placed b hb).1 hne
  · intro a ha
    exact ⟨_, (hkept.placed a ha).1.dir_eq⟩
  · intro p hp
    obtain ⟨a, ha, i, hi, rfl⟩ := hkept.owned p hp
    obtain ⟨hplain, hdir⟩ := (hkept.placed a ha).1.dir_eq
    refine ⟨a, ha, _, _, ?_, hplain, hdir, rfl⟩
    have hall : ∀ i < 4, archiveFiles.getD i [] ∈ archiveFiles := by decide +kernel
    exact hall i hi

end

def sameTime : ArchiveTime where
  text := textOf "20260801T120000.000000000"
  length := rfl
  plain := by decide
  first := ⟨.char '2', rfl, rfl⟩

def parameterRequest (body : Bytes) : CollectedRequest where
  method := textOf "POST"
  protocol := textOf "HTTP/1.1"
  remoteAddr := textOf "192.0.2.1:40000"
  headers := []
  contentLength := body.length
  body := body
  target := ⟨https, textOf "api.papegames.com", textOf "/v1/parameter", [], []⟩
  targetText := textOf "https://api.papegames.com/v1/parameter"
  reason := textOf "collect_route"

def archiveConfig : Config :=
  ⟨∅, [], Constants.zero, [], Constants.zero, ∅, ⟨true, []⟩⟩

def startedArchive (n : ℕ) (body : Bytes) (written : ℕ) : Archive :=
  ⟨archiveDir archiveConfig sameTime n (parameterRequest body), sameTime, n,
    parameterRequest body, [], none, written, false⟩

theorem same_requests_apart :
    ∃ log w, Run (ArchiveStep archiveConfig) ⟨0, fun _ => none, []⟩ log w ∧
      w.archives = [startedArchive 1 [1] 1, startedArchive 2 [2] 2] ∧
      (startedArchive 1 [1] 1).dir ≠ (startedArchive 2 [2] 2).dir ∧
      w.files ((startedArchive 2 [2] 2).file 1) = some (.body [2]) := by
  have hcreate : Run (ArchiveStep archiveConfig) ⟨0, fun _ => none, []⟩
      [.create sameTime [] (parameterRequest [1]) true,
        .create sameTime [] (parameterRequest [2]) true]
      ⟨2, fun _ => none, [startedArchive 1 [1] 0, startedArchive 2 [2] 0]⟩ :=
    Run.tail (Run.single (.made sameTime [] (parameterRequest [1])))
      (.made sameTime [] (parameterRequest [2]))
  have hsecond := Run.tail hcreate
    (@ArchiveStep.write archiveConfig 2 _ [startedArchive 1 [1] 0] [] (startedArchive 2 [2] 0) _
      rfl rfl)
  have hfirst := Run.tail hsecond
    (@ArchiveStep.write archiveConfig 2 _ [] [startedArchive 2 [2] 1] (startedArchive 1 [1] 0) _
      rfl rfl)
  have hlast := Run.tail hfirst
    (@ArchiveStep.write archiveConfig 2 _ [startedArchive 1 [1] 1] [] (startedArchive 2 [2] 1) _
      rfl rfl)
  obtain ⟨hdirs, -, hfiles, -⟩ := exchanges_are_archived_apart hlast (by decide)
  refine ⟨_, _, hlast, rfl, List.rel_of_pairwise_cons hdirs List.mem_cons_self, ?_⟩
  exact hfiles (startedArchive 2 [2] 2) (List.mem_cons_of_mem _ List.mem_cons_self) 1 (by decide)

end PapeSdk
