import PapeSdk.EventRuns
import PapeSdk.UserCenterFiles
import PapeSdk.Utf8Texts

/-!
The forms of the user center. Every page carries a token that the browser also
keeps as a cookie, and a form is accepted when its field repeats the cookie. The
comparison goes rune by rune over the cookie, which is enough for tokens of
hexadecimal digits. A browser keeps one cookie, so the page shown last is the
only one whose forms are accepted.
-/

namespace PapeSdk

open BlockModes TextCodecs EventRuns Utf8Texts

/-- The bytes that differ where the first text begins a rune, behind `skip` bytes of the last. -/
def differencesFrom : ℕ → Bytes → Bytes → UInt8
  | skip + 1, _ :: a, _ :: b => differencesFrom skip a b
  | 0, x :: a, y :: b =>
    (x ^^^ y) ||| differencesFrom ((runeBytes (runeAt x a)).length - 1) a b
  | _, _, _ => 0

def hmacEqual (a b : Bytes) : Bool :=
  if a.length ≠ b.length then false else differencesFrom 0 a b == 0

/-- The cookie of a request, when it has one, against the field of the form. -/
def validUserCenterCSRF (cookie : Option Bytes) (field : Bytes) : Bool :=
  match cookie with
  | none => false
  | some cookie => if cookie = [] then false else hmacEqual cookie field

/-- In ASCII every byte begins a rune. -/
theorem differencesFrom_ascii {a b : Bytes} (ha : ∀ x ∈ a, x.toNat < 128)
    (hlength : a.length = b.length) : differencesFrom 0 a b = 0 ↔ a = b := by
  induction a generalizing b with
  | nil =>
    rw [List.length_nil] at hlength
    rw [List.length_eq_zero_iff.mp hlength.symm]
    exact iff_of_true rfl rfl
  | cons x a ih =>
    cases b with
    | nil => cases hlength
    | cons y b =>
      rw [List.forall_mem_cons] at ha
      have hrune : runeAt x a = .char (Char.ofNat x.toNat) := by
        rw [runeAt_eq_char_iff, utf8EncodeChar_ascii ha.1]
        exact ⟨a, rfl⟩
      have hone : (runeBytes (runeAt x a)).length - 1 = 0 := by
        rw [hrune, runeBytes, utf8EncodeChar_ascii ha.1]
        rfl
      rw [differencesFrom, hone, UInt8.or_eq_zero_iff, UInt8.xor_eq_zero_iff,
        ih ha.2 (Nat.succ.inj hlength), List.cons.injEq]

theorem hmacEqual_ascii {a b : Bytes} (ha : ∀ x ∈ a, x.toNat < 128) :
    hmacEqual a b = true ↔ a = b := by
  unfold hmacEqual
  by_cases hlength : a.length = b.length
  · rw [if_neg (not_not.mpr hlength), beq_iff_eq, differencesFrom_ascii ha hlength]
  · rw [if_pos hlength]
    exact iff_of_false Bool.false_ne_true fun heq => hlength (congrArg List.length heq)

theorem hexDigit_ascii : ∀ n < 16, (hexDigit n).toNat < 128 := by decide

theorem hexEncode_ascii (data : Bytes) : ∀ x ∈ hexEncode data, x.toNat < 128 := by
  induction data with
  | nil =>
    intro x hx
    cases hx
  | cons b rest ih =>
    have hb : b.toNat < 256 := b.toNat_lt
    rw [hexEncode, List.forall_mem_cons, List.forall_mem_cons]
    exact ⟨hexDigit_ascii _ (by omega), hexDigit_ascii _ (by omega), ih⟩

/-- The random bytes behind the tokens, in the order in which they are drawn. -/
structure TokenSource where
  raw : ℕ → Bytes
  length : ∀ i, (raw i).length = 24

/-- `randomHex(24)`. -/
def TokenSource.token (source : TokenSource) (i : ℕ) : Bytes := hexEncode (source.raw i)

/-- The clock, the cookie with the end of its life, and how many tokens the server has drawn. -/
structure Browser where
  now : ℕ
  cookie : Option (Bytes × ℕ)
  drawn : ℕ

/-- The cookie of a request. -/
def Browser.sends (b : Browser) : Option Bytes :=
  b.cookie.bind fun c => if b.now < c.2 then some c.1 else none

inductive FormEvent where
  | wait (seconds : ℕ)
  | elsewhere
  | shown (token : Bytes) (now : ℕ)
  | posted (field : Bytes) (now : ℕ) (accepted : Bool)

/-- Time passes, the server draws tokens for others, a page is shown, a form is posted. -/
inductive FormStep (site : Site) (source : TokenSource) : Browser → FormEvent → Browser → Prop
  | wait {b : Browser} (seconds : ℕ) :
      FormStep site source b (.wait seconds) { b with now := b.now + seconds }
  | elsewhere {b : Browser} :
      FormStep site source b .elsewhere { b with drawn := b.drawn + 1 }
  | shown {b : Browser} {request : PageRequest} {token html : Bytes}
      (h : request.answer site (source.token b.drawn) = .page token html) :
      FormStep site source b (.shown token b.now)
        { b with cookie := some (token, b.now + 3600), drawn := b.drawn + 1 }
  | posted {b : Browser} (field : Bytes) :
      FormStep site source b (.posted field b.now (validUserCenterCSRF b.sends field)) b

/-- The token of a page and the time at which it was shown. -/
def FormEvent.page : FormEvent → Option (Bytes × ℕ)
  | shown token time => some (token, time)
  | _ => none

/-- The pages of a log in order. -/
def shownPages (log : List FormEvent) : List (Bytes × ℕ) := log.filterMap FormEvent.page

section
variable {site : Site} {source : TokenSource} {b b' : Browser} {e : FormEvent}
  {log : List FormEvent} {token field : Bytes} {time start n : ℕ}

theorem answer_page {request : PageRequest} {html : Bytes} {page : Bytes}
    (h : request.answer site token = .page page html) : page = token := by
  have hserve : ∀ urlPath rel answer, site.serveUserCenterFile token urlPath rel = some answer →
      answer = .page page html → page = token := by
    intro urlPath rel answer hanswer hpage
    simp only [Site.serveUserCenterFile] at hanswer
    split at hanswer
    · cases hanswer
    split at hanswer
    · split at hanswer
      · rw [← Option.some.inj hanswer] at hpage
        exact (PageAnswer.page.inj hpage).1.symm
      · rw [← Option.some.inj hanswer] at hpage
        unfold serveFile at hpage
        split at hpage
        · cases hpage
        · split at hpage
          · cases hpage
          · cases hpage
    · cases hanswer
  have hdefault : ∀ urlPath rel other, (site.serveUserCenterFile token urlPath rel).getD other =
      .page page html → other ≠ .page page html → page = token := by
    intro urlPath rel other hpage hother
    cases hanswer : site.serveUserCenterFile token urlPath rel with
    | none =>
      rw [hanswer] at hpage
      exact absurd hpage hother
    | some answer =>
      rw [hanswer] at hpage
      exact hserve _ _ _ hanswer hpage
  cases request with
  | home => exact hdefault _ _ _ h (by simp)
  | assets filepath => exact hdefault _ _ _ h (by simp)
  | other urlPath => exact hdefault _ _ _ h (by simp)
  | asset filepath =>
    simp only [PageRequest.answer, Site.userCenterAsset] at h
    generalize (if filepath = [] then indexPage else filepath) = rel at h
    split at h
    · cases h
    split at h
    · cases h
    split at h
    · next answer hanswer => exact hserve _ _ _ hanswer h
    · exact hdefault _ _ _ h (by simp)

/-- The cookie is that of the page shown last, and the tokens are drawn one after the other. -/
structure FormsKept (source : TokenSource) (log : List FormEvent) (b : Browser) : Prop where
  cookie : b.cookie = (shownPages log).getLast?.map fun page => (page.1, page.2 + 3600)
  drawn : ∃ order : List ℕ, (shownPages log).map Prod.fst = order.map source.token ∧
    order.Pairwise (· < ·) ∧ ∀ i ∈ order, i < b.drawn

theorem shownPages_concat (log : List FormEvent) (e : FormEvent) :
    shownPages (log ++ [e]) = shownPages log ++ e.page.toList := by
  rw [shownPages, List.filterMap_append, List.filterMap_cons, List.filterMap_nil]
  cases e.page with
  | none => rfl
  | some page => rfl

theorem FormsKept.quiet (h : FormsKept source log b) (he : e.page = none)
    (hcookie : b'.cookie = b.cookie) (hdrawn : b.drawn ≤ b'.drawn) :
    FormsKept source (log ++ [e]) b' := by
  have hsame : shownPages (log ++ [e]) = shownPages log := by
    rw [shownPages_concat, he, Option.toList_none, List.append_nil]
  constructor
  · rw [hsame, hcookie]
    exact h.cookie
  · obtain ⟨order, htokens, hincreasing, hbound⟩ := h.drawn
    rw [hsame]
    exact ⟨order, htokens, hincreasing, fun i hi => Nat.lt_of_lt_of_le (hbound i hi) hdrawn⟩

theorem FormStep.kept (hstep : FormStep site source b e b') (h : FormsKept source log b) :
    FormsKept source (log ++ [e]) b' := by
  cases hstep with
  | wait seconds => exact h.quiet rfl rfl (Nat.le_refl _)
  | elsewhere => exact h.quiet rfl rfl (Nat.le_succ _)
  | posted field => exact h.quiet rfl rfl (Nat.le_refl _)
  | shown hpage =>
    have htoken := answer_page hpage
    subst htoken
    have hpages : shownPages (log ++ [.shown (source.token b.drawn) b.now]) =
        shownPages log ++ [(source.token b.drawn, b.now)] := shownPages_concat _ _
    constructor
    · rw [hpages, List.getLast?_concat]
      rfl
    · obtain ⟨order, htokens, hincreasing, hbound⟩ := h.drawn
      refine ⟨order ++ [b.drawn], ?_, ?_, ?_⟩
      · rw [hpages, List.map_append, htokens, List.map_append]
        rfl
      · refine List.pairwise_append.mpr ⟨hincreasing, List.pairwise_singleton _ _, ?_⟩
        intro i hi j hj
        rw [List.mem_singleton.mp hj]
        exact hbound i hi
      · intro i hi
        rcases List.mem_append.mp hi with hold | hnew
        · exact Nat.lt_succ_of_lt (hbound i hold)
        · rw [List.mem_singleton.mp hnew]
          exact Nat.lt_succ_self _

theorem formsKept_of_run (hrun : Run (FormStep site source) ⟨start, none, n⟩ log b) :
    FormsKept source log b := by
  induction hrun with
  | refl => exact ⟨rfl, [], rfl, List.Pairwise.nil, fun i hi => absurd hi List.not_mem_nil⟩
  | tail _ hstep ih => exact hstep.kept ih

theorem token_ne_nil (source : TokenSource) (i : ℕ) : source.token i ≠ [] := by
  intro hnil
  have hlength := congrArg List.length hnil
  rw [TokenSource.token, length_hexEncode, source.length, List.length_nil] at hlength
  omega

theorem raw_of_token {i j : ℕ} (h : source.token i = source.token j) :
    source.raw i = source.raw j := by
  have hraw := congrArg hexDecode h
  simpa only [TokenSource.token, hexDecode_hexEncode, Except.ok.injEq] using hraw

theorem drawn_mono (hrun : Run (FormStep site source) b log b') : b.drawn ≤ b'.drawn := by
  induction hrun with
  | refl => exact Nat.le_refl _
  | tail _ hstep ih =>
    cases hstep with
    | wait seconds => exact ih
    | elsewhere => exact Nat.le_succ_of_le ih
    | posted field => exact ih
    | shown hpage => exact Nat.le_succ_of_le ih

/-- With a token of the server as its cookie, a request is accepted for that token alone. -/
theorem valid_token_iff (i : ℕ) :
    validUserCenterCSRF (some (source.token i)) field = true ↔ source.token i = field := by
  rw [validUserCenterCSRF, if_neg (token_ne_nil source i)]
  exact hmacEqual_ascii (hexEncode_ascii _)

theorem FormsKept.accepts_iff (h : FormsKept source log b) :
    validUserCenterCSRF b.sends field = true ↔
      ∃ time, (shownPages log).getLast? = some (field, time) ∧ b.now < time + 3600 := by
  rw [Browser.sends, h.cookie]
  cases hlast : (shownPages log).getLast? with
  | none =>
    refine iff_of_false Bool.false_ne_true ?_
    rintro ⟨time, hsome, -⟩
    cases hsome
  | some page =>
    obtain ⟨token, time⟩ := page
    obtain ⟨order, htokens, -⟩ := h.drawn
    have hmem : token ∈ order.map source.token := by
      rw [← htokens]
      exact List.mem_map.mpr ⟨_, List.mem_of_getLast? hlast, rfl⟩
    obtain ⟨i, -, rfl⟩ := List.mem_map.mp hmem
    rw [Option.map_some, Option.bind_some]
    by_cases hlive : b.now < time + 3600
    · rw [if_pos hlive, valid_token_iff]
      constructor
      · rintro rfl
        exact ⟨time, rfl, hlive⟩
      · rintro ⟨time', hsame, -⟩
        exact congrArg Prod.fst (Option.some.inj hsame)
    · rw [if_neg hlive]
      refine iff_of_false Bool.false_ne_true ?_
      rintro ⟨time', hsame, hlive'⟩
      rw [← (Prod.mk.inj (Option.some.inj hsame)).2] at hlive'
      exact hlive hlive'

/-- The server has drawn no random bytes twice. -/
def TokenSource.Distinct (source : TokenSource) (drawn : ℕ) : Prop :=
  ∀ i < drawn, ∀ j < drawn, source.raw i = source.raw j → i = j

theorem FormsKept.tokens_nodup (h : FormsKept source log b) (hfresh : source.Distinct b.drawn) :
    ((shownPages log).map Prod.fst).Nodup := by
  obtain ⟨order, htokens, hincreasing, hbound⟩ := h.drawn
  rw [htokens, List.Nodup, List.pairwise_map]
  refine hincreasing.imp_of_mem ?_
  intro i j hi hj hlt hsame
  exact absurd (hfresh i (hbound i hi) j (hbound j hj) (raw_of_token hsame)) (Nat.ne_of_lt hlt)

/-- A form is accepted exactly when it carries the token of the page that the browser was shown
last, within an hour. While no token repeats, the form of any earlier page is refused. -/
theorem only_last_page_posts {before after : List FormEvent} {now : ℕ} {accepted : Bool}
    (hrun : Run (FormStep site source) ⟨start, none, n⟩
      (before ++ .posted field now accepted :: after) b) :
    (accepted = true ↔
      ∃ time, (shownPages before).getLast? = some (field, time) ∧ now < time + 3600) ∧
    (source.Distinct b.drawn → field ∈ ((shownPages before).dropLast).map Prod.fst →
      accepted = false) := by
  obtain ⟨s, hbefore, hrest⟩ := Run.of_append hrun
  obtain ⟨t, hpost, hafter⟩ := Run.of_cons hrest
  cases hpost
  have hkept := formsKept_of_run hbefore
  refine ⟨hkept.accepts_iff, fun hfresh hearlier => ?_⟩
  have hdistinct : source.Distinct s.drawn := by
    intro i hi j hj
    have hle := drawn_mono hafter
    exact hfresh i (by omega) j (by omega)
  by_contra haccepted
  obtain ⟨time, hlast, -⟩ := hkept.accepts_iff.mp (Bool.eq_true_of_not_eq_false haccepted)
  have hnodup := hkept.tokens_nodup hdistinct
  rw [← List.dropLast_append_getLast? _ hlast, List.map_append] at hnodup
  exact (List.nodup_append.mp hnodup).2.2 field hearlier field (by simp) rfl

end

def pagedSite : Site where
  cfg := ⟨∅, [], Constants.zero, [], Constants.zero, ∅, ⟨true, [bytesOf "srv"]⟩⟩
  cwd := ⟨true, []⟩
  entry path := if path.trail.head? = some indexPage then some (.file csrfMark) else none

def countedSource : TokenSource where
  raw i := List.replicate 24 (UInt8.ofNat i)
  length _ := List.length_replicate

theorem earlier_page_refused :
    ∃ (accepted : Bool) (b : Browser), Run (FormStep pagedSite countedSource) ⟨0, none, 0⟩
      [.shown (countedSource.token 0) 0, .wait 5, .shown (countedSource.token 1) 5,
        .posted (countedSource.token 0) 5 accepted] b ∧ accepted = false := by
  have hfirst : PageRequest.home.answer pagedSite (countedSource.token 0) =
      .page (countedSource.token 0) (countedSource.token 0) := by decide +kernel
  have hsecond : PageRequest.home.answer pagedSite (countedSource.token 1) =
      .page (countedSource.token 1) (countedSource.token 1) := by decide +kernel
  have hrun : Run (FormStep pagedSite countedSource) ⟨0, none, 0⟩
      ([.shown (countedSource.token 0) 0, .wait 5, .shown (countedSource.token 1) 5] ++
        [.posted (countedSource.token 0) 5 (validUserCenterCSRF
          (some (countedSource.token 1)) (countedSource.token 0))])
      ⟨5, some (countedSource.token 1, 3605), 2⟩ :=
    Run.tail (Run.tail (Run.tail (Run.single (.shown hfirst)) (.wait 5)) (.shown hsecond))
      (.posted (countedSource.token 0))
  refine ⟨_, _, hrun, (only_last_page_posts hrun).2 ?_ ?_⟩
  · unfold TokenSource.Distinct
    decide
  · decide +kernel

/-- The pairs of `htmlEscape`, each reference with the byte that it stands for. -/
def references : List (Bytes × UInt8) :=
  [(bytesOf "&amp;", 38), (bytesOf "&lt;", 60), (bytesOf "&gt;", 62), (bytesOf "&quot;", 34),
    (bytesOf "&#39;", 39)]

def escapedByte (b : UInt8) : Bytes :=
  match references.find? fun r => r.2 == b with
  | some r => r.1
  | none => [b]

def htmlEscape (s : Bytes) : Bytes := s.flatMap escapedByte

inductive ResultAnswer where
  | json (status : ℕ) (error : Option Bytes)
  | page (status : ℕ) (html : Bytes)

def failureFront : Bytes := bytesOf "<!doctype html><meta charset=\"utf-8\"><p>失败："

def resultBack : Bytes := bytesOf "</p><p><a href=\"/usercenter\">返回用户中心</a></p>"

/-- `userCenterResult`; a script asks for JSON by one of two headers. -/
def userCenterResult (scripted : Bool) (err : Option Bytes) : ResultAnswer :=
  if scripted then
    match err with
    | some text => .json 400 (some text)
    | none => .json 200 none
  else
    match err with
    | some text => .page 400 (failureFront ++ htmlEscape text ++ resultBack)
    | none => .page 200
        (bytesOf "<!doctype html><meta charset=\"utf-8\"><p>操作成功" ++ resultBack)

/-- What a browser reads behind `skip` more bytes of a reference, unless it meets markup. -/
def readText : ℕ → Bytes → Option Bytes
  | _, [] => some []
  | skip + 1, _ :: rest => readText skip rest
  | 0, b :: rest =>
    if b = 60 ∨ b = 62 ∨ b = 34 ∨ b = 39 then none
    else if b = 38 then
      match references.find? fun r => r.1.isPrefixOf (b :: rest) with
      | none => none
      | some r => (readText (r.1.length - 1) rest).map (r.2 :: ·)
    else (readText 0 rest).map (b :: ·)

theorem readText_reference {r : Bytes × UInt8} (hr : r ∈ references) (rest : Bytes) :
    readText 0 (r.1 ++ rest) = (readText 0 rest).map (r.2 :: ·) := by
  simp only [references, List.mem_cons, List.not_mem_nil, or_false] at hr
  rcases hr with rfl | rfl | rfl | rfl | rfl
  · rfl
  · rfl
  · rfl
  · rfl
  · rfl

theorem readText_htmlEscape (s : Bytes) : readText 0 (htmlEscape s) = some s := by
  induction s with
  | nil => rfl
  | cons b rest ih =>
    rw [htmlEscape, List.flatMap_cons]
    change readText 0 (escapedByte b ++ htmlEscape rest) = _
    cases hfind : references.find? fun r => r.2 == b with
    | some r =>
      have hescaped : escapedByte b = r.1 := by
        rw [escapedByte, hfind]
      have hbyte : r.2 = b := by simpa using List.find?_some hfind
      rw [hescaped, readText_reference (List.mem_of_find?_eq_some hfind), ih, hbyte]
      rfl
    | none =>
      have hescaped : escapedByte b = [b] := by
        rw [escapedByte, hfind]
      have hnone := List.find?_eq_none.mp hfind
      have hother : b ≠ 38 ∧ ¬ (b = 60 ∨ b = 62 ∨ b = 34 ∨ b = 39) := by
        simp only [references, List.forall_mem_cons, beq_iff_eq] at hnone
        obtain ⟨hamp, hlt, hgt, hquot, hapos, -⟩ := hnone
        refine ⟨Ne.symm hamp, ?_⟩
        rintro (rfl | rfl | rfl | rfl)
        · exact hlt rfl
        · exact hgt rfl
        · exact hquot rfl
        · exact hapos rfl
      rw [hescaped, List.singleton_append, readText, if_neg hother.2, if_neg hother.1, ih]
      rfl

/-- A page that reports an error shows the whole text of the error and no markup in it. -/
theorem failure_page_shows_error (err : Bytes) :
    ∃ shown, userCenterResult false (some err) = .page 400 (failureFront ++ shown ++ resultBack) ∧
      readText 0 shown = some err :=
  ⟨htmlEscape err, rfl, readText_htmlEscape err⟩

end PapeSdk
