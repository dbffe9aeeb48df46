import PapeSdk.AdminAccounts
import PapeSdk.DecimalIntegers

/-!
Reports that players send about other players: `internal/app/reports.go` takes
them in, `internal/store/reports.go` keeps them, and the administrator reads
them in pages. Nothing removes a report. A listing is ordered by the time of
arrival; the reports of one second follow their ids.
-/

namespace PapeSdk

open EventRuns LetterCase DecimalIntegers Listings

structure UserReport where
  id : ℕ
  requestID : String
  createdAt : ℕ
  eventTimestamp : ℤ
  host : String
  observedIP : String
  clientIP : String
  clientID : ℤ
  zoneID : ℤ
  region : ℤ
  platform : ℤ
  source : ℤ
  submitterRoleID : ℤ
  submitterRoleName : String
  violationRoleID : ℤ
  violationRoleName : String
  reasonID : ℤ
  content : String
  deriving DecidableEq, Repr

/-- The table `user_reports`, with the last id it has given out. -/
structure ReportTable where
  rows : List UserReport
  sequence : ℕ
  deriving DecidableEq

def ReportTable.empty : ReportTable := ⟨[], 0⟩

/-- Inserts a report; the identifier of its request is unique. -/
def createUserReport (t : ReportTable) (now : ℕ) (report : UserReport) :
    ReportTable × Except String UserReport :=
  let report := if report.createdAt = 0 then { report with createdAt := now } else report
  if t.rows.any (·.requestID == report.requestID) then
    (t, .error "UNIQUE constraint failed: user_reports.request_id")
  else
    let report := { report with id := t.sequence + 1 }
    (⟨t.rows ++ [report], t.sequence + 1⟩, .ok report)

def UserReport.isFound (query : String) (r : UserReport) : Bool :=
  let pattern := beforeNul ("%" ++ query ++ "%")
  query == "" || like pattern (beforeNul r.submitterRoleName) ||
    like pattern (beforeNul r.violationRoleName) || like pattern (beforeNul r.content) ||
    like pattern (beforeNul (toString r.submitterRoleID)) ||
    like pattern (beforeNul (toString r.violationRoleID)) ||
    like pattern (beforeNul (toString r.reasonID)) || like pattern (beforeNul r.requestID)

/-- `order by created_at desc, id desc`. -/
def UserReport.NotBefore (a b : UserReport) : Prop :=
  b.createdAt < a.createdAt ∨ b.createdAt = a.createdAt ∧ b.id ≤ a.id

instance (a b : UserReport) : Decidable (a.NotBefore b) :=
  inferInstanceAs (Decidable (_ ∨ _))

def latest (reports : List UserReport) : List UserReport :=
  reports.insertionSort UserReport.NotBefore

/-- A page of the reports that are found, and the number of all of them. -/
def adminUserReports (t : ReportTable) (query : String) (limit offset : ℤ) :
    Except String (List UserReport × ℕ) :=
  let limit := if limit ≤ 0 ∨ 200 < limit then 100 else limit
  let offset := if offset < 0 then 0 else offset
  let query := trimSpace query
  if query ≠ "" ∧ t.rows ≠ [] ∧ maxLikePattern < ("%" ++ query ++ "%").utf8ByteSize then
    .error "LIKE or GLOB pattern too complex"
  else
    let found := t.rows.filter (UserReport.isFound query)
    .ok (((latest found).drop offset.toNat).take limit.toNat, found.length)

/-- What `uuid.NewString` returns. -/
structure RequestID where
  text : String
  digits : ∀ c ∈ text.toList, c ∈ "0123456789abcdef-".toList
  length : text.length = 36

structure ReportRequest where
  host : String
  observedIP : String
  postForm : String → String

inductive ReportReply where
  | recorded (requestID : String)
  | failed (requestID : String)
  deriving DecidableEq

def reportFormInt64 (form : String → String) (key : String) : ℤ :=
  (parseInt (trimSpace (form key))).1

def clippedReportText (value : String) (maxRunes : ℕ) : String :=
  let value := trimSpace value
  if value.length ≤ maxRunes then value else String.ofList (value.toList.take maxRunes)

def ReportRequest.report (request : ReportRequest) (requestID : String) : UserReport where
  id := 0
  requestID := requestID
  createdAt := 0
  eventTimestamp := reportFormInt64 request.postForm "timestamp"
  host := clippedReportText request.host 255
  observedIP := clippedReportText request.observedIP 64
  clientIP := clippedReportText (request.postForm "client_ip") 64
  clientID := reportFormInt64 request.postForm "clientid"
  zoneID := reportFormInt64 request.postForm "zoneid"
  region := reportFormInt64 request.postForm "region"
  platform := reportFormInt64 request.postForm "platform"
  source := reportFormInt64 request.postForm "source"
  submitterRoleID := reportFormInt64 request.postForm "submitter_role_id"
  submitterRoleName := clippedReportText (request.postForm "submitter_role_name") 255
  violationRoleID := reportFormInt64 request.postForm "violation_role_id"
  violationRoleName := clippedReportText (request.postForm "violation_role_name") 255
  reasonID := reportFormInt64 request.postForm "reason_id"
  content := clippedReportText (request.postForm "content") 4000

def addUserReport (t : ReportTable) (now : ℕ) (requestID : RequestID) (request : ReportRequest) :
    ReportTable × ReportReply :=
  match createUserReport t now (request.report requestID.text) with
  | (t, .error _) => (t, .failed requestID.text)
  | (t, .ok _) => (t, .recorded requestID.text)

/-- `strconv.Atoi` with the error ignored, on a query parameter with a default. -/
def defaultQuery (value : Option String) (default' : String) : ℤ :=
  (parseInt (value.getD default')).1

/-- The page of an administrator, with the limit and the offset that were asked for. -/
def listAdminReports (t : ReportTable) (query : String) (limit offset : Option String) :
    Except String (List UserReport × ℕ × ℤ × ℤ) :=
  let limit := defaultQuery limit "100"
  let offset := defaultQuery offset "0"
  match adminUserReports t query limit offset with
  | .error e => .error e
  | .ok (reports, total) => .ok (reports, total, limit, offset)

/-- One request, the clock and the identifier it was given, and the reply. -/
structure ReportEvent where
  now : ℕ
  requestID : RequestID
  request : ReportRequest
  reply : ReportReply

def ReportStep (t : ReportTable) (e : ReportEvent) (t' : ReportTable) : Prop :=
  addUserReport t e.now e.requestID e.request = (t', e.reply)

abbrev ReportRun := Run ReportStep

def ReportEvent.recorded (e : ReportEvent) : Bool :=
  e.reply == .recorded e.requestID.text

def UserReport.stamped (report : UserReport) (now id : ℕ) : UserReport :=
  { report with createdAt := now, id := id }

/-- The row of a recorded request. -/
def ReportEvent.row (e : ReportEvent) (id : ℕ) : UserReport :=
  (e.request.report e.requestID.text).stamped e.now id

/-- The rows that the requests of a history leave behind. -/
def storedReports (log : List ReportEvent) : List UserReport :=
  (log.filter ReportEvent.recorded).mapIdx fun i e => e.row (i + 1)

section
variable {t t' : ReportTable} {e : ReportEvent} {log : List ReportEvent} {query : String} {n : ℕ}

theorem createUserReport_cases {now : ℕ} {report : UserReport} {r : Except String UserReport}
    (hfresh : report.createdAt = 0) (h : createUserReport t now report = (t', r)) :
    (t' = t ∧ (∃ e, r = .error e) ∧ ∃ old ∈ t.rows, old.requestID = report.requestID) ∨
    (t' = ⟨t.rows ++ [report.stamped now (t.sequence + 1)], t.sequence + 1⟩ ∧
      (∃ stored, r = .ok stored) ∧ ∀ old ∈ t.rows, old.requestID ≠ report.requestID) := by
  unfold createUserReport at h
  simp only [if_pos hfresh] at h
  by_cases hused : t.rows.any (fun old => old.requestID == report.requestID) = true
  · rw [if_pos hused] at h
    obtain ⟨rfl, rfl⟩ := Prod.mk.inj h
    exact Or.inl ⟨rfl, ⟨_, rfl⟩, by simpa using hused⟩
  · rw [if_neg hused] at h
    obtain ⟨rfl, rfl⟩ := Prod.mk.inj h
    exact Or.inr ⟨rfl, ⟨_, rfl⟩, by simpa using hused⟩

theorem addUserReport_cases (h : ReportStep t e t') :
    (t' = t ∧ e.reply = .failed e.requestID.text ∧
      ∃ r ∈ t.rows, r.requestID = e.requestID.text) ∨
    (t' = ⟨t.rows ++ [e.row (t.sequence + 1)], t.sequence + 1⟩ ∧
      e.reply = .recorded e.requestID.text ∧ ∀ r ∈ t.rows, r.requestID ≠ e.requestID.text) := by
  rw [ReportStep, addUserReport] at h
  rcases hcreate : createUserReport t e.now (e.request.report e.requestID.text) with ⟨v, r⟩
  rw [hcreate] at h
  rcases createUserReport_cases rfl hcreate with ⟨rfl, ⟨_, rfl⟩, hused⟩ | ⟨rfl, ⟨_, rfl⟩, hfree⟩
  · obtain ⟨rfl, hreply⟩ := Prod.mk.inj h
    exact Or.inl ⟨rfl, hreply.symm, hused⟩
  · obtain ⟨rfl, hreply⟩ := Prod.mk.inj h
    exact Or.inr ⟨rfl, hreply.symm, hfree⟩

theorem storedReports_concat_recorded (h : e.recorded = true) :
    storedReports (log ++ [e]) =
      storedReports log ++ [e.row ((storedReports log).length + 1)] := by
  rw [storedReports, List.filter_append, List.filter_cons_of_pos h, List.filter_nil,
    List.mapIdx_append, storedReports, List.length_mapIdx]
  simp

theorem storedReports_concat_failed (h : e.recorded = false) :
    storedReports (log ++ [e]) = storedReports log := by
  rw [storedReports, List.filter_append, List.filter_cons_of_neg (by simp [h]), List.filter_nil,
    List.append_nil, storedReports]

/-- The table is the history of the requests that were recorded. -/
theorem ReportRun.rows (h : ReportRun .empty log t) :
    t.rows = storedReports log ∧ t.sequence = (storedReports log).length := by
  induction h with
  | refl => exact ⟨rfl, rfl⟩
  | tail _ hstep ih =>
    obtain ⟨hrows, hsequence⟩ := ih
    rcases addUserReport_cases hstep with ⟨rfl, hreply, -⟩ | ⟨rfl, hreply, -⟩
    · rw [storedReports_concat_failed (by simp [ReportEvent.recorded, hreply])]
      exact ⟨hrows, hsequence⟩
    · rw [storedReports_concat_recorded (by simp [ReportEvent.recorded, hreply])]
      exact ⟨by rw [hrows, hsequence], by rw [hsequence, List.length_append]; rfl⟩

theorem storedReports_ids (log : List ReportEvent) :
    (storedReports log).Pairwise (fun a b => a.id < b.id) ∧
      ∀ r ∈ storedReports log, r.id ≤ (storedReports log).length := by
  induction log using List.reverseRecOn with
  | nil => exact ⟨List.Pairwise.nil, by simp [storedReports]⟩
  | append_singleton log e ih =>
    cases hrecorded : e.recorded with
    | false =>
      rw [storedReports_concat_failed hrecorded]
      exact ih
    | true =>
      rw [storedReports_concat_recorded hrecorded]
      obtain ⟨hsorted, hbound⟩ := ih
      constructor
      · rw [List.pairwise_append]
        refine ⟨hsorted, List.pairwise_singleton _ _, ?_⟩
        intro a ha b hb
        rw [List.mem_singleton.mp hb]
        exact Nat.lt_succ_of_le (hbound a ha)
      · intro r hr
        rw [List.length_append, List.length_singleton]
        rcases List.mem_append.mp hr with hr | hr
        · exact Nat.le_succ_of_le (hbound r hr)
        · rw [List.mem_singleton.mp hr]
          exact le_refl _

theorem storedReports_times (log : List ReportEvent) :
    (storedReports log).map UserReport.createdAt =
      (log.filter ReportEvent.recorded).map ReportEvent.now := by
  refine List.ext_getElem? ?_
  intro i
  rw [List.getElem?_map, storedReports, List.getElem?_mapIdx, Option.map_map, List.getElem?_map]
  rfl

theorem latest_sorted (reports : List UserReport) :
    (latest reports).Pairwise UserReport.NotBefore := by
  have htotal : Std.Total UserReport.NotBefore := by
    refine ⟨fun a b => ?_⟩
    unfold UserReport.NotBefore
    omega
  have htrans : IsTrans UserReport UserReport.NotBefore := by
    refine ⟨fun a b c hab hbc => ?_⟩
    unfold UserReport.NotBefore at hab hbc ⊢
    omega
  exact List.pairwise_insertionSort _ reports

theorem mem_latest {reports : List UserReport} {r : UserReport} :
    r ∈ latest reports ↔ r ∈ reports :=
  List.mem_insertionSort _

/-- Reports of different ids that come in order of arrival are listed the other way round. -/
theorem latest_eq_reverse {reports : List UserReport}
    (hids : reports.Pairwise fun a b => a.id < b.id)
    (htimes : reports.Pairwise fun a b => a.createdAt ≤ b.createdAt) :
    latest reports = reports.reverse := by
  refine List.Perm.eq_of_pairwise ?_ (latest_sorted reports) ?_
    ((List.perm_insertionSort _ reports).trans (List.reverse_perm reports).symm)
  · intro a b ha hb hab hba
    have hid : a.id = b.id := by
      unfold UserReport.NotBefore at hab hba
      omega
    have hinj := List.inj_on_of_nodup_map
      ((List.nodup_iff_pairwise_ne.mpr ((List.pairwise_map.mpr hids).imp Nat.ne_of_lt)))
    exact hinj (mem_latest.mp ha) (List.mem_reverse.mp hb) hid
  · rw [List.pairwise_reverse]
    refine (hids.and htimes).imp ?_
    rintro a b ⟨hid, htime⟩
    unfold UserReport.NotBefore
    omega

theorem adminUserReports_page {i total : ℕ} {reports : List UserReport} (hn : 0 < n)
    (hmax : n ≤ 200) (h : adminUserReports t query n ((i * n : ℕ) : ℤ) = .ok (reports, total)) :
    reports = page n i (latest (t.rows.filter (UserReport.isFound (trimSpace query)))) ∧
      total = (t.rows.filter (UserReport.isFound (trimSpace query))).length := by
  unfold adminUserReports at h
  simp only at h
  split at h
  · cases h
  · rw [if_neg (by omega), if_neg (by omega), Int.toNat_natCast, Int.toNat_natCast] at h
    obtain ⟨hpage, htotal⟩ := Prod.mk.inj (Except.ok.inj h)
    exact ⟨hpage.symm, htotal.symm⟩

/-- The pages of a search, read until one is not full, hold every recorded report it finds once,
the latest first, and each page tells how many there are. While the clock is never set back,
that is the order of arrival turned round. -/
theorem reports_listed_latest_first {k : ℕ} {pages : ℕ → List UserReport × ℕ} (hn : 0 < n)
    (hmax : n ≤ 200) (hrun : ReportRun .empty log t)
    (hpages : ∀ i ≤ k, adminUserReports t query n ((i * n : ℕ) : ℤ) = .ok (pages i))
    (hlast : (pages k).1.length < n) :
    let all := (List.range (k + 1)).flatMap fun i => (pages i).1
    let found := (storedReports log).filter (UserReport.isFound (trimSpace query))
    all.Perm found ∧
      all.Pairwise (fun a b =>
        b.createdAt < a.createdAt ∨ b.createdAt = a.createdAt ∧ b.id < a.id) ∧
      (∀ i ≤ k, (pages i).2 = all.length) ∧
      ((log.map ReportEvent.now).Pairwise (· ≤ ·) → all = found.reverse) := by
  have hrows : t.rows = storedReports log := hrun.rows.1
  have hids : ((storedReports log).filter
      (UserReport.isFound (trimSpace query))).Pairwise fun a b => a.id < b.id :=
    (storedReports_ids log).1.filter _
  have hpage : ∀ i ≤ k, (pages i).1 =
      page n i (latest ((storedReports log).filter (UserReport.isFound (trimSpace query)))) ∧
      (pages i).2 = ((storedReports log).filter (UserReport.isFound (trimSpace query))).length := by
    intro i hi
    have h := adminUserReports_page hn hmax (hpages i hi)
    rw [hrows] at h
    exact h
  intro all found
  have hall : all = latest found := pages_exhaust (fun i hi => (hpage i hi).1) hlast
  have hperm : (latest found).Perm found := List.perm_insertionSort _ found
  rw [hall]
  refine ⟨hperm, ?_, ?_, ?_⟩
  · have hnodup : (latest found).Pairwise fun a b => a.id ≠ b.id := by
      rw [← List.pairwise_map, ← List.nodup_iff_pairwise_ne, (hperm.map _).nodup_iff]
      exact List.nodup_iff_pairwise_ne.mpr ((List.pairwise_map.mpr hids).imp Nat.ne_of_lt)
    refine ((latest_sorted found).and hnodup).imp ?_
    rintro a b ⟨hsorted, hne⟩
    unfold UserReport.NotBefore at hsorted
    omega
  · intro i hi
    rw [(hpage i hi).2, hperm.length_eq]
  · intro hclock
    refine latest_eq_reverse hids (List.Pairwise.filter _ ?_)
    rw [← List.pairwise_map, storedReports_times]
    exact hclock.sublist (List.filter_sublist.map _)

/-- The texts of a report with the widths of their columns. -/
def UserReport.texts (r : UserReport) : List (String × ℕ) :=
  [(r.requestID, 64), (r.host, 255), (r.observedIP, 64), (r.clientIP, 64),
    (r.submitterRoleName, 255), (r.violationRoleName, 255), (r.content, 4000)]

def UserReport.numbers (r : UserReport) : List ℤ :=
  [r.eventTimestamp, r.clientID, r.zoneID, r.region, r.platform, r.source, r.submitterRoleID,
    r.violationRoleID, r.reasonID]

def UserReport.FitsColumns (r : UserReport) : Prop :=
  (∀ entry ∈ r.texts, entry.1.length ≤ entry.2) ∧ ∀ v ∈ r.numbers, -2 ^ 63 ≤ v ∧ v < 2 ^ 63

theorem length_clippedReportText (value : String) (maxRunes : ℕ) :
    (clippedReportText value maxRunes).length ≤ maxRunes := by
  unfold clippedReportText
  dsimp only
  split
  · assumption
  · rw [String.length_ofList, List.length_take]
    exact Nat.min_le_left _ _

theorem texts_row (e : ReportEvent) (id : ℕ) :
    (e.row id).texts = (e.requestID.text, 64) ::
      [(e.request.host, 255), (e.request.observedIP, 64), (e.request.postForm "client_ip", 64),
        (e.request.postForm "submitter_role_name", 255),
        (e.request.postForm "violation_role_name", 255),
        (e.request.postForm "content", 4000)].map
          fun entry => (clippedReportText entry.1 entry.2, entry.2) := by
  simp only [UserReport.texts, ReportEvent.row, UserReport.stamped, ReportRequest.report,
    List.map_cons, List.map_nil]

theorem numbers_row (e : ReportEvent) (id : ℕ) :
    (e.row id).numbers = ["timestamp", "clientid", "zoneid", "region", "platform", "source",
      "submitter_role_id", "violation_role_id", "reason_id"].map
        (reportFormInt64 e.request.postForm) := by
  simp only [UserReport.numbers, ReportEvent.row, UserReport.stamped, ReportRequest.report,
    List.map_cons, List.map_nil]

theorem row_fitsColumns (e : ReportEvent) (id : ℕ) : (e.row id).FitsColumns := by
  rw [UserReport.FitsColumns, texts_row, numbers_row, List.forall_mem_cons, List.forall_mem_map,
    List.forall_mem_map]
  refine ⟨⟨?_, ?_⟩, ?_⟩
  · simp [e.requestID.length]
  · intro given _
    dsimp only
    exact length_clippedReportText given.1 given.2
  · intro key _
    rw [reportFormInt64]
    exact parseInt_range (trimSpace (e.request.postForm key))

theorem utf8ByteSize_le (l : List Char) : (String.ofList l).utf8ByteSize ≤ 4 * l.length := by
  induction l with
  | nil => decide
  | cons c l ih =>
    rw [String.ofList_cons, String.utf8ByteSize_append, String.utf8ByteSize_singleton,
      List.length_cons]
    have := c.utf8Size_le_four
    omega

theorem RequestID.plain (id : RequestID) :
    Literal id.text.toList ∧ '\x00' ∉ id.text.toList ∧ trimSpace id.text = id.text := by
  have hall : ∀ c ∈ "0123456789abcdef-".toList,
      c ≠ '%' ∧ c ≠ '_' ∧ c ≠ '\x00' ∧ isSpace c = false := by simp [isSpace]
  refine ⟨?_, ?_, trimSpace_of_trimmed ⟨?_, ?_⟩⟩
  · intro c hc
    obtain ⟨hpercent, hunderscore, -⟩ := hall c (id.digits c hc)
    exact ⟨hpercent, hunderscore⟩
  · intro hnul
    exact (hall _ (id.digits _ hnul)).2.2.1 rfl
  · intro c hc
    exact (hall c (id.digits c (List.mem_of_mem_head? hc))).2.2.2
  · intro c hc
    exact (hall c (id.digits c (List.mem_of_getLast? hc))).2.2.2

/-- A report is found by the identifier of its request. -/
theorem isFound_requestID {r : UserReport} {id : RequestID} (h : r.requestID = id.text) :
    r.isFound id.text = true := by
  obtain ⟨hliteral, hnul, -⟩ := id.plain
  have hself : beforeNul id.text = id.text.toList := by
    rw [beforeNul, List.takeWhile_eq_self_iff]
    intro c hc
    simp only [bne_iff_ne]
    rintro rfl
    exact hnul hc
  have hlike : like (beforeNul ("%" ++ id.text ++ "%")) (beforeNul r.requestID) = true := by
    rw [beforeNul_pattern hnul, h, hself]
    exact (like_contains hliteral).mpr (List.infix_refl _)
  simp only [UserReport.isFound, hlike, Bool.or_true]

theorem storedReports_requestIDs (log : List ReportEvent) :
    (storedReports log).map UserReport.requestID =
      (log.filter ReportEvent.recorded).map fun e => e.requestID.text := by
  refine List.ext_getElem? ?_
  intro i
  rw [List.getElem?_map, storedReports, List.getElem?_mapIdx, Option.map_map, List.getElem?_map]
  rfl

/-- One request leaves one report. -/
theorem ReportRun.requestIDs_nodup (h : ReportRun .empty log t) :
    (t.rows.map UserReport.requestID).Nodup := by
  induction h with
  | refl => exact List.nodup_nil
  | tail _ hstep ih =>
    rcases addUserReport_cases hstep with ⟨rfl, -, -⟩ | ⟨rfl, -, hfree⟩
    · exact ih
    · rw [List.map_append, List.nodup_append']
      refine ⟨ih, List.nodup_singleton _, ?_⟩
      rw [List.map_singleton, List.disjoint_singleton]
      intro hused
      obtain ⟨r, hr, hid⟩ := List.mem_map.mp hused
      exact hfree r hr hid

theorem ReportRun.rows_prefix (h : ReportRun t log t') : t.rows <+: t'.rows := by
  induction h with
  | refl => exact List.prefix_refl _
  | tail _ hstep ih =>
    rcases addUserReport_cases hstep with ⟨rfl, -, -⟩ | ⟨rfl, -, -⟩
    · exact ih
    · exact ih.trans (List.prefix_append _ _)

theorem adminUserReports_ok {i : ℕ} (hn : 0 < n) (hmax : n ≤ 200)
    (hsize : ("%" ++ trimSpace query ++ "%").utf8ByteSize ≤ maxLikePattern) :
    adminUserReports t query n ((i * n : ℕ) : ℤ) =
      .ok (page n i (latest (t.rows.filter (UserReport.isFound (trimSpace query)))),
        (t.rows.filter (UserReport.isFound (trimSpace query))).length) := by
  unfold adminUserReports
  simp only
  rw [if_neg (by omega), if_neg (by omega), if_neg (by omega), Int.toNat_natCast,
    Int.toNat_natCast]
  rfl

/-- Every reply is true: a recorded report stays in the table for good, fits its columns and is
found by the identifier that the player was given; a request fails only when the identifier drawn
for it stands in the table already. -/
theorem recorded_reports_are_found {before after : List ReportEvent}
    (hrun : ReportRun .empty (before ++ e :: after) t) :
    (e.reply = .recorded e.requestID.text → ∃ r ∈ t.rows,
      (r = e.row r.id ∧ r.FitsColumns ∧ ∀ r' ∈ t.rows, r'.requestID = r.requestID → r' = r) ∧
      ∀ n : ℕ, 0 < n → n ≤ 200 → ∃ (i : ℕ) (found : List UserReport) (total : ℕ),
        adminUserReports t e.requestID.text n ((i * n : ℕ) : ℤ) = .ok (found, total) ∧
          r ∈ found) ∧
    (e.reply = .failed e.requestID.text ↔
      ∃ e' ∈ before, e'.recorded = true ∧ e'.requestID.text = e.requestID.text) := by
  obtain ⟨u, hbefore, hrest⟩ := Run.of_append hrun
  obtain ⟨v, hstep, hafter⟩ := Run.of_cons hrest
  constructor
  · intro hreply
    have hmem : e.row (u.sequence + 1) ∈ t.rows := by
      refine (ReportRun.rows_prefix hafter).subset ?_
      rcases addUserReport_cases hstep with ⟨-, hfailed, -⟩ | ⟨rfl, -, -⟩
      · rw [hreply] at hfailed
        cases hfailed
      · exact List.mem_append_right _ (List.mem_singleton_self _)
    generalize u.sequence + 1 = id at hmem
    refine ⟨e.row id, hmem, ⟨rfl, row_fitsColumns e id, ?_⟩, ?_⟩
    · intro r hr hid
      exact List.inj_on_of_nodup_map hrun.requestIDs_nodup hr hmem hid
    · intro n hn hmax
      obtain ⟨-, -, htrim⟩ := e.requestID.plain
      have hfound : e.row id ∈ latest (t.rows.filter (UserReport.isFound e.requestID.text)) :=
        mem_latest.mpr (List.mem_filter.mpr ⟨hmem, isFound_requestID rfl⟩)
      obtain ⟨q, hq⟩ := List.getElem?_of_mem hfound
      refine ⟨q / n, _, _, adminUserReports_ok hn hmax ?_, ?_⟩
      · have hsize := utf8ByteSize_le e.requestID.text.toList
        rw [String.ofList_toList, String.length_toList, e.requestID.length] at hsize
        rw [htrim, String.utf8ByteSize_append, String.utf8ByteSize_append, maxLikePattern]
        have hpercent : "%".utf8ByteSize = 1 := rfl
        omega
      · rw [htrim]
        exact mem_page hq (Nat.div_mul_le_self q n) (by
          rw [Nat.mul_comm]
          exact Nat.lt_mul_div_succ q hn)
  · have hused : (∃ r ∈ u.rows, r.requestID = e.requestID.text) ↔
        ∃ e' ∈ before, e'.recorded = true ∧ e'.requestID.text = e.requestID.text := by
      rw [← List.mem_map, ReportRun.rows hbefore |>.1, storedReports_requestIDs, List.mem_map]
      simp only [List.mem_filter, and_assoc]
    rw [← hused]
    rcases addUserReport_cases hstep with ⟨-, hreply, hold⟩ | ⟨-, hreply, hfree⟩
    · exact iff_of_true hreply hold
    · refine iff_of_false ?_ ?_
      · rw [hreply]
        exact ReportReply.noConfusion
      · rintro ⟨r, hr, hid⟩
        exact hfree r hr hid

end

def shownID (last : Char) : String := "00000000-0000-4000-8000-00000000000" ++ last.toString

theorem shownID_digits : ∀ last ∈ ['1', '2'],
    (∀ c ∈ (shownID last).toList, c ∈ "0123456789abcdef-".toList) ∧ (shownID last).length = 36 := by
  intro last hlast
  have hboth : ['1', '2'].all (fun last => (shownID last).toList.all (fun c =>
      decide (c ∈ "0123456789abcdef-".toList)) && (shownID last).length == 36) = true := by
    decide +kernel
  have hone := List.all_eq_true.mp hboth last hlast
  rw [Bool.and_eq_true, beq_iff_eq, List.all_eq_true] at hone
  exact ⟨fun c hc => of_decide_eq_true (hone.1 c hc), hone.2⟩

def spamReport : ReportRequest where
  host := "sdk.example"
  observedIP := "192.0.2.1"
  postForm key := if key = "content" then " spam " else if key = "reason_id" then "7" else ""

def firstReport : ReportEvent where
  now := 10
  requestID := ⟨shownID '1', (shownID_digits '1' (by simp)).1, (shownID_digits '1' (by simp)).2⟩
  request := spamReport
  reply := .recorded (shownID '1')

def secondReport : ReportEvent where
  now := 10
  requestID := ⟨shownID '2', (shownID_digits '2' (by simp)).1, (shownID_digits '2' (by simp)).2⟩
  request := spamReport
  reply := .recorded (shownID '2')

def bothReports : ReportTable := ⟨[firstReport.row 1, secondReport.row 2], 2⟩

theorem bothReports_run : ReportRun .empty [firstReport, secondReport] bothReports := by
  have hfirst : ReportStep .empty firstReport ⟨[firstReport.row 1], 1⟩ := by
    unfold ReportStep
    decide
  have hsecond : ReportStep ⟨[firstReport.row 1], 1⟩ secondReport bothReports := by
    unfold ReportStep
    decide
  exact Run.tail (Run.single hfirst) hsecond

def reportPage (i : ℕ) : List UserReport × ℕ :=
  (adminUserReports bothReports "SPAM" 1 i).toOption.getD ([], 0)

theorem both_reports_listed :
    (List.range (2 + 1)).flatMap (fun i => (reportPage i).1) =
      [secondReport.row 2, firstReport.row 1] := by
  have hpages : ∀ i ≤ 2, adminUserReports bothReports "SPAM" ((1 : ℕ) : ℤ) ((i * 1 : ℕ) : ℤ) =
      .ok (reportPage i) := by decide
  have hlaw := @reports_listed_latest_first bothReports [firstReport, secondReport] "SPAM" 1 2
    reportPage (by decide) (by decide) bothReports_run hpages (by decide)
  exact (hlaw.2.2.2 (by decide)).trans (by decide)

theorem first_report_found :
    ∃ (i : ℕ) (found : List UserReport) (total : ℕ),
      adminUserReports bothReports (shownID '1') ((1 : ℕ) : ℤ) ((i * 1 : ℕ) : ℤ) =
        .ok (found, total) ∧ ∃ r ∈ found, r.content = "spam" ∧ r.reasonID = 7 := by
  have hlaw := @recorded_reports_are_found bothReports firstReport [] [secondReport]
    bothReports_run
  obtain ⟨r, -, ⟨hrow, -, -⟩, hpages⟩ := hlaw.1 rfl
  obtain ⟨i, found, total, hpage, hmem⟩ := hpages 1 (by decide) (by decide)
  refine ⟨i, found, total, hpage, r, hmem, ?_⟩
  have hkept : (firstReport.request.report (shownID '1')).content = "spam" ∧
      (firstReport.request.report (shownID '1')).reasonID = 7 := by decide
  rw [hrow]
  exact hkept

end PapeSdk
