import PapeSdk.GameServers
import PapeSdk.Withdrawals

/-!
What a deletion needs. The history of a run tells which calls of a deletion have
returned and how; while a deletion waits, the results it has gathered are those
of its calls for the account it handles. So when it finds no failure among them,
every configured server has confirmed the unbind of that account, and the write
that follows leaves the rows of every other account alone.
-/

namespace PapeSdk

open KeyedTables EventRuns

/-- The rows of an account in the tables that a deletion writes to. -/
structure AccountRows where
  users : List UserRow
  authSessions : List AuthSession
  cometSessions : List CometSession
  deriving DecidableEq

def Db.accountRows (db : Db) (id : ℕ) : AccountRows where
  users := db.users.rows.filter fun r => r.id == id
  authSessions := db.authSessions.rows.filter fun s => s.userID == id
  cometSessions := db.cometSessions.rows.filter fun s => s.userID == id

/-- A call to a server that has returned. -/
structure UnbindAnswer where
  server : UInt32
  call : Option UnbindCall
  response : UnbindResponse
  deriving DecidableEq

/-- The deletion that takes the step. -/
def DeletionLabel.deletion : DeletionLabel → Option ℕ
  | .proceed k | .answer k _ _ => some k
  | .startRequest _ _ | .startPass | .store _ => none

def DeletionEvent.unbindAnswer (k : ℕ) (openID : String) (e : DeletionEvent) :
    Option UnbindAnswer :=
  match e.label, e.effect with
  | .answer j server response, .returned asked call =>
    if j = k ∧ asked = openID then some ⟨server, call, response⟩ else none
  | _, _ => none

/-- The calls of deletion `k` for `openID` that have returned so far. -/
def unbindAnswers (log : List DeletionEvent) (k : ℕ) (openID : String) : List UnbindAnswer :=
  log.filterMap (DeletionEvent.unbindAnswer k openID)

/-- There are servers, deletion `k` has sent each of them its call for `openID` and got a
confirmation, and nothing but confirmations. -/
def ConfirmedBy (pool : Pool) (log : List DeletionEvent) (k : ℕ) (openID : String) : Prop :=
  pool.clients ≠ [] ∧
    (∀ p ∈ pool.clients, ∃ a ∈ unbindAnswers log k openID,
      a.server = p.1 ∧ a.call ≠ none ∧ a.call = p.2.call openID) ∧
    ∀ a ∈ unbindAnswers log k openID, a.response.Confirms

/-- Each result comes from the answer at its place. -/
def Returned (pool : Pool) (openID : String) (results : UnbindResults)
    (answers : List UnbindAnswer) : Prop :=
  List.Forall₂ (fun result answer => answer.server = result.1 ∧
    ∃ c, pool.clients.lookup answer.server = some c ∧ answer.call = c.call openID ∧
      result.2 = c.unbindRoles answer.response) results answers

/-- The history fits what deletion `k` is about to do. -/
structure Deletion.Tracked (pool : Pool) (log : List DeletionEvent) (k : ℕ) (d : Deletion) :
    Prop where
  named : ∀ item ∈ d.todo, item.openID = toString item.userID
  distinct : (d.todo.map DueCancellation.userID).Nodup
  unasked : ∀ item ∈ d.todo, unbindAnswers log k item.openID = []
  starting : d.stage = .starting → ∀ openID, unbindAnswers log k openID = []
  current : ∀ item results, d.stage = .calling item results →
    item.openID = toString item.userID ∧ item.userID ∉ d.todo.map DueCancellation.userID ∧
      Returned pool item.openID results (unbindAnswers log k item.openID)

structure DeletionsTracked (pool : Pool) (log : List DeletionEvent) (s : DeletionState) :
    Prop where
  deletions : ∀ (k : ℕ) (d : Deletion), s.deletions[k]? = some d → d.Tracked pool log k
  unused : ∀ k, s.deletions.length ≤ k → ∀ openID, unbindAnswers log k openID = []

/-- The steps of the system, one constructor for each kind. -/
inductive DeletionMove (env : Externals) (pool : Pool) (s : DeletionState) :
    DeletionLabel → DeletionEffect → DeletionState → Prop
  | request (userID : ℕ) (hard : Bool) :
      DeletionMove env pool s (.startRequest userID hard) .silent
        { s with deletions :=
            s.deletions ++ [⟨.request hard, [⟨userID, toString userID⟩], .idle⟩] }
  | pass :
      DeletionMove env pool s .startPass .silent
        { s with deletions := s.deletions ++ [⟨.finalizer s.world.now, [], .starting⟩] }
  | proceed (k : ℕ) (d d' : Deletion) (w : World) (effect : DeletionEffect)
      (hd : s.deletions[k]? = some d)
      (hproceed : d.proceed pool s.world = some (w, d', effect)) :
      DeletionMove env pool s (.proceed k) effect ⟨w, s.deletions.set k d'⟩
  | answer (k : ℕ) (server : UInt32) (response : UnbindResponse) (d d' : Deletion)
      (effect : DeletionEffect) (hd : s.deletions[k]? = some d)
      (hanswer : d.answer pool server response = some (d', effect)) :
      DeletionMove env pool s (.answer k server response) effect
        { s with deletions := s.deletions.set k d' }
  | store (op : Op) :
      DeletionMove env pool s (.store op) .silent { s with world := (exec env s.world op).1 }

section
variable {env : Externals} {pool : Pool} {w w' : World} {log : List DeletionEvent}
  {s s' : DeletionState} {e : DeletionEvent} {k : ℕ}

theorem Db.accountRows_eq {db db' : Db} {id : ℕ}
    (husers : (db'.users.rows.filter fun r => r.id == id) =
      db.users.rows.filter fun r => r.id == id)
    (hauth : (db'.authSessions.rows.filter fun s => s.userID == id) =
      db.authSessions.rows.filter fun s => s.userID == id)
    (hcomet : (db'.cometSessions.rows.filter fun s => s.userID == id) =
      db.cometSessions.rows.filter fun s => s.userID == id) :
    db'.accountRows id = db.accountRows id := by
  unfold Db.accountRows
  rw [husers, hauth, hcomet]

theorem softDelete_others {users users' : Table userKeys} {p : UserRow → Bool} {now id other : ℕ}
    (h : users.update? p (fun r => r.softDelete now) = some users')
    (hp : ∀ r, p r = true → r.id = id) (hne : other ≠ id) :
    (users'.rows.filter fun r => r.id == other) = users.rows.filter fun r => r.id == other := by
  rw [Table.update?_rows h]
  apply Table.filter_updated
  intro r hr
  have hfalse : (r.id == other) = false := by simpa [hp r hr] using hne.symm
  exact ⟨hfalse, hfalse⟩

theorem revokeSessionsOf_others (db : Db) (now : ℕ) {id other : ℕ} (hne : other ≠ id) :
    ((db.revokeSessionsOf id now).rows.filter fun s => s.userID == other) =
      db.authSessions.rows.filter fun s => s.userID == other := by
  apply Table.filter_updated
  intro r hr
  rw [Bool.and_eq_true, beq_iff_eq] at hr
  have hfalse : (r.userID == other) = false := by simpa [hr.1] using hne.symm
  exact ⟨hfalse, hfalse⟩

theorem deleteUser_others (w : World) {id other : ℕ} (hne : other ≠ id) :
    (deleteUser w id).1.db.accountRows other = w.db.accountRows other := by
  unfold deleteUser
  split
  · rfl
  · next users husers =>
    refine Db.accountRows_eq (softDelete_others husers (fun r hr => ?_) hne)
      (revokeSessionsOf_others w.db w.now hne) rfl
    rw [UserRow.isLive, Bool.and_eq_true, beq_iff_eq] at hr
    exact hr.1

theorem completeCancellation_others (w : World) (now : ℕ) {id other : ℕ} (hne : other ≠ id) :
    (completeCancellation w id now).1.db.accountRows other = w.db.accountRows other := by
  unfold completeCancellation
  dsimp only
  split
  · rfl
  split
  · rfl
  · next users husers _ =>
    refine Db.accountRows_eq (softDelete_others husers (fun r hr => ?_) hne)
      (revokeSessionsOf_others w.db now hne) rfl
    rw [Bool.and_eq_true, beq_iff_eq] at hr
    exact hr.1

theorem hardDeleteUser_others (w : World) {id other : ℕ} (hne : other ≠ id) :
    (hardDeleteUser w id).1.db.accountRows other = w.db.accountRows other := by
  have hfalse : ∀ n : ℕ, (n == id) = true → (n == other) = false := by
    intro n hn
    rw [beq_iff_eq] at hn
    simpa [hn] using hne.symm
  unfold hardDeleteUser
  split
  · rfl
  · exact Db.accountRows_eq (Table.filter_delete fun r => hfalse r.id)
      (Table.filter_delete fun r => hfalse r.userID) (Table.filter_delete fun r => hfalse r.userID)

/-- The last step of a deletion writes for its own account, and after a success only. -/
theorem DeletionKind.finish_cases (kind : DeletionKind) (w : World) (userID : ℕ)
    (unbound : Except String Unit) :
    (kind.finish w userID unbound).1 = w ∨
      unbound = .ok () ∧ ∀ other, other ≠ userID →
        (kind.finish w userID unbound).1.db.accountRows other = w.db.accountRows other := by
  cases kind with
  | request hard =>
    simp only [finish, unbindAndDeleteUser]
    by_cases hzero : userID = 0
    · rw [if_pos hzero]
      exact Or.inl rfl
    rw [if_neg hzero]
    cases unbound with
    | error e => exact Or.inl rfl
    | ok =>
      refine Or.inr ⟨rfl, fun other hne => ?_⟩
      cases hard with
      | false => exact deleteUser_others w hne
      | true => exact hardDeleteUser_others w hne
  | finalizer now =>
    cases unbound with
    | error e => exact Or.inl rfl
    | ok =>
      refine Or.inr ⟨rfl, fun other hne => ?_⟩
      have hothers := completeCancellation_others w now hne
      simp only [finish]
      split
      · next heq => rwa [heq] at hothers
      · next heq => rwa [heq] at hothers

theorem DeletionStep.move (h : DeletionStep env pool s e s') :
    DeletionMove env pool s e.label e.effect s' := by
  obtain ⟨label, effect⟩ := e
  unfold DeletionStep DeletionState.step at h
  cases label with
  | startRequest userID hard =>
    cases h
    exact .request userID hard
  | startPass =>
    cases h
    exact .pass
  | store op =>
    cases h
    exact .store op
  | proceed k =>
    dsimp only at h
    split at h
    · cases h
    next d hd =>
    split at h
    · cases h
    next w d' effect' hproceed =>
    cases h
    exact .proceed k d d' w effect hd hproceed
  | answer k server response =>
    dsimp only at h
    split at h
    · cases h
    next d hd =>
    split at h
    · cases h
    next d' effect' hanswer =>
    cases h
    exact .answer k server response d d' effect hd hanswer

theorem unbindAnswers_concat (log : List DeletionEvent) (e : DeletionEvent) (k : ℕ)
    (openID : String) :
    unbindAnswers (log ++ [e]) k openID =
      unbindAnswers log k openID ++ (e.unbindAnswer k openID).toList := by
  unfold unbindAnswers
  rw [List.filterMap_append]
  cases h : e.unbindAnswer k openID with
  | none => simp [h]
  | some a => simp [h]

theorem unbindAnswers_silent (log : List DeletionEvent) {label : DeletionLabel}
    {effect : DeletionEffect} (h : ∀ openID call, effect ≠ .returned openID call) (k : ℕ)
    (openID : String) :
    unbindAnswers (log ++ [⟨label, effect⟩]) k openID = unbindAnswers log k openID := by
  have hnone : DeletionEvent.unbindAnswer k openID ⟨label, effect⟩ = none := by
    cases effect with
    | silent => cases label <;> rfl
    | returned asked call => exact absurd rfl (h asked call)
    | finished userID result => cases label <;> rfl
  rw [unbindAnswers_concat, hnone]
  simp

theorem unbindAnswers_returned (log : List DeletionEvent) (j : ℕ) (server : UInt32)
    (response : UnbindResponse) (asked : String) (call : Option UnbindCall) (k : ℕ)
    (openID : String) :
    unbindAnswers (log ++ [⟨.answer j server response, .returned asked call⟩]) k openID =
      unbindAnswers log k openID ++
        if j = k ∧ asked = openID then [⟨server, call, response⟩] else [] := by
  rw [unbindAnswers_concat]
  by_cases h : j = k ∧ asked = openID
  · simp [DeletionEvent.unbindAnswer, h]
  · simp [DeletionEvent.unbindAnswer, h]

theorem Deletion.Tracked.mono {d : Deletion} {log' : List DeletionEvent}
    (h : d.Tracked pool log k)
    (hsame : ∀ openID, unbindAnswers log' k openID = unbindAnswers log k openID) :
    d.Tracked pool log' k where
  named := h.named
  distinct := h.distinct
  unasked item hitem := by rw [hsame, h.unasked item hitem]
  starting hstage openID := by rw [hsame, h.starting hstage openID]
  current item results hstage := by
    rw [hsame]
    exact h.current item results hstage

theorem dueCancellations_named {now limit : ℕ} :
    ∀ item ∈ dueCancellations w now limit, item.openID = toString item.userID := by
  intro item hitem
  unfold dueCancellations at hitem
  obtain ⟨r, -, rfl⟩ := List.mem_map.mp hitem
  rfl

theorem dueCancellations_distinct (w : World) (now limit : ℕ) :
    ((dueCancellations w now limit).map DueCancellation.userID).Nodup := by
  have hids : (w.db.users.rows.map UserRow.id).Nodup := by
    refine List.pairwise_map.mpr (w.db.users.apart.imp ?_)
    intro a b hapart heq
    have hkey : UserKey.id a.id ∈ userKeys b := by simp [userKeys, heq]
    exact hapart (.id a.id) (by simp [userKeys]) hkey
  unfold dueCancellations
  rw [List.map_map]
  generalize (if limit = 0 then 100 else limit) = n
  have hsub := List.Sublist.map UserRow.id
    ((List.take_sublist n ((w.db.users.rows.filter (UserRow.isDue now)).insertionSort dueBefore)))
  refine List.Nodup.sublist hsub ?_
  have hperm := (List.perm_insertionSort dueBefore
    (w.db.users.rows.filter (UserRow.isDue now))).map UserRow.id
  rw [hperm.nodup_iff]
  exact List.Nodup.sublist (List.Sublist.map UserRow.id List.filter_sublist) hids

/-- A step of a deletion itself changes nothing before all its calls have returned. -/
theorem Deletion.Tracked.proceed {d d' : Deletion} {effect : DeletionEffect}
    (h : d.Tracked pool log k) (hproceed : d.proceed pool w = some (w', d', effect)) :
    d'.Tracked pool log k := by
  unfold Deletion.proceed at hproceed
  split at hproceed
  · next hstage =>
    split at hproceed
    · cases hproceed
    cases hproceed
    exact ⟨dueCancellations_named, dueCancellations_distinct w _ _,
      fun item _ => h.starting hstage item.openID, fun hidle => (by cases hidle),
      fun item results hidle => (by cases hidle)⟩
  · next hidle =>
    split at hproceed
    · cases hproceed
    next item rest htodo =>
    have hnamed := h.named
    have hdistinct := h.distinct
    have hunasked := h.unasked
    rw [htodo] at hnamed hdistinct hunasked
    rw [List.map_cons, List.nodup_cons] at hdistinct
    split at hproceed
    · cases hproceed
      refine ⟨fun i hi => hnamed i (by simp [hi]), hdistinct.2,
        fun i hi => hunasked i (by simp [hi]), fun hstage => ?_, fun i results hstage => ?_⟩
      · rw [hidle] at hstage
        cases hstage
      · rw [hidle] at hstage
        cases hstage
    · cases hproceed
      refine ⟨fun i hi => hnamed i (by simp [hi]), hdistinct.2,
        fun i hi => hunasked i (by simp [hi]), fun hstage => (by cases hstage),
        fun i results hstage => ?_⟩
      cases hstage
      refine ⟨hnamed item (by simp), hdistinct.1, ?_⟩
      rw [hunasked item (by simp)]
      exact List.Forall₂.nil
  · split at hproceed
    · cases hproceed
      exact ⟨h.named, h.distinct, h.unasked, fun hstage => (by cases hstage),
        fun i results hstage => (by cases hstage)⟩
    · cases hproceed

theorem Deletion.proceed_quiet {d d' : Deletion} {effect : DeletionEffect}
    (h : d.proceed pool w = some (w', d', effect)) (openID : String) (call : Option UnbindCall) :
    effect ≠ .returned openID call := by
  intro heffect
  subst heffect
  unfold Deletion.proceed at h
  split at h
  · split at h <;> cases h
  · split at h
    · cases h
    · split at h <;> cases h
  · split at h <;> cases h

theorem Deletion.Tracked.answer {d d' : Deletion} {server : UInt32} {response : UnbindResponse}
    {effect : DeletionEffect} (h : d.Tracked pool log k)
    (hanswer : d.answer pool server response = some (d', effect)) :
    d'.Tracked pool (log ++ [⟨.answer k server response, effect⟩]) k ∧
      ∃ openID call, effect = .returned openID call := by
  unfold Deletion.answer at hanswer
  split at hanswer
  · next item results c hstage hlookup =>
    obtain ⟨hname, hapart, hreturned⟩ := h.current item results hstage
    split at hanswer
    · cases hanswer
    cases hanswer
    refine ⟨⟨h.named, h.distinct, fun i hi => ?_, fun hstarting => (by cases hstarting),
      fun i rs hcalling => ?_⟩, _, _, rfl⟩
    · -- the item in work has another id, so its calls are for another open id
      have hne : item.openID ≠ i.openID := by
        intro heq
        rw [hname, h.named i hi] at heq
        apply hapart
        rw [toString_injective heq]
        exact List.mem_map_of_mem hi
      rw [unbindAnswers_returned, if_neg fun hboth => hne hboth.2, h.unasked i hi]
      rfl
    · cases hcalling
      refine ⟨hname, hapart, ?_⟩
      rw [unbindAnswers_returned, if_pos ⟨rfl, rfl⟩]
      apply List.rel_append hreturned
      exact List.Forall₂.cons ⟨rfl, c, hlookup, rfl, rfl⟩ List.Forall₂.nil
  · cases hanswer

/-- A new deletion, under an index that no call carries yet. -/
theorem DeletionsTracked.start {d : Deletion} (h : DeletionsTracked pool log s)
    (hd : d.Tracked pool log s.deletions.length) {log' : List DeletionEvent}
    (hsame : ∀ k openID, unbindAnswers log' k openID = unbindAnswers log k openID) :
    DeletionsTracked pool log' { s with deletions := s.deletions ++ [d] } := by
  refine ⟨fun k a hk => ?_, fun k hk openID => ?_⟩
  · apply Deletion.Tracked.mono _ (hsame k)
    by_cases hlt : k < s.deletions.length
    · rw [List.getElem?_append_left hlt] at hk
      exact h.deletions k a hk
    · obtain ⟨hbound, heq⟩ := List.getElem?_eq_some_iff.mp hk
      have hlast : k = s.deletions.length := by
        rw [List.length_append, List.length_singleton] at hbound
        omega
      subst hlast
      rw [List.getElem_concat_length rfl] at heq
      rw [← heq]
      exact hd
  · rw [hsame]
    rw [List.length_append] at hk
    exact h.unused k (by omega) openID

theorem DeletionsTracked.set {d d' : Deletion} (h : DeletionsTracked pool log s)
    (hk : s.deletions[k]? = some d) {log' : List DeletionEvent} (hd' : d'.Tracked pool log' k)
    (hsame : ∀ j, j ≠ k → ∀ openID, unbindAnswers log' j openID = unbindAnswers log j openID)
    (w : World) : DeletionsTracked pool log' ⟨w, s.deletions.set k d'⟩ := by
  obtain ⟨hlt, -⟩ := List.getElem?_eq_some_iff.mp hk
  refine ⟨fun j a hj => ?_, fun j hj openID => ?_⟩
  · by_cases hjk : j = k
    · subst hjk
      rw [List.getElem?_set_self hlt] at hj
      cases hj
      exact hd'
    · rw [List.getElem?_set_ne (Ne.symm hjk)] at hj
      exact (h.deletions j a hj).mono (hsame j hjk)
  · rw [List.length_set] at hj
    rw [hsame j (by omega)]
    exact h.unused j hj openID

theorem DeletionsTracked.step (h : DeletionsTracked pool log s)
    (hstep : DeletionStep env pool s e s') : DeletionsTracked pool (log ++ [e]) s' := by
  have hmove := hstep.move
  obtain ⟨label, effect⟩ := e
  cases hmove with
  | request userID hard =>
    refine h.start ?_ (unbindAnswers_silent log (by simp))
    refine ⟨?_, List.nodup_singleton _, fun item _ => h.unused _ le_rfl _,
      fun hstage => (by cases hstage), fun item results hstage => (by cases hstage)⟩
    intro item hitem
    rw [List.mem_singleton.mp hitem]
  | pass =>
    refine h.start ?_ (unbindAnswers_silent log (by simp))
    exact ⟨by simp, List.nodup_nil, by simp, fun _ openID => h.unused _ le_rfl openID,
      fun item results hstage => (by cases hstage)⟩
  | store op =>
    have hsame : ∀ k openID, unbindAnswers (log ++ [⟨.store op, .silent⟩]) k openID =
        unbindAnswers log k openID := unbindAnswers_silent log (by simp)
    refine ⟨fun k d hk => (h.deletions k d hk).mono (hsame k), fun k hk openID => ?_⟩
    rw [hsame]
    exact h.unused k hk openID
  | proceed k d d' w _ hd hproceed =>
    have hsame : ∀ j openID, unbindAnswers (log ++ [⟨.proceed k, effect⟩]) j openID =
        unbindAnswers log j openID := unbindAnswers_silent log (Deletion.proceed_quiet hproceed)
    exact h.set hd (((h.deletions k d hd).proceed hproceed).mono (hsame k))
      (fun j _ => hsame j) w
  | answer k server response d d' _ hd hanswer =>
    obtain ⟨hd', openID, call, rfl⟩ := (h.deletions k d hd).answer hanswer
    refine h.set hd hd' (fun j hj asked => ?_) s.world
    rw [unbindAnswers_returned, if_neg fun hboth => hj hboth.1.symm, List.append_nil]

theorem DeletionsTracked.run (h : DeletionRun env pool (DeletionState.start w) log s) :
    DeletionsTracked pool log s := by
  refine h.history (fun _ htracked hstep => htracked.step hstep) ?_
  exact ⟨fun k d hk => (by cases hk), fun k _ openID => rfl⟩

theorem Client.confirms_of_ok {c : Client} {response : UnbindResponse} {n : ℤ} (openID : String)
    (h : c.unbindRoles response = .ok n) : c.call openID ≠ none ∧ response.Confirms := by
  unfold Client.unbindRoles at h
  split at h
  · cases h
  next hurl =>
  refine ⟨by simp [Client.call, hurl], ?_⟩
  split at h
  · cases h
  · cases h
  · cases h
  · split at h
    · cases h
    next hstatus =>
    rw [not_or, not_not] at hstatus
    exact ⟨hstatus.1, by simpa using hstatus.2⟩

theorem Pool.lookup_eq (pool : Pool) {server : UInt32} {c : Client}
    (h : (server, c) ∈ pool.clients) : pool.clients.lookup server = some c := by
  obtain ⟨before, after, hclients⟩ := List.append_of_mem h
  have hdistinct := pool.distinct
  rw [hclients, List.map_append, List.map_cons, List.nodup_append] at hdistinct
  rw [hclients, List.lookup_append]
  have hnone : before.lookup server = none := by
    apply List.lookup_eq_none_iff.mpr
    intro p hp
    have hne := hdistinct.2.2 p.1 (List.mem_map_of_mem hp) server List.mem_cons_self
    simpa using Ne.symm hne
  rw [hnone]
  simp

theorem Pool.unbindRoles_ok {results : UnbindResults} (h : pool.unbindRoles results = .ok ()) :
    pool.clients ≠ [] ∧ ∀ result ∈ results, ∃ n, result.2 = .ok n := by
  unfold Pool.unbindRoles at h
  split at h
  · cases h
  next hne =>
  refine ⟨hne, fun result hresult => ?_⟩
  dsimp only at h
  split at h
  · next hfailures =>
    have hnone := List.filterMap_eq_nil_iff.mp hfailures result hresult
    obtain ⟨serverID, value⟩ := result
    cases value with
    | error e => cases hnone
    | ok n => exact ⟨n, rfl⟩
  · cases h

/-- When all calls have returned and none of them failed, every server has confirmed. -/
theorem Returned.confirmed {openID : String} {results : UnbindResults}
    (h : Returned pool openID results (unbindAnswers log k openID))
    (hall : pool.allReturned results = true) (hok : pool.unbindRoles results = .ok ()) :
    ConfirmedBy pool log k openID := by
  obtain ⟨hne, hresults⟩ := Pool.unbindRoles_ok hok
  obtain ⟨hlength, hzip⟩ := List.forall₂_iff_get.mp h
  refine ⟨hne, fun p hp => ?_, fun a ha => ?_⟩
  · have hmem : p.1 ∈ results.map Prod.fst := by
      have hp' := List.all_eq_true.mp hall p hp
      exact of_decide_eq_true hp'
    obtain ⟨result, hresult, hserver⟩ := List.mem_map.mp hmem
    obtain ⟨i, hi, rfl⟩ := List.getElem_of_mem hresult
    have hi' : i < (unbindAnswers log k openID).length := by omega
    obtain ⟨hsame, c, hlookup, hcall, hvalue⟩ := hzip i hi hi'
    obtain ⟨n, hn⟩ := hresults _ hresult
    have hc : c = p.2 := by
      have heq : pool.clients.lookup p.1 = some p.2 := pool.lookup_eq hp
      rw [hsame, List.get_eq_getElem, hserver, heq] at hlookup
      cases hlookup
      rfl
    subst hc
    refine ⟨_, List.getElem_mem hi', hsame.trans hserver, ?_, hcall⟩
    rw [List.get_eq_getElem] at hcall hvalue
    rw [hcall]
    exact (Client.confirms_of_ok openID (hvalue.symm.trans hn)).1
  · obtain ⟨i, hi', rfl⟩ := List.getElem_of_mem ha
    have hi : i < results.length := by omega
    obtain ⟨-, c, -, -, hvalue⟩ := hzip i hi hi'
    obtain ⟨n, hn⟩ := hresults _ (List.getElem_mem hi)
    exact (Client.confirms_of_ok openID (hvalue.symm.trans hn)).2

theorem Deletion.proceed_writes {d d' : Deletion} {effect : DeletionEffect}
    (h : d.Tracked pool log k) (hproceed : d.proceed pool w = some (w', d', effect)) :
    w' = w ∨ ∃ id, ConfirmedBy pool log k (toString id) ∧
      ∀ other, other ≠ id → w'.db.accountRows other = w.db.accountRows other := by
  unfold Deletion.proceed at hproceed
  split at hproceed
  · split at hproceed
    · cases hproceed
    · cases hproceed
      exact Or.inl rfl
  · split at hproceed
    · cases hproceed
    split at hproceed
    · cases hproceed
      exact Or.inl rfl
    · cases hproceed
      exact Or.inl rfl
  · next item results hstage =>
    obtain ⟨hname, -, hreturned⟩ := h.current item results hstage
    split at hproceed
    · next hall =>
      cases hproceed
      rcases d.kind.finish_cases w item.userID (pool.unbindRoles results) with
        hsame | ⟨hok, hothers⟩
      · exact Or.inl hsame
      · refine Or.inr ⟨item.userID, ?_, hothers⟩
        rw [← hname]
        exact hreturned.confirmed hall hok
    · cases hproceed

/-- A step of a deletion leaves the database alone, or every configured server has confirmed
within this deletion the unbind of one account, and no other account has changed. -/
theorem deletion_needs_every_server (h : DeletionRun env pool (DeletionState.start w) log s)
    (hstep : DeletionStep env pool s e s') (hk : e.label.deletion = some k) :
    s'.world.db = s.world.db ∨ ∃ id, ConfirmedBy pool log k (toString id) ∧
      ∀ other, other ≠ id → s'.world.db.accountRows other = s.world.db.accountRows other := by
  have htracked := DeletionsTracked.run h
  have hmove := hstep.move
  obtain ⟨label, effect⟩ := e
  cases hmove with
  | request userID hard => cases hk
  | pass => cases hk
  | store op => cases hk
  | answer j server response d d' _ hd hanswer => exact Or.inl rfl
  | proceed j d d' w _ hd hproceed =>
    cases hk
    rcases Deletion.proceed_writes (htracked.deletions k d hd) hproceed with rfl | hwrites
    · exact Or.inl rfl
    · exact Or.inr hwrites

end

def twoServers : Pool where
  clients := [(1, ⟨"http://booi-1:8080", "one"⟩), (2, ⟨"http://booi-2:8080", "two"⟩)]
  distinct := by decide

def confirmation : UnbindResponse := .decoded 200 "200 OK" true 1 ""

/-- An account is to be deleted; the second server has answered before the first. -/
def bothConfirmed : List DeletionEvent × DeletionState :=
  (DeletionState.start (World.fresh .unary 0)).runAll .unary twoServers
    [.store .reopen, .store (.createUser "13800000000"), .startRequest firstUserID false,
      .proceed 0, .answer 0 2 confirmation, .answer 0 1 confirmation]

theorem confirmed_account_deleted :
    ∃ s', bothConfirmed.2.step .unary twoServers (.proceed 0) =
        some (s', .finished firstUserID (.ok ())) ∧
      s'.world.db.accountRows firstUserID ≠ bothConfirmed.2.world.db.accountRows firstUserID ∧
      (s'.world.db = bothConfirmed.2.world.db ∨
        ∃ id, ConfirmedBy twoServers bothConfirmed.1 0 (toString id) ∧
          ∀ other, other ≠ id → s'.world.db.accountRows other =
            bothConfirmed.2.world.db.accountRows other) := by
  have hrun : DeletionRun .unary twoServers (DeletionState.start (World.fresh .unary 0))
      bothConfirmed.1 bothConfirmed.2 := DeletionState.runAll_run _ _ _ _
  have hmap : ((bothConfirmed.2.step .unary twoServers (.proceed 0)).map fun p =>
      (p.2, decide (p.1.world.db.accountRows firstUserID =
        bothConfirmed.2.world.db.accountRows firstUserID))) =
      some (.finished firstUserID (.ok ()), false) := by decide +kernel
  obtain ⟨⟨s', effect⟩, hstep, heq⟩ := Option.map_eq_some_iff.mp hmap
  rw [Prod.mk.injEq, decide_eq_false_iff_not] at heq
  obtain ⟨rfl, hchanged⟩ := heq
  exact ⟨s', hstep, hchanged, deletion_needs_every_server (e := ⟨.proceed 0, _⟩) hrun hstep rfl⟩

end PapeSdk
