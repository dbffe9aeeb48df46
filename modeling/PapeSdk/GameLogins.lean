import PapeSdk.DecimalIntegers
import PapeSdk.Revocation

/-!
Logins at the game server. The game server hands the account id and the access
token of a player to `verifyInnerLogin`, which looks both up and lets the player
in when they belong to one account that is not in its cooling-off period. What
it answers for a pair that was ever returned is a matter of the history since:
the pair is good until its deadline, unless it was refreshed, revoked, or ended
together with all sessions of its account.
-/

namespace PapeSdk

open KeyedTables EventRuns TokenLedger LetterCase DecimalIntegers

def userByOpenID (w : World) (openID : String) : Except String (Option User) :=
  let openID := trimSpace openID
  if openID = "" then .error "缺少 OpenID"
  else
    match parseInt openID with
    | (_, some _) => .ok none
    | (userID, none) =>
      if userID ≤ 0 then .ok none
      else .ok ((w.db.users.first? (UserRow.isLive userID.toNat)).map UserRow.scan)

inductive LoginAnswer
  | rejected (status : ℕ) (error : String)
  | accepted (openID : String) (nid : ℕ)
  deriving DecidableEq, Repr

namespace LoginAnswer

def unauthorized : LoginAnswer := .rejected 401 "OpenID 或登录凭证无效"

def coolingOff : LoginAnswer := .rejected 423 "账号处于注销冷静期（账号锁定期）"

end LoginAnswer

/-- The request is a pair of an OpenID and a token, or the error of its decoding. -/
def verifyInnerLogin (w : World) (request : Except String (String × String)) : LoginAnswer :=
  match request with
  | .error e => .rejected 400 e
  | .ok (openID, token) =>
    match userByOpenID w openID with
    | .error _ | .ok none => .unauthorized
    | .ok (some byOpenID) =>
      match userByToken w token with
      | .error _ | .ok none => .unauthorized
      | .ok (some byToken) =>
        if byToken.id ≠ byOpenID.id then .unauthorized
        else
          match cancellation w byOpenID.id with
          | .error _ => .rejected 500 "账号状态查询失败"
          | .ok (status, _) =>
            if status = 2 then .coolingOff else .accepted byOpenID.openID byOpenID.nid

/-- The text is read as this id. -/
def NamesAccount (openID : String) (id : ℕ) : Prop := parseInt (trimSpace openID) = ((id : ℤ), none)

instance (openID : String) (id : ℕ) : Decidable (NamesAccount openID id) :=
  inferInstanceAs (Decidable (_ = _))

/-- The account is live and its cooling-off period has begun. -/
def World.CoolsOff (w : World) (id : ℕ) : Prop :=
  ∃ r ∈ w.db.users.rows, r.isLive id = true ∧ r.cancellationStatus = 2

instance World.decidableCoolsOff (w : World) (id : ℕ) : Decidable (w.CoolsOff id) :=
  inferInstanceAs (Decidable (∃ r ∈ w.db.users.rows, _ ∧ _))

/-- The events that end the session of the pair that `u` carries. -/
def Event.Ends (e : Event) (u : User) : Prop :=
  e.Revokes u.id ∨ (∃ r, u.refreshToken = some r ∧ e.refreshes r = true) ∨
    ∃ token, e.op = .revokeSessionByToken token ∧ (u.token = token ∨ u.refreshToken = some token)

section
variable {env : Externals} {w w' : World} {openID token : String} {u : User} {s : AuthSession}

theorem userByOpenID_some {user : User} (h : userByOpenID w openID = .ok (some user)) :
    NamesAccount openID user.id ∧
      ∃ r ∈ w.db.users.rows, r.isLive user.id = true ∧ user = r.scan := by
  unfold userByOpenID at h
  simp only at h
  split at h
  · cases h
  split at h
  · cases h
  next userID hparse =>
  split at h
  · cases h
  next hpos =>
  obtain ⟨r, hr, hscan⟩ := Option.map_eq_some_iff.mp (Except.ok.inj h)
  have hlive := Table.first?_holds hr
  have hid : r.id = userID.toNat := (UserRow.isLive_iff.mp hlive).1
  rw [← hscan, UserRow.scan_id]
  refine ⟨?_, r, Table.mem_of_first? hr, hid ▸ hlive, rfl⟩
  rw [NamesAccount, hparse, hid]
  simp only [Prod.mk.injEq, and_true]
  omega

theorem userByOpenID_of_live {r : UserRow} (hr : r ∈ w.db.users.rows) (hlive : r.deletedAt = none)
    (hpos : 0 < r.id) (hnames : NamesAccount openID r.id) :
    userByOpenID w openID = .ok (some r.scan) := by
  have hempty : trimSpace openID ≠ "" := by
    intro hempty
    have hnone : (parseInt "").2 = some NumError.errSyntax := by decide
    rw [NamesAccount, hempty] at hnames
    rw [hnames] at hnone
    cases hnone
  have hfirst : w.db.users.first? (UserRow.isLive r.id) = some r := by
    refine Table.first?_eq_of_unique hr (UserRow.isLive_iff.mpr ⟨rfl, hlive⟩) ?_
    intro a ha hmatch
    exact w.db.user_eq_of_id ha hr (UserRow.isLive_iff.mp hmatch).1
  unfold userByOpenID
  rw [NamesAccount] at hnames
  simp only [if_neg hempty, hnames, Int.toNat_natCast, hfirst]
  rw [if_neg (by omega)]
  rfl

/-- A login is let in, or held back by a cooling-off period, when both lookups find one account. -/
theorem verifyInnerLogin_of_open (h : StoreInv env w) (hs : s ∈ w.db.authSessions.rows)
    (hgrants : s.GrantsAccess w.now) (hnames : NamesAccount openID s.userID) :
    verifyInnerLogin w (.ok (openID, s.accessToken)) =
      if w.CoolsOff s.userID then .coolingOff else .accepted (toString s.userID) s.userID := by
  obtain ⟨r, hr, hid⟩ := h.sessions.owner s hs
  obtain ⟨hlive, -⟩ := h.sessions.openOwner s hs r hr hid hgrants.1
  obtain ⟨user, huser, howner⟩ := (acceptsAccess_iff h.sessions).mpr ⟨s, hs, rfl, rfl, hgrants⟩
  rw [← hid] at hnames howner ⊢
  have hpos : 0 < r.id := lt_of_lt_of_le (by decide) (h.ids.first r hr)
  have hfound := userByOpenID_of_live hr hlive hpos hnames
  have hisLive : r.isLive r.id = true := UserRow.isLive_iff.mpr ⟨rfl, hlive⟩
  have hunique : ∀ a ∈ w.db.users.rows, a.isLive r.id = true → a = r := by
    intro a ha hmatch
    exact w.db.user_eq_of_id ha hr (UserRow.isLive_iff.mp hmatch).1
  have hstatus : cancellation w r.id = .ok (r.cancellationStatus, r.cancellationAt.getD 0) := by
    rw [cancellation, Table.first?_eq_of_unique hr hisLive hunique]
  have hcools : w.CoolsOff r.id ↔ r.cancellationStatus = 2 :=
    Table.exists_and_iff (p := fun a : UserRow => a.isLive r.id = true)
      (q := fun a : UserRow => a.cancellationStatus = 2) hr hisLive hunique
  unfold verifyInnerLogin
  simp only [hfound, huser, howner, UserRow.scan_id, ne_eq, not_true_eq_false, if_false, hstatus,
    hcools]
  rfl

theorem verifyInnerLogin_of_not
    (hnot : ∀ id, NamesAccount openID id → ¬ AcceptsAccess w token id) :
    verifyInnerLogin w (.ok (openID, token)) = .unauthorized := by
  unfold verifyInnerLogin
  simp only
  split
  · rfl
  · rfl
  next byOpenID hopen =>
  split
  · rfl
  · rfl
  next byToken htoken =>
  rw [if_pos]
  intro hsame
  exact hnot _ (userByOpenID_some hopen).1 ⟨byToken, htoken, hsame⟩

end

/-- The session is the one whose pair was returned with `u`. -/
structure AuthSession.Carries (s : AuthSession) (u : User) : Prop where
  owner : s.userID = u.id
  access : s.accessToken = u.token
  refresh : u.refreshToken = some s.refreshToken

section
variable {env : Externals} {w w' : World} {u : User} {s : AuthSession} {e : Event}

/-- An operation that has an effect on the session of the pair ends it. -/
theorem Effect.Closes.ends {k : Effect} {op : Op} {o : Outcome} (h : k.Closes s)
    (hk : op.effect = some k) (ho : op.Granted o) (hcarries : s.Carries u) (time : ℕ) :
    Event.Ends ⟨time, op, o⟩ u := by
  have howner := hcarries.owner
  have hof : k.Of op := Op.effect_of hk
  cases k with
  | refresh token =>
    have hop : op = .refreshByToken token := hof
    have htoken : s.refreshToken = token := h
    subst hop
    obtain ⟨v, rfl⟩ := ho
    refine Or.inr (Or.inl ⟨s.refreshToken, hcarries.refresh, ?_⟩)
    simp [Event.refreshes, htoken]
  | revokeSession token =>
    refine Or.inr (Or.inr ⟨token, hof, ?_⟩)
    rcases h with haccess | hrefresh
    · exact Or.inl (hcarries.access.symm.trans haccess)
    · exact Or.inr (hcarries.refresh.trans (congrArg some hrefresh))
  | revokeTokens userID =>
    have hid : userID = u.id := h.symm.trans howner
    exact Or.inl (Or.inl (hid ▸ hof))
  | delete userID =>
    have hid : userID = u.id := h.symm.trans howner
    subst hid
    rcases hof with rfl | ⟨now, rfl⟩
    · exact Or.inl (Or.inr (Or.inl ⟨rfl, ho⟩))
    · exact Or.inl (Or.inr (Or.inr (Or.inl ⟨now, rfl, ho⟩)))
  | hardDelete userID =>
    have hid : userID = u.id := h.symm.trans howner
    exact Or.inl (Or.inr (Or.inr (Or.inr (hid ▸ hof))))
  | _ => cases h

/-- An event that does not end a session leaves its row as it is. -/
theorem StoreStep.keeps_session (hstep : StoreStep env w e w') (hinv : StoreInv env w)
    (hs : s ∈ w.db.authSessions.rows) (hcarries : s.Carries u) (hends : ¬ e.Ends u) :
    s ∈ w'.db.authSessions.rows := by
  have hkept : s ∈ (exec env w e.op).1.db.authSessions.rows := by
    refine exec_keeps_session hinv hs fun k hk ho hcloses => hends ?_
    rw [hstep.2] at ho
    exact hcloses.ends hk ho hcarries e.at'
  rwa [hstep.2] at hkept

theorem Event.Ends.spends (h : e.Ends u) (hstep : StoreStep env w e w') (hinv : StoreInv env w)
    (hrand : env.NeverRepeats) (hs : s ∈ w.db.authSessions.rows) (hcarries : s.Carries u) :
    (w'.ledger env).Spent u.token := by
  have hheld : w.Holds u.id u.token := ⟨s, hs, hcarries.owner, Or.inl hcarries.access⟩
  have hbelongs := hstep.belongs hinv hrand (hheld.belongs hinv.sessions)
  rcases h with hrevokes | ⟨r, hr, huse⟩ | ⟨token, hop, htoken⟩
  · refine ⟨hbelongs.seen, ?_⟩
    rintro ⟨a, ha, hopen, htoken⟩
    exact hrevokes.closes hinv.sessions hstep a ha (hbelongs.rows a ha htoken) hopen
  · obtain ⟨v, access, hcall⟩ := hstep.refreshed huse
    obtain ⟨a, ha, htoken, -, hspent, -⟩ := refreshByToken_spends hinv.sessions hrand hcall
    have hrefresh : a.refreshToken = s.refreshToken :=
      htoken.trans (Option.some.inj (hr.symm.trans hcarries.refresh))
    rw [w.db.session_eq_of_refresh ha hs hrefresh, hcarries.access] at hspent
    exact hspent
  · have htarget : s.accessToken = token ∨ s.refreshToken = token := by
      rcases htoken with htoken | htoken
      · exact Or.inl (hcarries.access.trans htoken)
      · exact Or.inr (Option.some.inj (hcarries.refresh.symm.trans htoken))
    have hworld : (exec env w e.op).1 = w' := congrArg Prod.fst hstep.2
    have hnonempty : token ≠ "" := by
      rcases htarget with rfl | rfl
      · exact hinv.sessions.access_ne_empty hs
      · exact hinv.sessions.refresh_ne_empty hs
    simp only [hop, exec, report_fst, revokeSessionByToken, if_neg hnonempty] at hworld
    refine ⟨hbelongs.seen, ?_⟩
    rintro ⟨a', ha', hopen, htoken'⟩
    rw [← hworld] at ha'
    rcases Table.of_mem_updated ha' with ⟨a, -, -, rfl⟩ | ⟨ha, hmatch⟩
    · cases hopen
    · -- an open row that carries the access token is the revoked row itself
      obtain ⟨i, -, haccess, -⟩ := hinv.sessions.drawn s hs
      obtain ⟨j, -, -, hrefresh⟩ := hinv.sessions.drawn a' ha
      rcases htoken' with hown | hown
      · rw [w.db.session_eq_of_access ha hs (hown.trans hcarries.access.symm)] at hmatch hopen
        rcases htarget with htarget | htarget
        · simp [htarget, hopen] at hmatch
        · simp [htarget, hopen] at hmatch
      · exact env.access_ne_refresh i (j + 1)
          (haccess.symm.trans (hcarries.access.trans (hown.symm.trans hrefresh)))

/-- Along a run the row of a pair stays as it is until an event ends it. -/
theorem StoreRun.session_history {log : List Event} (hrun : StoreRun env w log w')
    (hinv : StoreInv env w) (hrand : env.NeverRepeats) (hs : s ∈ w.db.authSessions.rows)
    (hcarries : s.Carries u) :
    StoreInv env w' ∧ ((s ∈ w'.db.authSessions.rows ∧ ∀ e ∈ log, ¬ e.Ends u) ∨
      ((w'.ledger env).Spent u.token ∧ ∃ e ∈ log, e.Ends u)) := by
  refine Run.history (P := fun log v => StoreInv env v ∧
    ((s ∈ v.db.authSessions.rows ∧ ∀ e ∈ log, ¬ e.Ends u) ∨
      ((v.ledger env).Spent u.token ∧ ∃ e ∈ log, e.Ends u))) ?_ hrun
    ⟨hinv, Or.inl ⟨hs, fun e he => by cases he⟩⟩
  rintro before v e v' - ⟨hv, hlaw⟩ hstep
  refine ⟨hv.step hstep, ?_⟩
  rcases hlaw with ⟨hrow, hquiet⟩ | ⟨hspent, ended, hbefore, hends⟩
  · by_cases hends : e.Ends u
    · exact Or.inr ⟨hends.spends hstep hv hrand hrow hcarries, e, by simp, hends⟩
    · refine Or.inl ⟨hstep.keeps_session hv hrow hcarries hends, ?_⟩
      intro e' he'
      rcases List.mem_append.mp he' with he' | he'
      · exact hquiet e' he'
      · rw [List.mem_singleton.mp he']
        exact hends
  · exact Or.inr ⟨(hstep.ledger hv hrand).spent hspent, ended, by simp [hbefore], hends⟩

/-- The token was drawn after the moment, if there is one. -/
def User.DrawnSince (env : Externals) (w : World) (u : User) : Prop :=
  u.token ≠ "" → ∃ n, w.draws ≤ n ∧ u.token = env.makeToken "pt" n

theorem issueAuthSession_drawn {userID : ℕ} (h : issueAuthSession env w userID = (w', .ok u)) :
    u.DrawnSince env w := by
  intro _
  rcases issueAuthSession_cases h with ⟨e, -, herror, -⟩ | ⟨row, sessions, -, -, -, hu, -⟩
  · cases herror
  · cases hu
    exact ⟨w.draws, le_refl _, rfl⟩

theorem drawn_of_map {v : World} {userID : ℕ} {created c : Bool}
    {issued : World × Except String User} (hissued : issueAuthSession env v userID = issued)
    (hdraws : w.draws ≤ v.draws)
    (h : (issued.1, issued.2.map fun u => (u, created)) = (w', .ok (u, c))) :
    u.DrawnSince env w := by
  obtain ⟨w'', result⟩ := issued
  cases result with
  | error e => cases h
  | ok user =>
    cases h
    intro hnonempty
    obtain ⟨n, hn, htoken⟩ := issueAuthSession_drawn hissued hnonempty
    exact ⟨n, le_trans hdraws hn, htoken⟩

theorem createUserRow_drawn {phone : String} {c : Bool}
    (h : createUserRow env w phone = (w', .ok (u, c))) : u.DrawnSince env w := by
  unfold createUserRow at h
  split at h
  · next db hdb => exact drawn_of_map (v := { w with db := db }) rfl (le_refl _) h
  split at h
  · cases h
    exact fun hnonempty => absurd rfl hnonempty
  · exact drawn_of_map rfl (le_refl _) h

theorem getOrCreateUser_drawn {phone : String} {c : Bool}
    (h : getOrCreateUser env w phone = (w', .ok (u, c))) : u.DrawnSince env w := by
  unfold getOrCreateUser at h
  split at h
  · cases h
  split at h
  · exact drawn_of_map rfl (le_refl _) h
  split at h
  · split at h
    · cases h
    · next v account hcreate =>
      refine drawn_of_map rfl ?_ h
      rcases createAccount_cases hcreate with ⟨e, -, rfl⟩ | ⟨row, users, -, -, rfl, -⟩
      · exact le_refl _
      · exact le_refl _
  · exact createUserRow_drawn h

theorem exec_drawn {op : Op} {c : Bool} (h : exec env w op = (w', .session u c)) :
    u.DrawnSince env w := by
  cases op with
  | advance => cases h
  | getOrCreateUser phone =>
    simp only [exec] at h
    rcases report_cases h with ⟨e, -, ho⟩ | ⟨⟨a, created⟩, hr, ho⟩
    · cases ho
    · cases ho
      exact getOrCreateUser_drawn hr
  | createUser phone =>
    simp only [exec] at h
    rcases report_cases h with ⟨e, -, ho⟩ | ⟨a, hr, ho⟩
    · cases ho
    cases ho
    unfold createUser at hr
    split at hr
    · cases hr
    split at hr
    · cases hr
    next hlogin =>
    split at hr
    · cases hr
      exact getOrCreateUser_drawn hlogin
    · cases hr
  | createLoginSession userID =>
    simp only [exec] at h
    rcases report_cases h with ⟨e, -, ho⟩ | ⟨a, hr, ho⟩
    · cases ho
    · cases ho
      exact issueAuthSession_drawn hr
  | refreshByToken token =>
    simp only [exec] at h
    rcases report_cases h with ⟨e, -, ho⟩ | ⟨⟨a, access⟩, hr, ho⟩
    · cases ho
    cases ho
    intro _
    rcases refreshAuthSession_cases hr with ⟨e, -, herror, -⟩ | ⟨_, _, _, -, -, hu, -⟩
    · cases herror
    · cases hu
      exact ⟨w.draws, le_refl _, rfl⟩
  | _ =>
    simp only [exec] at h
    rcases report_cases h with ⟨e, -, ho⟩ | ⟨a, -, ho⟩
    · cases ho
    · cases ho

/-- A login leaves the row of its pair, good for two hours. -/
theorem StoreStep.carries_pair {c : Bool} (hstep : StoreStep env w e w') (hinv : StoreInv env w)
    (hrand : env.NeverRepeats) (houtcome : e.outcome = .session u c) :
    ∃ s ∈ w'.db.authSessions.rows, s.Carries u ∧ s.revokedAt = none ∧
      s.accessExpiresAt = e.at' + 7200 := by
  have hexec : exec env w e.op = (w', .session u c) := by rw [hstep.2, houtcome]
  obtain ⟨s, hs, haccess, hrefresh, howner, ⟨hopen, -⟩, -⟩ := exec_hasSession hinv hexec
  refine ⟨s, hs, ⟨howner, haccess, hrefresh⟩, hopen, ?_⟩
  have hnonempty : u.token ≠ "" := haccess ▸ (hinv.step hstep).sessions.access_ne_empty hs
  obtain ⟨n, hn, htoken⟩ := exec_drawn hexec hnonempty
  have hsession := exec_sessionStep hinv e.op (by
    intro k hk
    rw [hk] at hexec
    cases hexec)
  rw [hexec] at hsession
  rcases hsession.rows s hs with ⟨old, hold, hkept⟩ | ⟨k, -, -, -, -, hexpires, -⟩
  · refine absurd ⟨old, hold, Or.inl ?_⟩ (hinv.sessions.not_carries_drawn hrand hn "pt")
    have hsame : s.accessToken = old.accessToken := by rw [hkept.1]
    rw [← hsame, haccess, htoken]
  · rw [hexpires, hstep.1]
    rfl

/-- The pair returned by `e` is within its two hours, and nothing ended it since. -/
def Event.StillGood (e : Event) (u : User) (after : List Event) (now : ℕ) : Prop :=
  now ≤ e.at' + 7200 ∧ ∀ later ∈ after, ¬ later.Ends u

/-- What the game server is told about a pair follows from the events since it was returned. -/
theorem game_logins_follow_history {c : Bool} {start : ℕ} {before after : List Event}
    (hrand : env.NeverRepeats)
    (hrun : StoreRun env (World.fresh env start) (before ++ e :: after) w)
    (houtcome : e.outcome = .session u c) (openID : String) :
    (NamesAccount openID u.id ∧ e.StillGood u after w.now → ¬ w.CoolsOff u.id →
      verifyInnerLogin w (.ok (openID, u.token)) = .accepted (toString u.id) u.id) ∧
    (NamesAccount openID u.id ∧ e.StillGood u after w.now → w.CoolsOff u.id →
      verifyInnerLogin w (.ok (openID, u.token)) = .coolingOff) ∧
    (¬ (NamesAccount openID u.id ∧ e.StillGood u after w.now) →
      verifyInnerLogin w (.ok (openID, u.token)) = .unauthorized) := by
  obtain ⟨v, hbefore, hrest⟩ := Run.of_append hrun
  obtain ⟨v', hstep, hafter⟩ := Run.of_cons hrest
  have hinv : StoreInv env v := StoreInv.run hbefore
  obtain ⟨s, hs, hcarries, hopen, hexpires⟩ := hstep.carries_pair hinv hrand houtcome
  obtain ⟨hw, hlaw⟩ := StoreRun.session_history hafter (hinv.step hstep) hrand hs hcarries
  have hlogin : NamesAccount openID u.id ∧ e.StillGood u after w.now →
      verifyInnerLogin w (.ok (openID, u.token)) =
        if w.CoolsOff u.id then .coolingOff else .accepted (toString u.id) u.id := by
    rintro ⟨hnames, hfresh, hquiet⟩
    rcases hlaw with ⟨hkept, -⟩ | ⟨-, ended, hended, hends⟩
    · have howner : NamesAccount openID s.userID := hcarries.owner.symm ▸ hnames
      have hfound := verifyInnerLogin_of_open hw hkept ⟨hopen, hexpires ▸ hfresh⟩ howner
      rw [hcarries.access, hcarries.owner] at hfound
      exact hfound
    · exact absurd hends (hquiet ended hended)
  refine ⟨?_, ?_, ?_⟩
  · intro hgood hcools
    rw [hlogin hgood, if_neg hcools]
  · intro hgood hcools
    rw [hlogin hgood, if_pos hcools]
  · intro hbad
    apply verifyInnerLogin_of_not
    intro id hnames haccepts
    have hlive := (Accepted.live ⟨id, Or.inl haccepts⟩ hw.sessions hrand)
    rcases hlaw with ⟨hkept, hquiet⟩ | ⟨hspent, -⟩
    · obtain ⟨a, ha, htoken, howner, -, hfresh⟩ := (acceptsAccess_iff hw.sessions).mp haccepts
      rw [w.db.session_eq_of_access ha hkept (htoken.trans hcarries.access.symm)] at howner hfresh
      rw [hcarries.owner] at howner
      refine hbad ⟨howner ▸ hnames, ?_, hquiet⟩
      rw [← hexpires]
      exact hfresh
    · exact hspent.2 hlive

end

theorem refreshed_pair_is_refused :
    verifyInnerLogin (execAll .unary (World.fresh .unary 0)
      [.getOrCreateUser "13800000000", .refreshByToken "rt_a"]).2 (.ok ("100000001", "pt_")) =
        .unauthorized := by
  have hrun := execAll_run .unary (World.fresh .unary 0)
    [.getOrCreateUser "13800000000", .refreshByToken "rt_a"]
  obtain ⟨user, c, houtcome, htoken⟩ : ∃ user c,
      (exec .unary (World.fresh .unary 0) (.getOrCreateUser "13800000000")).2 = .session user c ∧
        user.token = "pt_" ∧ user.refreshToken = some "rt_a" := ⟨_, _, rfl, by decide⟩
  have hstart : StoreRun .unary (World.fresh .unary 0) [] (World.fresh .unary 0) := Run.refl _
  have hlaw := game_logins_follow_history Externals.unary_neverRepeats (hstart.append hrun)
    houtcome "100000001"
  rw [htoken.1] at hlaw
  refine hlaw.2.2 ?_
  rintro ⟨-, -, hquiet⟩
  refine hquiet _ List.mem_cons_self (Or.inr (Or.inl ⟨"rt_a", htoken.2, ?_⟩))
  decide

end PapeSdk
