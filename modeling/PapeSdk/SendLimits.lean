import PapeSdk.SendSystem
import PapeSdk.SlidingWindows
import PapeSdk.OperationEffects

/-!
The limits on codes: one for an address and ten for an IP in sixty seconds. For
either, the requests in flight and the stored events form a limiter as in
`SlidingWindows`, whose check leaves room as long as a request does not pass it
while another one in flight has used the room up. Without that condition two
requests that are counted before either is recorded send two codes at once.
-/

namespace PapeSdk

open KeyedTables Identifiers EventRuns SlidingWindows

/-- What a limit is about. -/
inductive SendKey
  | address (phone : String)
  | source (ip : String)
  deriving DecidableEq

def SendKey.limit : SendKey → ℕ
  | .address _ => 1
  | .source _ => 10

def SendKey.covers : SendKey → String → String → Bool
  | .address x, phone, _ => phone == x
  | .source a, _, ip => ip == a

/-- The request has passed the check for this key, and its code is not sent. -/
def PendingSend.admitted (key : SendKey) (p : PendingSend) : Bool :=
  match p.phase, key with
  | .counted phone _, .address x => phone == x
  | .sending phone, key => key.covers phone p.request.ip
  | _, _ => false

/-- The code of the request is sent, and its event is not stored. -/
def PendingSend.unrecorded (cfg : AuthConfig) (key : SendKey) (p : PendingSend) : Bool :=
  match p.phase with
  | .storing phone _ | .recording phone _ =>
    isLimited cfg phone && key.covers phone p.request.ip
  | _ => false

def SendEvent.delivery (key : SendKey) (e : SendEvent) : Option ℕ :=
  match e.effect with
  | .delivered phone ip => if key.covers phone ip then some e.time else none
  | .silent => none

/-- When codes have been delivered for this key. -/
def deliveries (key : SendKey) (log : List SendEvent) : List ℕ :=
  log.filterMap (SendEvent.delivery key)

/-- No sixty seconds hold more deliveries than the limit. -/
def LimitsKept (log : List SendEvent) : Prop :=
  ∀ (key : SendKey) (t : ℕ),
    (deliveries key log).countP (fun u => t ≤ u ∧ u ≤ t + 60) ≤ key.limit

namespace SendState

/-- The requests in flight and the recent events leave room for one more code. -/
def HasRoom (cfg : AuthConfig) (key : SendKey) (s : SendState) : Prop :=
  recentEvents s.world.db s.world.now (fun e => key.covers e.phone e.ip) +
    s.requests.countP (PendingSend.admitted key) +
    s.requests.countP (PendingSend.unrecorded cfg key) < key.limit

instance (cfg : AuthConfig) (key : SendKey) (s : SendState) : Decidable (s.HasRoom cfg key) :=
  inferInstanceAs (Decidable (_ < _))

/-- A request passes a check only when there is room. -/
def Unraced (cfg : AuthConfig) (s : SendState) : SendLabel → Prop
  | .handle i =>
    match s.requests[i]? with
    | some ⟨_, .counting phone⟩ =>
      recentEvents s.world.db s.world.now (fun e => e.phone == phone) < 1 →
        s.HasRoom cfg (.address phone)
    | some ⟨r, .counted _ checkedAt⟩ =>
      recentEvents s.world.db checkedAt (fun e => e.ip == r.ip) < 10 →
        s.HasRoom cfg (.source r.ip)
    | _ => True
  | _ => True

end SendState

def UnracedSendStep (cfg : AuthConfig) (env : Externals) (s : SendState) (e : SendEvent)
    (s' : SendState) : Prop :=
  SendStep cfg env s e s' ∧ s.Unraced cfg e.label

/-- The limiter that a key sees. -/
def SendState.limiter (cfg : AuthConfig) (key : SendKey) (log : List SendEvent) (s : SendState) :
    Limiter where
  now := s.world.now
  admitted := s.requests.countP (PendingSend.admitted key)
  unrecorded := s.requests.countP (PendingSend.unrecorded cfg key)
  recorded := (s.world.db.smsEvents.filter fun e => key.covers e.phone e.ip).map SmsEvent.createdAt
  sent := deliveries key log

/-- The address of a request in flight is as normalized, and its scene is given. -/
def PendingSend.Ready (cfg : AuthConfig) (env : Externals) (p : PendingSend) : Prop :=
  match p.phase with
  | .asked | .answered _ => True
  | .counting phone | .counted phone _ | .sending phone =>
    (normalizeAccount env phone = .ok phone ∧ p.request.scene ≠ "") ∧ isLimited cfg phone = true
  | .storing phone _ | .recording phone _ =>
    normalizeAccount env phone = .ok phone ∧ p.request.scene ≠ ""

/-- The steps of the system, one constructor for each kind. -/
inductive SendMove (cfg : AuthConfig) (env : Externals) (s : SendState) :
    SendLabel → SendEffect → SendState → Prop
  | ask (r : SendRequest) :
      SendMove cfg env s (.ask r.phone r.scene r.clientIP r.authenticated r.digits) .silent
        { s with requests := s.requests ++ [⟨r, .asked⟩] }
  | handle (i : ℕ) (r : SendRequest) (phase phase' : SendPhase) (w : World)
      (hi : s.requests[i]? = some ⟨r, phase⟩)
      (hhandle : r.handle cfg env s.world phase = some (w, phase')) :
      SendMove cfg env s (.handle i) .silent ⟨w, s.requests.set i ⟨r, phase'⟩⟩
  | deliver (i : ℕ) (result : Except String Unit) (r : SendRequest) (phase phase' : SendPhase)
      (effect : SendEffect) (hi : s.requests[i]? = some ⟨r, phase⟩)
      (hdeliver : r.deliver result phase = some (phase', effect)) :
      SendMove cfg env s (.deliver i result) effect
        { s with requests := s.requests.set i ⟨r, phase'⟩ }
  | store (op : Op) :
      SendMove cfg env s (.store op) .silent { s with world := (exec env s.world op).1 }

section
variable {cfg : AuthConfig} {env : Externals} {w w' : World} {s s' : SendState} {e : SendEvent}
  {key : SendKey} {log : List SendEvent}

theorem SendStep.move (h : SendStep cfg env s e s') :
    e.time = s.world.now ∧ SendMove cfg env s e.label e.effect s' := by
  obtain ⟨htime, hstep⟩ := h
  refine ⟨htime, ?_⟩
  obtain ⟨time, label, effect⟩ := e
  unfold SendState.step at hstep
  cases label with
  | ask phone scene clientIP authenticated digits =>
    cases hstep
    exact .ask ⟨phone, scene, clientIP, authenticated, digits⟩
  | handle i =>
    dsimp only at hstep
    split at hstep
    · cases hstep
    next r phase hi =>
    split at hstep
    · cases hstep
    next w phase' hhandle =>
    cases hstep
    exact .handle i r phase phase' w hi hhandle
  | deliver i result =>
    dsimp only at hstep
    split at hstep
    · cases hstep
    next r phase hi =>
    split at hstep
    · cases hstep
    next phase' effect' hdeliver =>
    cases hstep
    exact .deliver i result r phase phase' effect hi hdeliver
  | store op =>
    cases hstep
    exact .store op

/-- Time does not go back and no event is removed. -/
def EventsGrow (w w' : World) : Prop :=
  w.now ≤ w'.now ∧ ∃ extra, w'.db.smsEvents = w.db.smsEvents ++ extra

theorem EventsGrow.of_same (hnow : w'.now = w.now) (hevents : w'.db.smsEvents = w.db.smsEvents) :
    EventsGrow w w' :=
  ⟨hnow.ge, [], by rw [hevents, List.append_nil]⟩

theorem insertSMS_grows (w : World) (phone scene code ip : String) :
    EventsGrow w (insertSMS env w phone scene code ip).1 := by
  rcases h : insertSMS env w phone scene code ip with ⟨w', result⟩
  rcases insertSMS_cases h with ⟨_, -, rfl⟩ | ⟨x, rows, -, -, -, rfl⟩
  · exact EventsGrow.of_same rfl rfl
  · exact EventsGrow.of_same rfl rfl

theorem issueSMS_grows (w : World) (phone scene code ip : String) :
    EventsGrow w (issueSMS env w phone scene code ip).1 := by
  have hinsert : EventsGrow w (insertSMS env w phone scene code ip).1 :=
    insertSMS_grows w phone scene code ip
  unfold issueSMS
  split
  · next heq =>
    rw [heq] at hinsert
    exact hinsert
  · next w' heq =>
    rw [heq] at hinsert
    obtain ⟨hnow, extra, hevents⟩ := hinsert
    refine ⟨hnow, extra ++ [⟨phone, ip, w'.now⟩], ?_⟩
    show w'.db.smsEvents ++ _ = _
    rw [hevents, List.append_assoc]

theorem verifySMS_grows (w : World) (phone scene code : String) :
    EventsGrow w (verifySMS env w phone scene code).1 := by
  unfold verifySMS
  split
  · exact EventsGrow.of_same rfl rfl
  · unfold consumeSMS
    dsimp only
    split
    · exact EventsGrow.of_same rfl rfl
    · exact EventsGrow.of_same rfl rfl

theorem importLegacySessions_same (env : Externals) (w : World) (rows : List UserRow) :
    (importLegacySessions env w rows).1.now = w.now ∧
      (importLegacySessions env w rows).1.db.smsEvents = w.db.smsEvents := by
  induction rows generalizing w with
  | nil => exact ⟨rfl, rfl⟩
  | cons r rest ih =>
    have hone : (importLegacySession env w r).1.now = w.now ∧
        (importLegacySession env w r).1.db.smsEvents = w.db.smsEvents := by
      unfold importLegacySession
      split
      · exact ⟨rfl, rfl⟩
      split
      · exact ⟨rfl, rfl⟩
      dsimp only
      split
      · exact ⟨rfl, rfl⟩
      · exact ⟨rfl, rfl⟩
    unfold importLegacySessions
    split
    · next heq =>
      rw [heq] at hone
      exact hone
    · next v heq =>
      rw [heq] at hone
      obtain ⟨hnow, hevents⟩ := ih v
      exact ⟨hnow.trans hone.1, hevents.trans hone.2⟩

theorem migrateUnifiedUserIDs_events {db db' : Db} (h : migrateUnifiedUserIDs db = .ok db') :
    db'.smsEvents = db.smsEvents := by
  unfold migrateUnifiedUserIDs at h
  dsimp only at h
  split at h
  · cases h
    unfold deleteOrphanCometSessions
    dsimp only
    split <;> rfl
  split at h
  · cases h
    rfl
  split at h
  · cases h
  next db'' hrebuild =>
  cases h
  unfold rebuildSQLiteUsers at hrebuild
  split at hrebuild
  · cases hrebuild
  · cases hrebuild
    rfl

theorem openStore_same (w : World) :
    (openStore env w).1.now = w.now ∧ (openStore env w).1.db.smsEvents = w.db.smsEvents := by
  unfold openStore
  split
  · exact ⟨rfl, rfl⟩
  next db hmigrate =>
  have hevents := migrateUnifiedUserIDs_events hmigrate
  have himport := importLegacySessions_same env { w with db := db } db.users.rows
  split
  · next heq =>
    rw [migrateLegacyAuthSessions] at heq
    rw [heq] at himport
    exact ⟨himport.1, himport.2.trans hevents⟩
  · next v heq =>
    rw [migrateLegacyAuthSessions] at heq
    rw [heq] at himport
    unfold initBindings
    split
    · exact ⟨himport.1, himport.2.trans hevents⟩
    · exact ⟨himport.1, himport.2.trans hevents⟩

theorem exec_grows (w : World) (op : Op) : EventsGrow w (exec env w op).1 := by
  cases hcall : op.isCall with
  | true =>
    have hchanges : Changes env w (exec env w op).1 := exec_changes w hcall
    exact EventsGrow.of_same hchanges.now hchanges.sameCodes.events
  | false =>
    cases op with
    | setCancellation userID status cancelAt => exact EventsGrow.of_same rfl rfl
    | reopen =>
      simp only [exec, report_fst]
      exact EventsGrow.of_same (openStore_same w).1 (openStore_same w).2
    | advance n => exact ⟨Nat.le_add_right _ _, [], (List.append_nil _).symm⟩
    | issueSMS phone scene code ip =>
      simp only [exec, report_fst]
      exact issueSMS_grows w phone scene code ip
    | mirrorSMS phone scene code ip =>
      simp only [exec, report_fst]
      exact insertSMS_grows w phone scene code ip
    | verifySMS phone scene code =>
      simp only [exec, report_fst]
      exact verifySMS_grows w phone scene code
    | _ => cases hcall

theorem countP_set_add {p : PendingSend → Bool} {l : List PendingSend} {i : ℕ} {a b : PendingSend}
    (hi : l[i]? = some a) :
    (l.set i b).countP p + (if p a then 1 else 0) = l.countP p + (if p b then 1 else 0) := by
  obtain ⟨hlt, ha⟩ := List.getElem?_eq_some_iff.mp hi
  rw [List.countP_set hlt, ha]
  have hpos : p a = true → 0 < l.countP p := by
    intro hp
    exact List.countP_pos_iff.mpr ⟨a, List.mem_of_getElem? hi, hp⟩
  by_cases hp : p a = true
  · have := hpos hp
    simp only [hp, if_true]
    omega
  · simp only [hp, if_false, Bool.false_eq_true]
    omega

theorem deliveries_concat (key : SendKey) (log : List SendEvent) (e : SendEvent) :
    deliveries key (log ++ [e]) = deliveries key log ++ (e.delivery key).toList := by
  unfold deliveries
  rw [List.filterMap_append]
  cases h : e.delivery key with
  | none => simp [h]
  | some t => simp [h]

theorem deliveries_quiet {e : SendEvent} (he : e.delivery key = none) :
    deliveries key (log ++ [e]) = deliveries key log := by
  rw [deliveries_concat, he]
  exact List.append_nil _

/-- A step in which no request of the key moves between the checks and the records. -/
theorem limiter_grow (hgrow : EventsGrow s.world s'.world) (he : e.delivery key = none)
    (hadmitted : s'.requests.countP (PendingSend.admitted key) =
      s.requests.countP (PendingSend.admitted key))
    (hunrecorded : s'.requests.countP (PendingSend.unrecorded cfg key) =
      s.requests.countP (PendingSend.unrecorded cfg key)) :
    Limiter.Step rateWindow key.limit (s.limiter cfg key log)
      (s'.limiter cfg key (log ++ [e])) := by
  obtain ⟨hnow, extra, hevents⟩ := hgrow
  have hstep : Limiter.Step rateWindow key.limit (s.limiter cfg key log) _ := .grow s'.world.now
    ((extra.filter fun e => key.covers e.phone e.ip).map SmsEvent.createdAt) hnow
  unfold SendState.limiter at hstep ⊢
  rw [deliveries_quiet he, hadmitted, hunrecorded, hevents, List.filter_append, List.map_append]
  exact hstep

section
variable {i : ℕ} {r : SendRequest} {phase phase' : SendPhase}

/-- Nothing about this request matters to the key, before or after. -/
theorem limiter_set_grow (hi : s.requests[i]? = some ⟨r, phase⟩) {w : World}
    (hgrow : EventsGrow s.world w) (he : e.delivery key = none)
    (hadmitted : PendingSend.admitted key ⟨r, phase'⟩ = PendingSend.admitted key ⟨r, phase⟩)
    (hunrecorded : PendingSend.unrecorded cfg key ⟨r, phase'⟩ =
      PendingSend.unrecorded cfg key ⟨r, phase⟩) :
    Limiter.Step rateWindow key.limit (s.limiter cfg key log)
      (SendState.limiter cfg key (log ++ [e]) ⟨w, s.requests.set i ⟨r, phase'⟩⟩) := by
  have hcount := countP_set_add (p := PendingSend.admitted key) (b := ⟨r, phase'⟩) hi
  have hcount' := countP_set_add (p := PendingSend.unrecorded cfg key) (b := ⟨r, phase'⟩) hi
  rw [hadmitted] at hcount
  rw [hunrecorded] at hcount'
  exact limiter_grow hgrow he (Nat.add_right_cancel hcount) (Nat.add_right_cancel hcount')

theorem limiter_enter (hi : s.requests[i]? = some ⟨r, phase⟩) (he : e.delivery key = none)
    (hbefore : PendingSend.admitted key ⟨r, phase⟩ = false)
    (hafter : PendingSend.admitted key ⟨r, phase'⟩ = true)
    (hunrecorded : PendingSend.unrecorded cfg key ⟨r, phase'⟩ =
      PendingSend.unrecorded cfg key ⟨r, phase⟩) (hroom : s.HasRoom cfg key) :
    Limiter.Step rateWindow key.limit (s.limiter cfg key log)
      (SendState.limiter cfg key (log ++ [e]) ⟨s.world, s.requests.set i ⟨r, phase'⟩⟩) := by
  have hcount := countP_set_add (p := PendingSend.admitted key) (b := ⟨r, phase'⟩) hi
  have hcount' := countP_set_add (p := PendingSend.unrecorded cfg key) (b := ⟨r, phase'⟩) hi
  rw [hbefore, hafter] at hcount
  rw [hunrecorded] at hcount'
  have hsame : recentEvents s.world.db s.world.now (fun e => key.covers e.phone e.ip) =
      recent rateWindow s.world.now
        ((s.world.db.smsEvents.filter fun e => key.covers e.phone e.ip).map
          SmsEvent.createdAt) := by
    unfold recentEvents recent
    rw [List.countP_map, List.countP_filter, List.countP_filter]
    refine List.countP_congr fun e _ => ?_
    simp [and_comm]
  unfold SendState.HasRoom at hroom
  rw [hsame] at hroom
  have hstep := Limiter.Step.enter (s := s.limiter cfg key log) hroom
  unfold SendState.limiter at hstep ⊢
  rw [deliveries_quiet he, Nat.add_right_cancel hcount',
    show (s.requests.set i ⟨r, phase'⟩).countP (PendingSend.admitted key) =
      s.requests.countP (PendingSend.admitted key) + 1 from hcount]
  exact hstep

theorem limiter_drop (hi : s.requests[i]? = some ⟨r, phase⟩) (he : e.delivery key = none)
    (hbefore : PendingSend.admitted key ⟨r, phase⟩ = true)
    (hafter : PendingSend.admitted key ⟨r, phase'⟩ = false)
    (hunrecorded : PendingSend.unrecorded cfg key ⟨r, phase'⟩ =
      PendingSend.unrecorded cfg key ⟨r, phase⟩) :
    Limiter.Step rateWindow key.limit (s.limiter cfg key log)
      (SendState.limiter cfg key (log ++ [e]) ⟨s.world, s.requests.set i ⟨r, phase'⟩⟩) := by
  have hcount := countP_set_add (p := PendingSend.admitted key) (b := ⟨r, phase'⟩) hi
  have hcount' := countP_set_add (p := PendingSend.unrecorded cfg key) (b := ⟨r, phase'⟩) hi
  rw [hbefore, hafter] at hcount
  rw [hunrecorded] at hcount'
  have hstep : Limiter.Step rateWindow key.limit (s.limiter cfg key log) _ :=
    .drop _ hcount.symm
  unfold SendState.limiter at hstep ⊢
  rw [deliveries_quiet he, Nat.add_right_cancel hcount']
  exact hstep

theorem limiter_send (hi : s.requests[i]? = some ⟨r, phase⟩)
    (he : e.delivery key = some s.world.now)
    (hadmitted : PendingSend.admitted key ⟨r, phase⟩ = true)
    (hadmitted' : PendingSend.admitted key ⟨r, phase'⟩ = false)
    (hunrecorded : PendingSend.unrecorded cfg key ⟨r, phase⟩ = false)
    (hunrecorded' : PendingSend.unrecorded cfg key ⟨r, phase'⟩ = true) :
    Limiter.Step rateWindow key.limit (s.limiter cfg key log)
      (SendState.limiter cfg key (log ++ [e]) ⟨s.world, s.requests.set i ⟨r, phase'⟩⟩) := by
  have hcount := countP_set_add (p := PendingSend.admitted key) (b := ⟨r, phase'⟩) hi
  have hcount' := countP_set_add (p := PendingSend.unrecorded cfg key) (b := ⟨r, phase'⟩) hi
  rw [hadmitted, hadmitted'] at hcount
  rw [hunrecorded, hunrecorded'] at hcount'
  have hstep : Limiter.Step rateWindow key.limit (s.limiter cfg key log) _ :=
    .send _ hcount.symm
  unfold SendState.limiter at hstep ⊢
  rw [deliveries_concat, he,
    show (s.requests.set i ⟨r, phase'⟩).countP (PendingSend.unrecorded cfg key) =
      s.requests.countP (PendingSend.unrecorded cfg key) + 1 from hcount']
  exact hstep

theorem limiter_record (hi : s.requests[i]? = some ⟨r, phase⟩) (he : e.delivery key = none)
    {event : SmsEvent} (hevent : key.covers event.phone event.ip = true)
    (htime : event.createdAt = s.world.now)
    (hadmitted : PendingSend.admitted key ⟨r, phase'⟩ = PendingSend.admitted key ⟨r, phase⟩)
    (hbefore : PendingSend.unrecorded cfg key ⟨r, phase⟩ = true)
    (hafter : PendingSend.unrecorded cfg key ⟨r, phase'⟩ = false) :
    Limiter.Step rateWindow key.limit (s.limiter cfg key log)
      (SendState.limiter cfg key (log ++ [e])
        ⟨{ s.world with
            db := { s.world.db with smsEvents := s.world.db.smsEvents ++ [event] } },
          s.requests.set i ⟨r, phase'⟩⟩) := by
  have hcount := countP_set_add (p := PendingSend.admitted key) (b := ⟨r, phase'⟩) hi
  have hcount' := countP_set_add (p := PendingSend.unrecorded cfg key) (b := ⟨r, phase'⟩) hi
  rw [hadmitted] at hcount
  rw [hbefore, hafter] at hcount'
  have hstep : Limiter.Step rateWindow key.limit (s.limiter cfg key log) _ :=
    .record _ hcount'.symm
  unfold SendState.limiter at hstep ⊢
  dsimp only at hstep ⊢
  rw [deliveries_quiet he, Nat.add_right_cancel hcount, List.filter_append, List.map_append,
    List.filter_singleton, hevent]
  simpa [htime] using hstep

theorem handle_asked {w : World} (h : r.handle cfg env s.world .asked = some (w, phase')) :
    w = s.world ∧ ((∃ reply, phase' = .answered reply) ∨
      ∃ x, (normalizeAccount env x = .ok x ∧ r.scene ≠ "") ∧
        (phase' = .counting x ∧ isLimited cfg x = true ∨
          phase' = .storing x (lastSix x) ∧ isLimited cfg x = false)) := by
  unfold SendRequest.handle at h
  dsimp only at h
  split at h
  · cases h
    exact ⟨rfl, Or.inl ⟨_, rfl⟩⟩
  next x hx =>
  split at h
  · cases h
    exact ⟨rfl, Or.inl ⟨_, rfl⟩⟩
  next hscene =>
  split at h
  · cases h
    exact ⟨rfl, Or.inl ⟨_, rfl⟩⟩
  · cases h
    exact ⟨rfl, Or.inl ⟨_, rfl⟩⟩
  · cases h
    refine ⟨rfl, Or.inr ⟨x, ⟨normalizeAccount_idem hx, hscene⟩, ?_⟩⟩
    cases hlimited : isLimited cfg x with
    | true => exact Or.inl ⟨rfl, rfl⟩
    | false => exact Or.inr ⟨rfl, rfl⟩

/-- A step of a request is a step of the limiter that the key sees. -/
theorem handle_limiter (key : SendKey) (log : List SendEvent)
    (hi : s.requests[i]? = some ⟨r, phase⟩) (he : e.delivery key = none)
    (hready : PendingSend.Ready cfg env ⟨r, phase⟩) (hunraced : s.Unraced cfg (.handle i))
    {w : World}
    (hhandle : r.handle cfg env s.world phase = some (w, phase')) :
    Limiter.Step rateWindow key.limit (s.limiter cfg key log)
        (SendState.limiter cfg key (log ++ [e]) ⟨w, s.requests.set i ⟨r, phase'⟩⟩) ∧
      PendingSend.Ready cfg env ⟨r, phase'⟩ := by
  have hstay : EventsGrow s.world s.world := EventsGrow.of_same rfl rfl
  unfold SendState.Unraced at hunraced
  dsimp only at hunraced
  rw [hi] at hunraced
  cases phase with
  | asked =>
    obtain ⟨rfl, ⟨reply, rfl⟩ | ⟨x, hx, ⟨rfl, hlimited⟩ | ⟨rfl, hlimited⟩⟩⟩ :=
      handle_asked hhandle
    · exact ⟨limiter_set_grow hi hstay he rfl rfl, trivial⟩
    · exact ⟨limiter_set_grow hi hstay he rfl rfl, hx, hlimited⟩
    · refine ⟨limiter_set_grow hi hstay he rfl ?_, hx⟩
      show (isLimited cfg x && _) = false
      rw [hlimited]
      rfl
  | counting x =>
    unfold SendRequest.handle at hhandle
    dsimp only at hhandle hunraced
    split at hhandle
    · cases hhandle
      exact ⟨limiter_set_grow hi hstay he rfl rfl, trivial⟩
    next hcount =>
    cases hhandle
    refine ⟨?_, hready⟩
    cases key with
    | source a => exact limiter_set_grow hi hstay he rfl rfl
    | address y =>
      by_cases hxy : x = y
      · subst hxy
        have hroom := hunraced (Nat.lt_of_not_le hcount)
        exact limiter_enter hi he rfl (beq_self_eq_true x) rfl hroom
      · exact limiter_set_grow hi hstay he (beq_eq_false_iff_ne.mpr hxy) rfl
  | counted x checkedAt =>
    unfold SendRequest.handle at hhandle
    dsimp only at hhandle hunraced
    split at hhandle
    · cases hhandle
      refine ⟨?_, trivial⟩
      cases key with
      | source a => exact limiter_set_grow hi hstay he rfl rfl
      | address y =>
        by_cases hxy : x = y
        · subst hxy
          exact limiter_drop hi he (beq_self_eq_true x) rfl rfl
        · exact limiter_set_grow hi hstay he (beq_eq_false_iff_ne.mpr hxy).symm rfl
    next hcount =>
    cases hhandle
    refine ⟨?_, hready⟩
    cases key with
    | address y => exact limiter_set_grow hi hstay he rfl rfl
    | source a =>
      by_cases hip : r.ip = a
      · subst hip
        have hroom := hunraced (Nat.lt_of_not_le hcount)
        exact limiter_enter hi he rfl (beq_self_eq_true r.ip) rfl hroom
      · exact limiter_set_grow hi hstay he (beq_eq_false_iff_ne.mpr hip) rfl
  | sending x => cases hhandle
  | storing x code =>
    obtain ⟨rows, hinsert⟩ := insertSMS_stores s.world code r.ip hready.1 hready.2
    simp only [SendRequest.handle, hinsert] at hhandle
    cases hhandle
    exact ⟨limiter_set_grow hi (EventsGrow.of_same rfl rfl) he rfl rfl, hready⟩
  | recording x code =>
    cases hhandle
    refine ⟨?_, trivial⟩
    by_cases hkey : (isLimited cfg x && key.covers x r.ip) = true
    · have hcovers := ((Bool.and_eq_true _ _).mp hkey).2
      exact limiter_record hi he hcovers rfl rfl hkey rfl
    · have hfalse : (isLimited cfg x && key.covers x r.ip) = false := by simpa using hkey
      exact limiter_set_grow hi ⟨le_rfl, _, rfl⟩ he rfl hfalse.symm
  | answered reply => cases hhandle

/-- An answer of the provider is a step of the limiter as well. -/
theorem deliver_limiter (key : SendKey) (log : List SendEvent) (label : SendLabel)
    {result : Except String Unit} {effect : SendEffect} (hi : s.requests[i]? = some ⟨r, phase⟩)
    (hready : PendingSend.Ready cfg env ⟨r, phase⟩)
    (hdeliver : r.deliver result phase = some (phase', effect)) :
    Limiter.Step rateWindow key.limit (s.limiter cfg key log)
        (SendState.limiter cfg key (log ++ [⟨s.world.now, label, effect⟩])
          ⟨s.world, s.requests.set i ⟨r, phase'⟩⟩) ∧
      PendingSend.Ready cfg env ⟨r, phase'⟩ := by
  have hstay : EventsGrow s.world s.world := EventsGrow.of_same rfl rfl
  cases phase with
  | sending x =>
    by_cases hkey : key.covers x r.ip = true
    · cases result with
      | error e =>
        cases hdeliver
        exact ⟨limiter_drop hi rfl hkey rfl rfl, trivial⟩
      | ok =>
        cases hdeliver
        refine ⟨limiter_send hi (if_pos hkey) hkey rfl rfl ?_, hready.1⟩
        show (isLimited cfg x && key.covers x r.ip) = true
        rw [hready.2, hkey]
        rfl
    · have hfalse : key.covers x r.ip = false := by simpa using hkey
      cases result with
      | error e =>
        cases hdeliver
        exact ⟨limiter_set_grow hi hstay rfl hfalse.symm rfl, trivial⟩
      | ok =>
        cases hdeliver
        refine ⟨limiter_set_grow hi hstay (if_neg hkey) hfalse.symm ?_, hready.1⟩
        show (isLimited cfg x && key.covers x r.ip) = false
        rw [hfalse, Bool.and_false]
  | asked => cases hdeliver
  | counting x => cases hdeliver
  | counted x checkedAt => cases hdeliver
  | storing x code => cases hdeliver
  | recording x code => cases hdeliver
  | answered reply => cases hdeliver

end

/-- What holds in every state of an unraced run. -/
structure SendInv (cfg : AuthConfig) (env : Externals) (log : List SendEvent) (s : SendState) :
    Prop where
  ready : ∀ p ∈ s.requests, PendingSend.Ready cfg env p
  kept : ∀ key : SendKey, (s.limiter cfg key log).Kept rateWindow key.limit

theorem SendInv.step (h : SendInv cfg env log s) (hstep : UnracedSendStep cfg env s e s') :
    SendInv cfg env (log ++ [e]) s' := by
  obtain ⟨hstep, hunraced⟩ := hstep
  obtain ⟨htime, hmove⟩ := hstep.move
  obtain ⟨time, label, effect⟩ := e
  cases hmove with
  | ask r =>
    refine ⟨fun p hp => ?_, fun key => (h.kept key).step ?_⟩
    · rcases List.mem_append.mp hp with hold | hnew
      · exact h.ready p hold
      · rw [List.mem_singleton.mp hnew]
        trivial
    · refine limiter_grow (EventsGrow.of_same rfl rfl) rfl ?_ ?_
      · rw [List.countP_append]
        rfl
      · rw [List.countP_append]
        rfl
  | handle i r phase phase' w hi hhandle =>
    have hready := h.ready _ (List.mem_of_getElem? hi)
    refine ⟨fun p hp => ?_, fun key => (h.kept key).step ?_⟩
    · rcases List.mem_or_eq_of_mem_set hp with hold | rfl
      · exact h.ready p hold
      · have hquiet : SendEvent.delivery (.address "") ⟨time, .handle i, .silent⟩ = none := rfl
        exact (handle_limiter _ log hi hquiet hready hunraced hhandle).2
    · exact (handle_limiter key log hi rfl hready hunraced hhandle).1
  | deliver i result r phase phase' _ hi hdeliver =>
    have htime' : time = s.world.now := htime
    subst htime'
    have hready := h.ready _ (List.mem_of_getElem? hi)
    refine ⟨fun p hp => ?_, fun key => (h.kept key).step ?_⟩
    · rcases List.mem_or_eq_of_mem_set hp with hold | rfl
      · exact h.ready p hold
      · exact (deliver_limiter (.address "") log (.deliver i result) hi hready hdeliver).2
    · exact (deliver_limiter key log _ hi hready hdeliver).1
  | store op =>
    exact ⟨h.ready, fun key => (h.kept key).step (limiter_grow (exec_grows s.world op) rfl rfl rfl)⟩

theorem SendInv.start (w : World) : SendInv cfg env [] (SendState.start w) := by
  refine ⟨fun p hp => (by cases hp), fun key => ⟨fun u hu => (by cases hu), fun t => ?_, ?_, ?_⟩⟩
  · exact Nat.zero_le _
  · exact Nat.zero_le _
  · exact fun t => Nat.zero_le _

/-- When no request passes a check whose room another one in flight has used up, the limits hold
in every window. -/
theorem send_limits_hold (h : Run (UnracedSendStep cfg env) (SendState.start w) log s) :
    LimitsKept log := by
  have hinv := h.history (P := SendInv cfg env) (fun _ hinv hstep => hinv.step hstep)
    (SendInv.start w)
  exact fun key t => (hinv.kept key).windows t

end

instance SendState.decidableUnraced (cfg : AuthConfig) (s : SendState) (l : SendLabel) :
    Decidable (s.Unraced cfg l) := by
  unfold SendState.Unraced
  split
  · split <;> infer_instance
  · infer_instance

/-- The history of a list of steps when all of them can be taken and none is raced. -/
def SendState.runUnraced (cfg : AuthConfig) (env : Externals) (s : SendState) :
    List SendLabel → Option (List SendEvent × SendState)
  | [] => some ([], s)
  | l :: rest =>
    if s.Unraced cfg l then
      (s.step cfg env l).bind fun p =>
        (p.1.runUnraced cfg env rest).map fun q => (⟨s.world.now, l, p.2⟩ :: q.1, q.2)
    else none

theorem SendState.runUnraced_run {cfg : AuthConfig} {env : Externals} {s s' : SendState}
    {log : List SendEvent} {labels : List SendLabel}
    (h : s.runUnraced cfg env labels = some (log, s')) :
    Run (UnracedSendStep cfg env) s log s' := by
  induction labels generalizing s log with
  | nil =>
    cases h
    exact Run.refl _
  | cons l rest ih =>
    unfold runUnraced at h
    split at h
    · next hunraced =>
      obtain ⟨⟨t, effect⟩, hstep, hrest⟩ := Option.bind_eq_some_iff.mp h
      obtain ⟨⟨log', t'⟩, hrun, heq⟩ := Option.map_eq_some_iff.mp hrest
      cases heq
      exact Run.append (Run.single ⟨⟨rfl, hstep⟩, hunraced⟩) (ih hrun)
    · cases h

/-- Real messages, and everybody may register. -/
def realMessages : AuthConfig := ⟨false, true, true, false⟩

def askForCode : SendLabel := .ask "13800000000" "account" "10.0.0.1" false "123456"

/-- A code is sent and recorded, and a second request comes while it is in flight. -/
def spacedRequests : List SendLabel :=
  [askForCode, .handle 0, .handle 0, askForCode, .handle 1, .handle 0, .deliver 0 (.ok ()),
    .handle 0, .handle 0, .handle 1, .store (.advance 61), askForCode, .handle 2, .handle 2,
    .handle 2, .deliver 2 (.ok ())]

theorem spaced_requests_keep_limits :
    ∃ log s, SendState.runUnraced realMessages .unary (SendState.start (World.fresh .unary 0))
        spacedRequests = some (log, s) ∧
      deliveries (.address "13800000000") log = [0, 61] ∧ LimitsKept log := by
  have hmap : (SendState.runUnraced realMessages .unary (SendState.start (World.fresh .unary 0))
      spacedRequests).map (fun p => deliveries (.address "13800000000") p.1) =
        some [0, 61] := by decide +kernel
  obtain ⟨⟨log, s⟩, hrun, hsent⟩ := Option.map_eq_some_iff.mp hmap
  exact ⟨log, s, hrun, hsent, send_limits_hold (SendState.runUnraced_run hrun)⟩

/-- Two requests for one address are counted before either is recorded. -/
def racingRequests : List SendLabel :=
  [askForCode, askForCode, .handle 0, .handle 1, .handle 0, .handle 1, .handle 0, .handle 1,
    .deliver 0 (.ok ()), .deliver 1 (.ok ())]

theorem racing_requests_deliver_twice :
    ∃ log s, SendRun realMessages .unary (SendState.start (World.fresh .unary 0)) log s ∧
      deliveries (.address "13800000000") log = [0, 0] ∧ ¬ LimitsKept log := by
  have hsent : deliveries (.address "13800000000")
      ((SendState.start (World.fresh .unary 0)).runAll realMessages .unary racingRequests).1 =
        [0, 0] := by decide +kernel
  refine ⟨_, _, SendState.runAll_run realMessages .unary _ racingRequests, hsent, fun h => ?_⟩
  have hle := h (.address "13800000000") 0
  rw [hsent] at hle
  exact absurd hle (by decide)

end PapeSdk
