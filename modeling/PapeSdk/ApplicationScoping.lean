import PapeSdk.Applications

/-!
Which application a request belongs to. A loaded configuration gives every
client identifier to one application, so the choice is a property of the map
and not of the order in which a loop walks it. The signing keys and the
resource directory are then those of one application, and a request that
names an unknown application gets no resource of another.
-/

namespace PapeSdk

open BlockModes AsciiBytes TextCodecs FilePaths

theorem itoa_injective {m n : ℤ} (h : itoa m = itoa n) : m = n := by
  have hminus : ∀ k, (45 : UInt8) ∉ decimal k := by
    intro k hk
    exact absurd (digit_of_mem_decimal hk).1 (by decide)
  cases m with
  | ofNat m =>
    cases n with
    | ofNat n => exact congrArg Int.ofNat (decimal_injective h)
    | negSucc n => exact absurd (h ▸ List.mem_cons_self : (45 : UInt8) ∈ itoa (.ofNat m)) (hminus m)
  | negSucc m =>
    cases n with
    | ofNat n => exact absurd (h ▸ List.mem_cons_self : (45 : UInt8) ∈ itoa (.ofNat n)) (hminus n)
    | negSucc n =>
      have hsucc := decimal_injective (List.cons.inj h).2
      rw [Nat.succ.inj hsucc]

/-- Every application carries its own name, and no client identifier twice. -/
structure DistinctApplications (applications : TextMap Application) : Prop where
  named : ∀ (id : Bytes) (app : Application), applications[id]? = some app → app.appID = id
  clients : ∀ (id id' : Bytes) (app app' : Application), applications[id]? = some app →
    applications[id']? = some app' → app.clientID = app'.clientID → id = id'

/-- What the loop leaves of the applications it was given. -/
structure Loaded (order : Order) (seen : List ℤ) (before after : TextMap Application) : Prop where
  untouched : ∀ id ∉ order.map Prod.fst, after[id]? = before[id]?
  named : ∀ id ∈ order.map Prod.fst, ∀ app : Application, after[id]? = some app → app.appID = id
  fresh : ∀ id ∈ order.map Prod.fst, ∀ app : Application, after[id]? = some app →
    app.clientID ∉ seen
  clients : ∀ id ∈ order.map Prod.fst, ∀ id' ∈ order.map Prod.fst, ∀ app app' : Application,
    after[id]? = some app → after[id']? = some app' → app.clientID = app'.clientID → id = id'

theorem Loaded.cons {id : Bytes} {app : Application} {rest : Order} {seen : List ℤ}
    {before after : TextMap Application} (old : Application)
    (h : Loaded rest (app.clientID :: seen) (before.insert id app) after)
    (hname : app.appID = id) (hfresh : app.clientID ∉ seen) (hid : id ∉ rest.map Prod.fst) :
    Loaded ((id, old) :: rest) seen before after := by
  have hself : after[id]? = some app := by
    rw [h.untouched id hid, Std.ExtTreeMap.getElem?_insert_self]
  have hother : ∀ k, k ≠ id → (before.insert id app)[k]? = before[k]? := by
    intro k hk
    rw [Std.ExtTreeMap.getElem?_insert, if_neg]
    exact fun heq => hk (Std.LawfulEqOrd.eq_of_compare heq).symm
  constructor
  · intro k hk
    simp only [List.map_cons, List.mem_cons, not_or] at hk
    rw [h.untouched k hk.2, hother k hk.1]
  · intro k hk a ha
    rcases List.mem_cons.mp hk with rfl | hk
    · rw [hself, Option.some.injEq] at ha
      exact ha ▸ hname
    · exact h.named k hk a ha
  · intro k hk a ha
    rcases List.mem_cons.mp hk with rfl | hk
    · rw [hself, Option.some.injEq] at ha
      exact ha ▸ hfresh
    · exact fun hmem => h.fresh k hk a ha (List.mem_cons_of_mem _ hmem)
  · intro k hk k' hk' a a' ha ha' heq
    rcases List.mem_cons.mp hk with rfl | htail
    · rcases List.mem_cons.mp hk' with rfl | htail'
      · rfl
      · rw [hself, Option.some.injEq] at ha
        have hclash : a'.clientID ∈ app.clientID :: seen := by
          rw [← heq, ← ha]
          exact List.mem_cons_self
        exact absurd hclash (h.fresh k' htail' a' ha')
    · rcases List.mem_cons.mp hk' with rfl | htail'
      · rw [hself, Option.some.injEq] at ha'
        have hclash : a.clientID ∈ app.clientID :: seen := by
          rw [heq, ← ha']
          exact List.mem_cons_self
        exact absurd hclash (h.fresh k htail a ha)
      · exact h.clients k htail k' htail' a a' ha ha' heq

theorem loadApplications_loaded {order : Order} {seen : List ℤ}
    {before after : TextMap Application} (hnodup : (order.map Prod.fst).Nodup)
    (h : loadApplications order seen before = .ok after) : Loaded order seen before after := by
  induction order generalizing seen before with
  | nil =>
    cases h
    exact ⟨fun _ _ => rfl, by simp, by simp, by simp⟩
  | cons entry rest ih =>
    obtain ⟨id, old⟩ := entry
    rw [List.map_cons, List.nodup_cons] at hnodup
    simp only [loadApplications] at h
    generalize (if old.appID = [] then { old with appID := id } else old) = app at h
    split at h
    · cases h
    next hvalid =>
    split at h
    · cases h
    next hfresh =>
    have hname : app.appID = id := by
      by_contra hne
      exact hvalid (Or.inl hne)
    exact Loaded.cons old (ih hnodup.2 h) hname hfresh hnodup.1

theorem keys_nodup (applications : TextMap Application) :
    (applications.toList.map Prod.fst).Nodup := by
  rw [List.nodup_iff_pairwise_ne, List.pairwise_map]
  refine applications.distinct_keys_toList.imp ?_
  intro a b h heq
  exact h (heq ▸ Std.ReflCmp.compare_self)

theorem Order.Of.mem_iff {order : Order} {applications : TextMap Application}
    (h : order.Of applications) {id : Bytes} {app : Application} :
    (id, app) ∈ order ↔ applications[id]? = some app := by
  rw [List.Perm.mem_iff h, Std.ExtTreeMap.mem_toList_iff_getElem?_eq_some]

theorem loadApplications_distinct {order : Order} {before after : TextMap Application}
    (horder : order.Of before) (h : loadApplications order [] before = .ok after) :
    DistinctApplications after := by
  have hnodup : (order.map Prod.fst).Nodup :=
    (horder.map Prod.fst).nodup_iff.mpr (keys_nodup before)
  have hloaded := loadApplications_loaded hnodup h
  have hkeys : ∀ (id : Bytes) (app : Application), after[id]? = some app →
      id ∈ order.map Prod.fst := by
    intro id app happ
    by_contra hid
    rw [hloaded.untouched id hid] at happ
    exact hid (List.mem_map.mpr ⟨(id, app), horder.mem_iff.mpr happ, rfl⟩)
  constructor
  · intro id app happ
    exact hloaded.named id (hkeys id app happ) app happ
  · intro id id' app app' happ happ' heq
    exact hloaded.clients id (hkeys id app happ) id' (hkeys id' app' happ') app app' happ happ' heq

/-- A configuration that loading returns has distinct applications. -/
theorem Config.load_distinct {order : Order} {decoded cfg : Config} {path : Path}
    (horder : order.Of decoded.applications) (h : Config.load order decoded path = .ok cfg) :
    DistinctApplications cfg.applications := by
  rw [Config.load] at h
  dsimp only at h
  cases happs : loadApplications order [] decoded.applications with
  | error e =>
    rw [happs] at h
    cases h
  | ok applications =>
    rw [happs] at h
    simp only [bind, Except.bind, pure, Except.pure] at h
    have hdistinct := loadApplications_distinct horder happs
    split at h
    · split at h
      · cases h
        exact hdistinct
      · cases h
    · cases h
      exact hdistinct

/-- The application of a result, when the result says that there is one. -/
def selected (r : Application × Bool) : Option Application := if r.2 then some r.1 else none

/-- The applications that a region or a channel selects, in the order given. -/
def candidates (clientID region channel : Bytes) (order : Order) : Order :=
  order.filter fun e => Config.inScope e.2 clientID region channel

section Scan

variable {clientID region channel : Bytes} {order : Order}

theorem scan_exact {id : Bytes} {app : Application} (found : Application) (count : ℕ)
    (hmem : (id, app) ∈ order) (hexact : clientID = itoa app.clientID)
    (hunique : ∀ e ∈ order, clientID = itoa e.2.clientID → e.2 = app) :
    Config.scan clientID region channel order found count = (app, true) := by
  induction order generalizing found count with
  | nil => cases hmem
  | cons entry rest ih =>
    obtain ⟨id', app'⟩ := entry
    rw [Config.scan]
    by_cases hhead : clientID = itoa app'.clientID
    · have hsame : app' = app := hunique _ List.mem_cons_self hhead
      rw [if_pos hhead, hsame]
    · rw [if_neg hhead]
      have hrest : (id, app) ∈ rest := by
        rcases List.mem_cons.mp hmem with heq | hrest
        · cases heq
          exact absurd hexact hhead
        · exact hrest
      have huniqueRest : ∀ e ∈ rest, clientID = itoa e.2.clientID → e.2 = app :=
        fun e he => hunique e (List.mem_cons_of_mem _ he)
      split
      · exact ih _ _ hrest huniqueRest
      · exact ih _ _ hrest huniqueRest

/-- Without an exact client the loop remembers the last application in scope
and counts them all. -/
theorem scan_inexact (found : Application) (count : ℕ)
    (hnone : ∀ e ∈ order, clientID ≠ itoa e.2.clientID) :
    Config.scan clientID region channel order found count =
      (((candidates clientID region channel order).getLast?.map Prod.snd).getD found,
        count + (candidates clientID region channel order).length == 1) := by
  induction order generalizing found count with
  | nil => rfl
  | cons entry rest ih =>
    obtain ⟨id, app⟩ := entry
    have hhead : ¬clientID = itoa app.clientID := hnone _ List.mem_cons_self
    have hrest : ∀ e ∈ rest, clientID ≠ itoa e.2.clientID :=
      fun e he => hnone e (List.mem_cons_of_mem _ he)
    rw [Config.scan, if_neg hhead]
    split
    · next hscope =>
      have hcons : candidates clientID region channel ((id, app) :: rest) =
          (id, app) :: candidates clientID region channel rest := List.filter_cons_of_pos hscope
      rw [ih app (count + 1) hrest, hcons, List.length_cons, Nat.add_right_comm, Nat.add_assoc]
      cases hlast : (candidates clientID region channel rest).getLast? with
      | none =>
        rw [List.getLast?_eq_none_iff.mp hlast]
        rfl
      | some e =>
        rw [List.getLast?_cons, hlast]
        rfl
    · next hscope =>
      have hcons : candidates clientID region channel ((id, app) :: rest) =
          candidates clientID region channel rest := List.filter_cons_of_neg hscope
      rw [ih found count hrest, hcons]

theorem selected_scan_inexact (hnone : ∀ e ∈ order, clientID ≠ itoa e.2.clientID)
    (app : Application) :
    selected (Config.scan clientID region channel order Application.zero 0) = some app ↔
      ∃ id, candidates clientID region channel order = [(id, app)] := by
  rw [scan_inexact _ _ hnone]
  rcases candidates clientID region channel order with _ | ⟨⟨id, a⟩, _ | ⟨b, rest⟩⟩
  · simp [selected]
  · simp [selected]
  · simp [selected]

end Scan

/-- The choice is the same whatever order the map is walked in. -/
theorem application_order {applications : TextMap Application} {o₁ o₂ : Order} (c : Config)
    (hdistinct : DistinctApplications applications) (h₁ : o₁.Of applications)
    (h₂ : o₂.Of applications) (appID clientID region channel : Bytes) :
    selected (c.application o₁ appID clientID region channel) =
      selected (c.application o₂ appID clientID region channel) := by
  unfold Config.application
  by_cases happID : appID ≠ []
  · rw [if_pos happID, if_pos happID]
  rw [if_neg happID, if_neg happID]
  have hperm : o₁.Perm o₂ := List.Perm.trans h₁ (List.Perm.symm h₂)
  by_cases hexact : ∃ e ∈ o₁, clientID = itoa e.2.clientID
  · obtain ⟨⟨id, app⟩, hmem, hclient⟩ := hexact
    have hunique : ∀ e ∈ o₁, clientID = itoa e.2.clientID → e.2 = app := by
      rintro ⟨id', app'⟩ hmem' hclient'
      have hid := hdistinct.clients id id' app app' (h₁.mem_iff.mp hmem) (h₁.mem_iff.mp hmem')
        (itoa_injective (hclient.symm.trans hclient'))
      have hsame := h₁.mem_iff.mp hmem'
      rw [← hid, h₁.mem_iff.mp hmem, Option.some.injEq] at hsame
      exact hsame.symm
    rw [scan_exact _ _ hmem hclient hunique,
      scan_exact _ _ (hperm.mem_iff.mp hmem) hclient fun e he =>
        hunique e (hperm.mem_iff.mpr he)]
  · have hnone₁ : ∀ e ∈ o₁, clientID ≠ itoa e.2.clientID :=
      fun e he heq => hexact ⟨e, he, heq⟩
    have hnone₂ : ∀ e ∈ o₂, clientID ≠ itoa e.2.clientID :=
      fun e he => hnone₁ e (hperm.mem_iff.mpr he)
    have hfilter : (candidates clientID region channel o₁).Perm
        (candidates clientID region channel o₂) := hperm.filter _
    apply Option.ext
    intro app
    rw [selected_scan_inexact hnone₁, selected_scan_inexact hnone₂]
    constructor
    · rintro ⟨id, hid⟩
      rw [hid] at hfilter
      exact ⟨id, List.perm_singleton.mp hfilter.symm⟩
    · rintro ⟨id, hid⟩
      rw [hid] at hfilter
      exact ⟨id, List.perm_singleton.mp hfilter⟩

theorem area_slash_free : slash ∉ bytesOf "privacyagreement_area_" ∧ slash ∉ bytesOf ".json" := by
  decide

/-- No resource is named by more than one path element. -/
theorem Resource.fileName_plain (r : Resource) : Plain r.fileName := by
  cases r with
  | privacyAgreementArea n =>
    have hdigits : slash ∉ decimal n := by
      intro h
      exact absurd (digit_of_mem_decimal h).1 (by decide)
    have hlength : 2 < (Resource.privacyAgreementArea n).fileName.length := by
      have harea : (bytesOf "privacyagreement_area_").length = 22 := by decide
      simp only [Resource.fileName, List.length_append, harea]
      omega
    refine ⟨?_, ?_, ?_, ?_⟩
    · intro h
      rw [h] at hlength
      exact absurd hlength (by decide)
    · intro h
      rw [h] at hlength
      exact absurd hlength (by decide)
    · intro h
      rw [h] at hlength
      exact absurd hlength (by decide)
    · simp only [Resource.fileName, List.mem_append, not_or]
      exact ⟨⟨area_slash_free.1, hdigits⟩, area_slash_free.2⟩
  | _ => decide +kernel

theorem baseName_plain {name : Bytes} (h : Plain name) : baseName name = name := by
  have htrim : (name.reverse.dropWhile (· == slash)).reverse = name := by
    cases hlast : name.reverse with
    | nil => rw [List.reverse_eq_nil_iff.mp hlast]; rfl
    | cons b rest =>
      have hmem : b ∈ name := by
        rw [← List.mem_reverse, hlast]
        exact List.mem_cons_self
      have hb : (b == slash) = false := by
        rw [beq_eq_false_iff_ne]
        rintro rfl
        exact h.no_slash hmem
      rw [List.dropWhile_cons, hb]
      simp only [Bool.false_eq_true, if_false]
      rw [← hlast, List.reverse_reverse]
  rw [baseName, if_neg h.nonempty, htrim]
  simp only [if_neg h.nonempty, List.splitOn_eq_singleton h.no_slash]
  rfl

namespace Config

theorem resolve_child (c : Config) (dir : Path) {name : Bytes} (h : Plain name) :
    c.resolve (dir.child name) = (c.resolve dir).child name := by
  unfold resolve
  rw [Path.rooted_child]
  split
  · rfl
  · exact Path.append_child h c.baseDir dir

theorem fileIn_eq (c : Config) {dir name : Bytes} (hdir : dir ≠ []) (h : Plain name) :
    c.fileIn dir name = (c.directory dir).child name := by
  rw [fileIn, Path.join_plain hdir h, c.resolve_child _ h, directory]

def unconfigured : Bytes := bytesOf "config/unconfigured-application"

theorem placeholder_eq (c : Config) {name : Bytes} (h : Plain name) :
    c.resolve (Path.clean (bytesOf "config/unconfigured-application/" ++ baseName name)) =
      (c.directory unconfigured).child name := by
  have hslash : bytesOf "config/unconfigured-application/" ++ name =
      unconfigured ++ slash :: name := by
    have htext : bytesOf "config/unconfigured-application/" = unconfigured ++ [slash] := by
      decide +kernel
    rw [htext, List.append_assoc]
    rfl
  have hdir : unconfigured ≠ [] := by decide
  have hjoin : Path.clean (unconfigured ++ slash :: name) = Path.join unconfigured name := by
    rw [Path.join, if_neg hdir, if_neg h.nonempty]
  rw [baseName_plain h, hslash, hjoin]
  exact c.fileIn_eq hdir h

end Config

theorem textAt_ne_nil {m : TextMap Bytes} {key : Bytes} (h : textAt m key ≠ []) :
    m[key]? = some (textAt m key) := by
  unfold textAt at h ⊢
  cases hget : m[key]? with
  | none =>
    rw [hget] at h
    exact absurd rfl h
  | some value => rfl

theorem Values.textAt_firstValues (form : Values) (key : Bytes) :
    textAt form.firstValues key = form.get key := by
  rw [textAt, Values.firstValues, Std.ExtTreeMap.getElem?_filterMap', Values.get]

theorem eq_of_selected {r : Application × Bool} {app : Application} (h : selected r = some app) :
    r = (app, true) := by
  obtain ⟨found, ok⟩ := r
  cases ok with
  | false => cases h
  | true =>
    cases h
    rfl

namespace App

variable {a : App} {order : Order} {form : Values} {app : Application}

/-- The signing keys are those of the application chosen for the resources. -/
theorem bffFor_selected (happ : selected (a.requestApplication order form) = some app)
    (huser : a.forUserCenter form.firstValues = false) :
    a.bffFor order form.firstValues = app.bff := by
  have hresult := eq_of_selected happ
  rw [requestApplication] at hresult
  simp only [bffFor, huser, Values.textAt_firstValues]
  simp only [Bool.false_eq_true, if_false, hresult, if_true]

/-- The directory of a game client, when it has one. -/
theorem fallbackPath_dir {clientID name : Bytes} {ownPath : Option Path}
    (hdir : textAt a.cfg.gameConfigDirs clientID ≠ []) (hname : Plain name) :
    ∃ dir : Bytes, a.cfg.gameConfigDirs[clientID]? = some dir ∧
      a.fallbackPath form clientID ownPath name = (a.cfg.directory dir).child name := by
  refine ⟨_, textAt_ne_nil hdir, ?_⟩
  unfold fallbackPath
  rw [if_pos hdir, a.cfg.fileIn_eq hdir hname]

theorem requestConfigPath_selected (stat : Path → FileStatus) {name : Bytes}
    (happ : selected (a.requestApplication order form) = some app) (hown : app.configDir ≠ [])
    (hname : Plain name) :
    a.requestConfigPath order stat form name = (a.cfg.directory app.configDir).child name ∨
      ∃ dir : Bytes, a.cfg.gameConfigDirs[app.gameClientID]? = some dir ∧
        a.requestConfigPath order stat form name = (a.cfg.directory dir).child name := by
  have hscoped : a.cfg.applicationConfigPath app name =
      (a.cfg.directory app.configDir).child name := by
    rw [Config.applicationConfigPath, if_pos hown, a.cfg.fileIn_eq hown hname]
  rw [requestConfigPath, eq_of_selected happ]
  simp only [if_true]
  split
  · exact Or.inl hscoped
  · by_cases hdir : textAt a.cfg.gameConfigDirs app.gameClientID ≠ []
    · exact Or.inr (fallbackPath_dir hdir hname)
    · refine Or.inl ?_
      unfold fallbackPath
      rw [if_neg hdir]
      exact hscoped

theorem requestApplication_unknown (hid : form.get (bytesOf "app_id") ≠ [])
    (hunknown : a.cfg.applications[form.get (bytesOf "app_id")]? = none) :
    a.requestApplication order form = (Application.zero, false) := by
  rw [requestApplication, Config.application, if_pos hid, hunknown]

theorem requestConfigPath_unknown (stat : Path → FileStatus) {name : Bytes}
    (hid : form.get (bytesOf "app_id") ≠ [])
    (hunknown : a.cfg.applications[form.get (bytesOf "app_id")]? = none) (hname : Plain name) :
    (∃ dir : Bytes, a.cfg.gameConfigDirs[firstNonEmpty
        [form.get (bytesOf "clientid"), form.get (bytesOf "client_id")]]? = some dir ∧
      a.requestConfigPath order stat form name = (a.cfg.directory dir).child name) ∨
    a.requestConfigPath order stat form name =
      (a.cfg.directory Config.unconfigured).child name := by
  rw [requestConfigPath, requestApplication_unknown hid hunknown]
  simp only [Bool.false_eq_true, if_false]
  by_cases hdir : textAt a.cfg.gameConfigDirs (firstNonEmpty
      [form.get (bytesOf "clientid"), form.get (bytesOf "client_id")]) ≠ []
  · exact Or.inl (fallbackPath_dir hdir hname)
  · refine Or.inr ?_
    unfold fallbackPath
    rw [if_neg hdir]
    simp only [if_pos hid]
    exact a.cfg.placeholder_eq hname

end App

/-- Whatever order each call walks the map in: one application is chosen, its
keys sign, its own directory or that of its game client serves, and an unknown
application is served nothing that belongs to another. -/
theorem applications_are_scoped {loadOrder : Order} {decoded cfg : Config} {path : Path}
    (hdecoded : loadOrder.Of decoded.applications)
    (hload : Config.load loadOrder decoded path = .ok cfg) {o₁ o₂ o₃ : Order}
    (h₁ : o₁.Of cfg.applications) (h₂ : o₂.Of cfg.applications) (h₃ : o₃.Of cfg.applications)
    (form : Values) (r : Resource) (stat : Path → FileStatus) :
    (∀ appID clientID region channel, selected (cfg.application o₁ appID clientID region channel) =
      selected (cfg.application o₂ appID clientID region channel)) ∧
    (∀ app, selected ((App.ofConfig cfg).requestApplication o₁ form) = some app →
      ((App.ofConfig cfg).forUserCenter form.firstValues = false →
        (App.ofConfig cfg).bffFor o₂ form.firstValues = app.bff) ∧
      (app.configDir ≠ [] →
        (App.ofConfig cfg).requestConfigPath o₃ stat form r.fileName =
          (cfg.directory app.configDir).child r.fileName ∨
        ∃ dir : Bytes, cfg.gameConfigDirs[app.gameClientID]? = some dir ∧
          (App.ofConfig cfg).requestConfigPath o₃ stat form r.fileName =
            (cfg.directory dir).child r.fileName)) ∧
    (form.get (bytesOf "app_id") ≠ [] →
      cfg.applications[form.get (bytesOf "app_id")]? = none →
      (∃ dir : Bytes, cfg.gameConfigDirs[firstNonEmpty
          [form.get (bytesOf "clientid"), form.get (bytesOf "client_id")]]? = some dir ∧
        (App.ofConfig cfg).requestConfigPath o₃ stat form r.fileName =
          (cfg.directory dir).child r.fileName) ∨
      (App.ofConfig cfg).requestConfigPath o₃ stat form r.fileName =
        (cfg.directory Config.unconfigured).child r.fileName) := by
  have hdistinct := Config.load_distinct hdecoded hload
  have hname := r.fileName_plain
  refine ⟨fun _ _ _ _ => application_order cfg hdistinct h₁ h₂ _ _ _ _, ?_, ?_⟩
  · intro app happ
    have hsame : ∀ {o : Order}, o.Of cfg.applications →
        selected ((App.ofConfig cfg).requestApplication o form) = some app := by
      intro o ho
      rw [← happ]
      exact application_order cfg hdistinct ho h₁ _ _ _ _
    constructor
    · exact fun huser => App.bffFor_selected (hsame h₂) huser
    · exact fun hown => App.requestConfigPath_selected stat (hsame h₃) hown hname
  · intro hid hunknown
    exact App.requestConfigPath_unknown (a := App.ofConfig cfg) stat hid hunknown hname

def sampleEnglish : Application where
  clientID := 1070
  clientKey := []
  appID := bytesOf "en"
  appKey := bytesOf "en-key"
  aesKey := bytesOf "en-aes"
  configDir := bytesOf "en"
  region := []
  channel := bytesOf "76"
  gameClientID := bytesOf "1067"

def sampleChinese : Application where
  clientID := 1068
  clientKey := []
  appID := bytesOf "cn"
  appKey := bytesOf "cn-key"
  aesKey := bytesOf "cn-aes"
  configDir := []
  region := []
  channel := bytesOf "2"
  gameClientID := bytesOf "1068"

def sampleOrder : Order := [(bytesOf "cn", sampleChinese), (bytesOf "en", sampleEnglish)]

def sampleConfig : Config where
  gameConfigDirs := ∅
  configDir := bytesOf "common"
  constants := Constants.zero
  defaultApplication := bytesOf "cn"
  userCenterConstants := Constants.zero
  applications := ((∅ : TextMap Application).insert (bytesOf "cn") sampleChinese).insert
    (bytesOf "en") sampleEnglish
  baseDir := ⟨false, []⟩

/-- The sample after loading from `/srv/config.yaml`. -/
def sampleLoaded : Config :=
  { sampleConfig with
    constants := sampleChinese.toConstants
    userCenterConstants := Constants.zero.withDefaults
    baseDir := ⟨true, [bytesOf "srv"]⟩ }

def sampleRequest : Values :=
  ((∅ : Values).insert (bytesOf "clientid") [bytesOf "1067"]).insert (bytesOf "channel")
    [bytesOf "76"]

theorem sampleOrder_of : sampleOrder.Of sampleConfig.applications := by
  have hlist : sampleConfig.applications.toList = sampleOrder := by decide +kernel
  rw [Order.Of, hlist]

theorem sampleConfig_load :
    Config.load sampleOrder sampleConfig ⟨true, [bytesOf "config.yaml", bytesOf "srv"]⟩ =
      .ok sampleLoaded := by
  rfl

theorem sample_scoped :
    (App.ofConfig sampleLoaded).bffFor sampleOrder.reverse sampleRequest.firstValues =
        sampleEnglish.bff ∧
      (App.ofConfig sampleLoaded).requestConfigPath sampleOrder (fun _ => .missing) sampleRequest
          Resource.parameter.fileName =
        ⟨true, [bytesOf "parameter.json", bytesOf "en", bytesOf "srv"]⟩ := by
  have hreverse : Order.Of sampleOrder.reverse sampleLoaded.applications :=
    (List.reverse_perm _).trans sampleOrder_of
  have hscoped := (applications_are_scoped sampleOrder_of sampleConfig_load sampleOrder_of hreverse
    sampleOrder_of sampleRequest .parameter fun _ => .missing).2.1 sampleEnglish
      (by decide +kernel)
  refine ⟨hscoped.1 (by decide +kernel), ?_⟩
  rcases hscoped.2 (by decide +kernel) with hown | ⟨dir, hdir, -⟩
  · exact hown.trans (by decide +kernel)
  · cases hdir

end PapeSdk
