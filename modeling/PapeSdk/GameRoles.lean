import Mathlib.Data.Prod.Lex
import PapeSdk.FirstListed
import PapeSdk.GameServers

/-!
The roles of an account on all game servers. `Pool.Roles` takes the answers as
they arrive, keeps the first role for every server, zone and account id, and
sorts what it has kept. The answers of a server stay together, so the order in
which the servers answer makes no difference to the sorted list. `roleInfo`
puts this list into a map with the zone ids as keys.
-/

namespace PapeSdk

open FirstListed

structure Role where
  serverID : UInt32
  accountID : UInt64
  openID : String
  zoneID : UInt32
  name : String
  familyName : String
  level : Int32
  loginCount : Int32
  createdAt : Int64
  lastLoginAt : Int64
  deriving DecidableEq, Repr

/-- `fmt.Sprintf("%d:%d:%d", role.ServerID, role.ZoneID, role.AccountID)`. -/
def Role.key (r : Role) : String :=
  toString r.serverID ++ ":" ++ toString r.zoneID ++ ":" ++ toString r.accountID

/-- The order of `sort.Slice`. -/
def Role.less (a b : Role) : Bool :=
  if a.serverID ≠ b.serverID then a.serverID < b.serverID
  else if a.zoneID ≠ b.zoneID then a.zoneID < b.zoneID
  else a.accountID < b.accountID

/-- The results of `Client.Roles` in the order in which they arrived. -/
abbrev RoleResults := List (UInt32 × Except String (List Role))

/-- The variables of the loop over the results. -/
structure RoleGathering where
  succeeded : ℕ := 0
  roles : List Role := []
  failures : List String := []
  seen : List String := []

namespace RoleGathering

def add (serverID : UInt32) (g : RoleGathering) (role : Role) : RoleGathering :=
  let role := { role with serverID := serverID }
  if role.key ∈ g.seen then g
  else { g with seen := role.key :: g.seen, roles := g.roles ++ [role] }

def receive (g : RoleGathering) : UInt32 × Except String (List Role) → RoleGathering
  | (serverID, .error e) =>
    { g with failures := g.failures ++ ["BOOI server " ++ toString serverID ++ ": " ++ e] }
  | (serverID, .ok roles) => roles.foldl (add serverID) { g with succeeded := g.succeeded + 1 }

end RoleGathering

/-- `Pool.Roles` once all of its calls have returned. -/
def Pool.roles (pool : Pool) (s : SliceSort Role.less) (results : RoleResults) :
    Except String (List Role) :=
  if pool.clients = [] then .error "booi_inner has no configured servers"
  else
    let g := results.foldl RoleGathering.receive {}
    if g.succeeded = 0 then .error ("\n".intercalate g.failures) else .ok (s.sort g.roles)

/-- Every server has answered once. -/
structure RoleAnswers (pool : Pool) where
  results : RoleResults
  complete : (results.map Prod.fst).Perm (pool.clients.map Prod.fst)

/-- What `roleInfo` tells of a role. -/
structure RoleInfo where
  serverID : UInt32
  uid : UInt64
  zoneID : UInt32
  name : String
  familyName : String
  level : Int32
  lastRefreshTime : Int64
  cTime : Int64
  deriving DecidableEq, Repr

def Role.info (profile : Role) : RoleInfo where
  serverID := profile.serverID
  uid := profile.accountID
  zoneID := profile.zoneID
  name := profile.name
  familyName := profile.familyName
  level := profile.level
  lastRefreshTime := profile.lastLoginAt
  cTime := profile.createdAt

abbrev RoleInfoMap := String → Option RoleInfo

/-- The loop of `roleInfo` over the profiles. -/
def roleInfoMap (profiles : List Role) : RoleInfoMap :=
  lastWritten (fun profile => toString profile.zoneID) Role.info profiles

/-- The map and the time of the reply; `results` are the answers for an open id. -/
def roleInfo (pool : Pool) (s : SliceSort Role.less) (request : Request) (w : World)
    (results : String → RoleResults) : Except String (RoleInfoMap × ℕ) :=
  match request.form with
  | .error e => .error e
  | .ok form =>
    match userFromFields w form with
    | .error e => .error e
    | .ok user =>
      match pool.roles s (results user.openID) with
      | .error _ => .ok (fun _ => none, w.now)
      | .ok profiles => .ok (roleInfoMap profiles, w.now)

/-- Server id, zone id and account id. -/
def Role.position (r : Role) : ℕ ×ₗ ℕ ×ₗ ℕ :=
  toLex (r.serverID.toNat, toLex (r.zoneID.toNat, r.accountID.toNat))

theorem Role.position_inj {a b : Role} : a.position = b.position ↔
    a.serverID = b.serverID ∧ a.zoneID = b.zoneID ∧ a.accountID = b.accountID := by
  simp only [position, EmbeddingLike.apply_eq_iff_eq, Prod.mk.injEq, UInt32.toNat_inj,
    UInt64.toNat_inj]

theorem Role.less_iff (a b : Role) : a.less b = true ↔ a.position < b.position := by
  simp only [position, Prod.Lex.toLex_lt_toLex, UInt32.toNat_inj, ← UInt32.lt_iff_toNat_lt,
    ← UInt64.lt_iff_toNat_lt, less]
  by_cases hserver : a.serverID = b.serverID
  · by_cases hzone : a.zoneID = b.zoneID
    · simp [hserver, hzone]
    · simp [hserver, hzone]
  · simp [hserver]

theorem colon_notMem_toString (n : ℕ) : ':' ∉ (toString n).toList := by
  intro h
  rw [Nat.toString_eq_ofList_toDigits, String.toList_ofList] at h
  have hdigit := Nat.isDigit_of_mem_toDigits (by omega) (by omega) h
  exact absurd hdigit (by decide)

theorem append_colon_inj {x x' y y' : List Char} (hx : ':' ∉ x) (hx' : ':' ∉ x')
    (h : x ++ ':' :: y = x' ++ ':' :: y') : x = x' ∧ y = y' := by
  induction x generalizing x' with
  | nil =>
    cases x' with
    | nil => exact ⟨rfl, (List.cons.inj h).2⟩
    | cons c rest => exact absurd (List.cons.inj h).1 fun hc => hx' (hc ▸ List.mem_cons_self)
  | cons c rest ih =>
    cases x' with
    | nil => exact absurd (List.cons.inj h).1 fun hc => hx (hc ▸ List.mem_cons_self)
    | cons c' rest' =>
      obtain ⟨hc, hrest⟩ := List.cons.inj h
      have htail := ih (fun hmem => hx (List.mem_cons_of_mem _ hmem))
        (fun hmem => hx' (List.mem_cons_of_mem _ hmem)) hrest
      rw [hc, htail.1]
      exact ⟨rfl, htail.2⟩

/-- The text of the key determines the position. -/
theorem Role.key_inj {a b : Role} : a.key = b.key ↔ a.position = b.position := by
  rw [position_inj]
  constructor
  · intro h
    have hchars := congrArg String.toList h
    simp only [key, String.toList_append, List.append_assoc] at hchars
    obtain ⟨hserver, hrest⟩ := append_colon_inj (colon_notMem_toString a.serverID.toNat)
      (colon_notMem_toString b.serverID.toNat) hchars
    obtain ⟨hzone, haccount⟩ := append_colon_inj (colon_notMem_toString a.zoneID.toNat)
      (colon_notMem_toString b.zoneID.toNat) hrest
    exact ⟨UInt32.toNat_inj.mp (toString_injective (String.toList_inj.mp hserver)),
      UInt32.toNat_inj.mp (toString_injective (String.toList_inj.mp hzone)),
      UInt64.toNat_inj.mp (toString_injective (String.toList_inj.mp haccount))⟩
  · rintro ⟨hserver, hzone, haccount⟩
    rw [key, key, hserver, hzone, haccount]

/-- The roles of an answer, with the id of the server. -/
def listing : UInt32 × Except String (List Role) → List Role
  | (_, .error _) => []
  | (serverID, .ok roles) => roles.map fun role => { role with serverID := serverID }

namespace RoleGathering

/-- The set of keys goes with the roles. -/
def Tracks (g : RoleGathering) : Prop := ∀ k, k ∈ g.seen ↔ k ∈ g.roles.map Role.key

theorem add_spec {g : RoleGathering} (h : g.Tracks) (serverID : UInt32) (role : Role) :
    (g.add serverID role).Tracks ∧
      (g.add serverID role).roles =
        keepFirst Role.key g.roles { role with serverID := serverID } ∧
      (g.add serverID role).succeeded = g.succeeded := by
  unfold add keepFirst
  dsimp only
  by_cases htaken : Role.key { role with serverID := serverID } ∈ g.seen
  · rw [if_pos htaken, if_pos ((h _).mp htaken)]
    exact ⟨h, rfl, rfl⟩
  · rw [if_neg htaken, if_neg (fun hmem => htaken ((h _).mpr hmem))]
    refine ⟨?_, rfl, rfl⟩
    intro k
    rw [List.mem_cons, List.map_append, List.mem_append, List.map_singleton, List.mem_singleton,
      h k, or_comm]

theorem foldl_add_spec {g : RoleGathering} (h : g.Tracks) (serverID : UInt32)
    (roles : List Role) :
    (roles.foldl (add serverID) g).Tracks ∧
      (roles.foldl (add serverID) g).roles =
        (roles.map fun role => { role with serverID := serverID }).foldl (keepFirst Role.key)
          g.roles ∧
      (roles.foldl (add serverID) g).succeeded = g.succeeded := by
  induction roles generalizing g with
  | nil => exact ⟨h, rfl, rfl⟩
  | cons role rest ih =>
    obtain ⟨htracks, hroles, hcount⟩ := add_spec h serverID role
    rw [List.foldl_cons, List.map_cons, List.foldl_cons, ← hroles, ← hcount]
    exact ih htracks

theorem receive_spec {g : RoleGathering} (h : g.Tracks)
    (p : UInt32 × Except String (List Role)) :
    (g.receive p).Tracks ∧ (g.receive p).roles = (listing p).foldl (keepFirst Role.key) g.roles ∧
      ((g.receive p).succeeded = 0 ↔ g.succeeded = 0 ∧ ∃ e, p.2 = .error e) := by
  obtain ⟨serverID, e | roles⟩ := p
  · refine ⟨h, rfl, ?_⟩
    simp [receive]
  · obtain ⟨htracks, hroles, hcount⟩ :=
      foldl_add_spec (g := { g with succeeded := g.succeeded + 1 }) h serverID roles
    refine ⟨htracks, hroles, ?_⟩
    simp [receive, hcount]

theorem foldl_receive_spec {g : RoleGathering} (h : g.Tracks) (results : RoleResults) :
    (results.foldl receive g).roles = (results.flatMap listing).foldl (keepFirst Role.key) g.roles ∧
      ((results.foldl receive g).succeeded = 0 ↔
        g.succeeded = 0 ∧ ∀ p ∈ results, ∃ e, p.2 = .error e) := by
  induction results generalizing g with
  | nil => simp
  | cons p rest ih =>
    obtain ⟨htracks, hroles, hcount⟩ := receive_spec h p
    obtain ⟨hrest, hfailed⟩ := ih htracks
    rw [List.foldl_cons, List.flatMap_cons, List.foldl_append, ← hroles]
    refine ⟨hrest, ?_⟩
    rw [hfailed, hcount, List.forall_mem_cons, and_assoc]

end RoleGathering

/-- The first role that the list has for this zone and account id. -/
def firstListed (listed : List Role) (zoneID : UInt32) (accountID : UInt64) : Option Role :=
  listed.find? fun r => r.zoneID = zoneID ∧ r.accountID = accountID

/-- The role is the first one that its server lists for its zone and account id, with the id
of the server. -/
def FirstOfServer (results : RoleResults) (role : Role) : Prop :=
  ∃ listed, (role.serverID, .ok listed) ∈ results ∧
    ∃ first, firstListed listed role.zoneID role.accountID = some first ∧
      role = { first with serverID := role.serverID }

section
variable {pool : Pool} {s : SliceSort Role.less} {results : RoleResults} {role : Role}

theorem find_listing_of_ne {p : UInt32 × Except String (List Role)} (h : p.1 ≠ role.serverID) :
    (listing p).find? (fun r => r.key = role.key) = none := by
  rw [List.find?_eq_none]
  intro r hr hkey
  obtain ⟨serverID, e | listed⟩ := p
  · cases hr
  · obtain ⟨a, -, rfl⟩ := List.mem_map.mp hr
    exact h (Role.position_inj.mp (Role.key_inj.mp (of_decide_eq_true hkey))).1

/-- In the answer of its server, the first role of a key is the first one of its zone and
account id. -/
theorem find_listing {listed : List Role} :
    (listing (role.serverID, .ok listed)).find? (fun r => r.key = role.key) = some role ↔
      ∃ first, firstListed listed role.zoneID role.accountID = some first ∧
        role = { first with serverID := role.serverID } := by
  have hsame : ((fun r : Role => decide (r.key = role.key)) ∘
      fun r : Role => { r with serverID := role.serverID }) =
        fun r => decide (r.zoneID = role.zoneID ∧ r.accountID = role.accountID) := by
    funext r
    apply decide_eq_decide.mpr
    rw [Role.key_inj, Role.position_inj]
    simp
  rw [listing, List.find?_map, hsame, Option.map_eq_some_iff]
  constructor
  · rintro ⟨first, hfirst, hrole⟩
    exact ⟨first, hfirst, hrole.symm⟩
  · rintro ⟨first, hfirst, hrole⟩
    exact ⟨first, hfirst, hrole.symm⟩

theorem find_listings (hdistinct : (results.map Prod.fst).Nodup) :
    (results.flatMap listing).find? (fun r => r.key = role.key) = some role ↔
      FirstOfServer results role := by
  induction results with
  | nil => simp [FirstOfServer]
  | cons p rest ih =>
    obtain ⟨hnew, hrest⟩ := List.nodup_cons.mp hdistinct
    rw [List.flatMap_cons, List.find?_append]
    by_cases hp : p.1 = role.serverID
    · -- the other answers are those of other servers
      have hnone : (rest.flatMap listing).find? (fun r => r.key = role.key) = none := by
        rw [List.find?_flatMap, List.findSome?_eq_none_iff]
        intro q hq
        apply find_listing_of_ne
        intro hserver
        exact hnew (hp.trans hserver.symm ▸ List.mem_map_of_mem hq)
      rw [hnone, Option.or_none]
      obtain ⟨serverID, answer⟩ := p
      dsimp only at hp hnew
      subst hp
      constructor
      · intro hfound
        cases answer with
        | error e => cases hfound
        | ok listed => exact ⟨listed, List.mem_cons_self, find_listing.mp hfound⟩
      · rintro ⟨listed, hmem, hfirst⟩
        rcases List.mem_cons.mp hmem with heq | hmem
        · obtain ⟨-, hanswer⟩ := Prod.mk.inj heq
          subst hanswer
          exact find_listing.mpr hfirst
        · exact absurd (List.mem_map_of_mem hmem) hnew
    · rw [find_listing_of_ne hp, Option.none_or, ih hrest]
      constructor
      · rintro ⟨listed, hmem, hfirst⟩
        exact ⟨listed, List.mem_cons_of_mem _ hmem, hfirst⟩
      · rintro ⟨listed, hmem, hfirst⟩
        rcases List.mem_cons.mp hmem with heq | hmem
        · exact absurd (Prod.mk.inj heq).1.symm hp
        · exact ⟨listed, hmem, hfirst⟩

namespace Pool

theorem roles_cases (pool : Pool) (s : SliceSort Role.less) (a : RoleAnswers pool) :
    ((∃ e, pool.roles s a.results = .error e) ∧ ∀ p ∈ a.results, ∃ e, p.2 = .error e) ∨
    ∃ roles, pool.roles s a.results = .ok roles ∧ ¬ (∀ p ∈ a.results, ∃ e, p.2 = .error e) ∧
      roles.Pairwise (fun x y => x.position < y.position) ∧
      ∀ role, role ∈ roles ↔ FirstOfServer a.results role := by
  have htracks : ({} : RoleGathering).Tracks := fun k => Iff.rfl
  obtain ⟨hroles, hcount⟩ := RoleGathering.foldl_receive_spec htracks a.results
  have hdistinct : (a.results.map Prod.fst).Nodup := a.complete.nodup_iff.mpr pool.distinct
  unfold roles
  by_cases hnone : pool.clients = []
  · rw [if_pos hnone]
    have hcomplete := a.complete
    rw [hnone, List.map_nil, List.perm_nil, List.map_eq_nil_iff] at hcomplete
    refine Or.inl ⟨⟨_, rfl⟩, ?_⟩
    intro p hp
    rw [hcomplete] at hp
    cases hp
  rw [if_neg hnone]
  dsimp only
  by_cases hfailed : (a.results.foldl RoleGathering.receive {}).succeeded = 0
  · rw [if_pos hfailed]
    exact Or.inl ⟨⟨_, rfl⟩, (hcount.mp hfailed).2⟩
  rw [if_neg hfailed, hroles]
  refine Or.inr ⟨_, rfl, fun hall => hfailed (hcount.mpr ⟨rfl, hall⟩), ?_, ?_⟩
  · apply s.increasing Role.less_iff
    have hkeys : (((a.results.flatMap listing).foldl (keepFirst Role.key) []).map Role.key).Nodup :=
      nodup_foldl_keepFirst List.Pairwise.nil
    apply List.pairwise_map.mpr
    exact (List.pairwise_map.mp hkeys).imp fun hne hpos => hne (Role.key_inj.mpr hpos)
  · intro role
    rw [(s.perm _).mem_iff, mem_foldl_keepFirst, ← find_listings hdistinct]
    simp

theorem roles_eq_of_perm (s s' : SliceSort Role.less) {a b : RoleAnswers pool}
    (h : a.results.Perm b.results) :
    (pool.roles s a.results).toOption = (pool.roles s' b.results).toOption := by
  have hfailed : (∀ p ∈ a.results, ∃ e, p.2 = .error e) ↔ ∀ p ∈ b.results, ∃ e, p.2 = .error e :=
    forall_congr' fun p => imp_congr_left h.mem_iff
  have hfirst : ∀ role, FirstOfServer a.results role ↔ FirstOfServer b.results role :=
    fun role => exists_congr fun listed => and_congr_left' h.mem_iff
  rcases pool.roles_cases s a with ⟨⟨e, ha⟩, hall⟩ | ⟨roles, ha, hsome, hsorted, hmem⟩
  · rcases pool.roles_cases s' b with ⟨⟨e', hb⟩, -⟩ | ⟨roles', -, hsome', -⟩
    · rw [ha, hb]
      rfl
    · exact absurd (hfailed.mp hall) hsome'
  · rcases pool.roles_cases s' b with ⟨-, hall'⟩ | ⟨roles', hb, -, hsorted', hmem'⟩
    · exact absurd (hfailed.mpr hall') hsome
    · have hroles : roles = roles' := by
        apply eq_of_increasing hsorted hsorted'
        intro role
        rw [hmem, hmem', hfirst]
      rw [ha, hb, hroles]

/-- The list of roles depends neither on the order of the answers nor on the sort. It increases
and holds the first role of every key that a healthy server lists. There is none exactly when
no server has answered. -/
theorem role_aggregation_ignores_order (pool : Pool) (s : SliceSort Role.less)
    (a : RoleAnswers pool) :
    (∀ (s' : SliceSort Role.less) (b : RoleAnswers pool), a.results.Perm b.results →
      (pool.roles s a.results).toOption = (pool.roles s' b.results).toOption) ∧
    ((∃ e, pool.roles s a.results = .error e) ↔ ∀ p ∈ a.results, ∃ e, p.2 = .error e) ∧
    ∀ roles, pool.roles s a.results = .ok roles →
      roles.Pairwise (fun x y => x.position < y.position) ∧
      ∀ role, role ∈ roles ↔ FirstOfServer a.results role := by
  refine ⟨fun s' b h => roles_eq_of_perm s s' h, ?_, ?_⟩
  · rcases pool.roles_cases s a with ⟨herror, hall⟩ | ⟨roles, hok, hsome, -⟩
    · exact ⟨fun _ => hall, fun _ => herror⟩
    · refine ⟨?_, fun hall => absurd hall hsome⟩
      rintro ⟨e, he⟩
      rw [hok] at he
      cases he
  · intro roles hroles
    rcases pool.roles_cases s a with ⟨⟨e, he⟩, -⟩ | ⟨roles', hok, -, hsorted, hmem⟩
    · rw [he] at hroles
      cases hroles
    · rw [hok] at hroles
      cases hroles
      exact ⟨hsorted, hmem⟩

end Pool

/-- No zone is listed for two pairs of a server and an account id. -/
def OneRolePerZone (results : RoleResults) : Prop :=
  ∀ p ∈ results, ∀ q ∈ results, ∀ x ∈ listing p, ∀ y ∈ listing q, x.zoneID = y.zoneID →
    x.serverID = y.serverID ∧ x.accountID = y.accountID

/-- Every role is in the map. -/
def InfoComplete (profiles : List Role) : Prop :=
  ∀ role ∈ profiles, ∃ zone, roleInfoMap profiles zone = some role.info

theorem zone_text_inj {a b : UInt32} (h : toString a = toString b) : a = b :=
  UInt32.toNat_inj.mp (toString_injective h)

theorem Role.info_position {a b : Role} (h : a.info = b.info) : a.position = b.position :=
  position_inj.mpr ⟨congrArg RoleInfo.serverID h, congrArg RoleInfo.zoneID h,
    congrArg RoleInfo.uid h⟩

/-- Every role is in the map when no other one has its zone, and only then. -/
theorem infoComplete_iff {profiles : List Role}
    (hsorted : profiles.Pairwise fun x y => x.position < y.position) :
    InfoComplete profiles ↔ ∀ x ∈ profiles, ∀ y ∈ profiles, x.zoneID = y.zoneID → x = y := by
  have hdistinct : (profiles.map Role.position).Nodup :=
    List.pairwise_map.mpr (hsorted.imp fun hlt => ne_of_lt hlt)
  have hinfo : ∀ x ∈ profiles, ∀ y ∈ profiles, x.info = y.info → x = y := fun x hx y hy heq =>
    List.inj_on_of_nodup_map hdistinct hx hy (Role.info_position heq)
  constructor
  · -- the entry of a role stands under its own zone, where there is only one entry
    have hentry : InfoComplete profiles →
        ∀ x ∈ profiles, roleInfoMap profiles (toString x.zoneID) = some x.info := by
      intro hcomplete x hx
      obtain ⟨zone, hzone⟩ := hcomplete x hx
      obtain ⟨z, hz, hkey, heq⟩ := exists_of_lastWritten hzone
      rw [hinfo z hz x hx heq] at hkey
      rw [hkey]
      exact hzone
    intro hcomplete x hx y hy hzone
    have hentryX := hentry hcomplete x hx
    rw [hzone, hentry hcomplete y hy] at hentryX
    exact hinfo x hx y hy (Option.some.inj hentryX).symm
  · intro hone role hrole
    have hlisted : ∃ last ∈ profiles, toString last.zoneID = toString role.zoneID ∧
        lastWritten (fun profile : Role => toString profile.zoneID) Role.info profiles
          (toString role.zoneID) = some last.info := lastWritten_of_mem hrole
    obtain ⟨last, hlast, hkey, hwritten⟩ := hlisted
    refine ⟨_, hwritten.trans ?_⟩
    rw [hone last hlast role hrole (zone_text_inj hkey)]

/-- The first role of the server for the zone and account id of a listed one. -/
theorem exists_firstOfServer {p : UInt32 × Except String (List Role)} (hp : p ∈ results)
    (hrole : role ∈ listing p) : ∃ first, FirstOfServer results first ∧
      first.position = role.position := by
  obtain ⟨serverID, e | listed⟩ := p
  · cases hrole
  obtain ⟨r, hr, rfl⟩ := List.mem_map.mp hrole
  have hsome : (firstListed listed r.zoneID r.accountID).isSome := by
    rw [firstListed, List.find?_isSome]
    exact ⟨r, hr, by simp⟩
  obtain ⟨first, hfirst⟩ := Option.isSome_iff_exists.mp hsome
  have hsame := List.find?_some hfirst
  simp only [decide_eq_true_eq] at hsame
  refine ⟨{ first with serverID := serverID }, ⟨listed, hp, first, ?_, rfl⟩, ?_⟩
  · dsimp only
    rw [hsame.1, hsame.2]
    exact hfirst
  · exact Role.position_inj.mpr ⟨rfl, hsame⟩

theorem FirstOfServer.listed (h : FirstOfServer results role) :
    ∃ p ∈ results, role ∈ listing p := by
  obtain ⟨listed, hmem, first, hfirst, hrole⟩ := h
  refine ⟨_, hmem, List.mem_map.mpr ⟨first, List.mem_of_find?_eq_some hfirst, hrole.symm⟩⟩

theorem oneRolePerZone_iff : OneRolePerZone results ↔
    ∀ x y, FirstOfServer results x → FirstOfServer results y → x.zoneID = y.zoneID →
      x.position = y.position := by
  constructor
  · intro hone x y hx hy hzone
    obtain ⟨p, hp, hxp⟩ := hx.listed
    obtain ⟨q, hq, hyq⟩ := hy.listed
    obtain ⟨hserver, haccount⟩ := hone p hp q hq x hxp y hyq hzone
    exact Role.position_inj.mpr ⟨hserver, hzone, haccount⟩
  · intro hone p hp q hq x hx y hy hzone
    obtain ⟨x', hx', hxpos⟩ := exists_firstOfServer hp hx
    obtain ⟨y', hy', hypos⟩ := exists_firstOfServer hq hy
    have hzones : x'.zoneID = y'.zoneID := by
      rw [(Role.position_inj.mp hxpos).2.1, (Role.position_inj.mp hypos).2.1, hzone]
    have hpos : x.position = y.position := by
      rw [← hxpos, ← hypos]
      exact hone x' y' hx' hy' hzones
    obtain ⟨hserver, -, haccount⟩ := Role.position_inj.mp hpos
    exact ⟨hserver, haccount⟩

/-- `roleInfo` sends every role of the servers exactly when no zone is listed for two pairs
of a server and an account id. -/
theorem role_info_complete_iff {request : Request} {w : World} {form : Form} {user : User}
    (hform : request.form = .ok form) (huser : userFromFields w form = .ok user) (pool : Pool)
    (s : SliceSort Role.less) (a : String → RoleAnswers pool) :
    (∀ profiles, pool.roles s (a user.openID).results = .ok profiles → ∀ role ∈ profiles,
      ∃ info, roleInfo pool s request w (fun openID => (a openID).results) = .ok (info, w.now) ∧
        ∃ zone, info zone = some role.info) ↔
      OneRolePerZone (a user.openID).results := by
  rw [oneRolePerZone_iff]
  rcases pool.roles_cases s (a user.openID) with ⟨⟨e, he⟩, hall⟩ | ⟨roles, hok, -, hsorted, hmem⟩
  · constructor
    · rintro - x y ⟨listed, hx, -⟩ - -
      obtain ⟨e, he⟩ := hall _ hx
      cases he
    · intro _ profiles hprofiles
      rw [he] at hprofiles
      cases hprofiles
  have hreply : roleInfo pool s request w (fun openID => (a openID).results) =
      .ok (roleInfoMap roles, w.now) := by
    simp only [roleInfo, hform, huser, hok]
  have hdistinct : (roles.map Role.position).Nodup :=
    List.pairwise_map.mpr (hsorted.imp fun hlt => ne_of_lt hlt)
  have hcomplete : InfoComplete roles ↔ ∀ x y, FirstOfServer (a user.openID).results x →
      FirstOfServer (a user.openID).results y → x.zoneID = y.zoneID →
        x.position = y.position := by
    rw [infoComplete_iff hsorted]
    constructor
    · intro hone x y hx hy hzone
      rw [hone x ((hmem x).mpr hx) y ((hmem y).mpr hy) hzone]
    · intro hone x hx y hy hzone
      exact List.inj_on_of_nodup_map hdistinct hx hy
        (hone x y ((hmem x).mp hx) ((hmem y).mp hy) hzone)
  rw [← hcomplete]
  constructor
  · intro h role hrole
    obtain ⟨info, hinfo, zone, hzone⟩ := h roles hok role hrole
    rw [hreply] at hinfo
    cases hinfo
    exact ⟨zone, hzone⟩
  · intro h profiles hprofiles role hrole
    rw [hok] at hprofiles
    cases hprofiles
    exact ⟨_, hreply, h role hrole⟩

end

/-- A stable sort is one of the sorts. -/
def roleSort : SliceSort Role.less where
  sort := List.insertionSort fun a b => b.less a = false
  perm := List.perm_insertionSort _
  ordered := by
    have hle : ∀ a b : Role, b.less a = false ↔ a.position ≤ b.position := by
      intro a b
      rw [← not_lt, ← Role.less_iff b a, Bool.not_eq_true]
    have htotal : Std.Total fun a b : Role => b.less a = false := by
      refine ⟨fun a b => ?_⟩
      rw [hle, hle]
      exact le_total _ _
    have htrans : IsTrans Role fun a b => b.less a = false := by
      refine ⟨fun a b c => ?_⟩
      rw [hle, hle, hle]
      exact le_trans
    exact List.pairwise_insertionSort _

def twoGameServers : Pool :=
  ⟨[(500058, ⟨"http://10.0.0.2", "secret"⟩), (500059, ⟨"http://10.0.0.3", "secret"⟩)], by decide⟩

def sampleRole (serverID : UInt32) (accountID : UInt64) (zoneID : UInt32) : Role :=
  ⟨serverID, accountID, "100000001", zoneID, "Player", "Hunter", 17, 3, 100, 200⟩

/-- Every server lists one role, in this zone. -/
def sampleAnswers (first second : UInt32) : RoleAnswers twoGameServers :=
  ⟨[(500058, .ok [sampleRole 0 101 first]), (500059, .ok [sampleRole 0 202 second])],
    List.Perm.refl _⟩

/-- One account and its first login. -/
def onePlayer : World := (getOrCreateUser .unary (World.fresh .unary 0) "13800000000").1

def roleRequest : Request := { path := "/v1/user/roleinfo/get", form := .ok [("token", "pt_")] }

def roleUser : User := ((userFromFields onePlayer [("token", "pt_")]).toOption).getD User.zero

theorem role_info_of_two_zones :
    ∃ profiles, twoGameServers.roles roleSort (sampleAnswers 1 2).results = .ok profiles ∧
      profiles.length = 2 ∧ ∀ role ∈ profiles, ∃ info, roleInfo twoGameServers roleSort roleRequest
        onePlayer (fun _ => (sampleAnswers 1 2).results) = .ok (info, onePlayer.now) ∧
          ∃ zone, info zone = some role.info := by
  have huser : userFromFields onePlayer [("token", "pt_")] = .ok roleUser := by decide +kernel
  have hone : OneRolePerZone (sampleAnswers 1 2).results := by
    unfold OneRolePerZone
    decide +kernel
  have hprofiles : twoGameServers.roles roleSort (sampleAnswers 1 2).results =
      .ok [sampleRole 500058 101 1, sampleRole 500059 202 2] := by decide +kernel
  refine ⟨_, hprofiles, rfl, ?_⟩
  have hform : roleRequest.form = .ok [("token", "pt_")] := rfl
  exact (role_info_complete_iff hform huser twoGameServers roleSort
    fun _ => sampleAnswers 1 2).mpr hone _ hprofiles

/-- Two servers have a role in the zone 1, and the map keeps the second one. -/
theorem role_of_equal_zone_lost :
    ∃ profiles, twoGameServers.roles roleSort (sampleAnswers 1 1).results = .ok profiles ∧
      ∃ role ∈ profiles, ∀ info t, roleInfo twoGameServers roleSort roleRequest onePlayer
        (fun _ => (sampleAnswers 1 1).results) = .ok (info, t) →
          ∀ zone, info zone ≠ some role.info := by
  have huser : userFromFields onePlayer [("token", "pt_")] = .ok roleUser := by decide +kernel
  have hprofiles : twoGameServers.roles roleSort (sampleAnswers 1 1).results =
      .ok [sampleRole 500058 101 1, sampleRole 500059 202 1] := by decide +kernel
  refine ⟨_, hprofiles, sampleRole 500058 101 1, List.mem_cons_self, ?_⟩
  intro info t hreply zone hzone
  have hform : roleRequest.form = .ok [("token", "pt_")] := rfl
  simp only [roleInfo, hform, huser, hprofiles, Except.ok.injEq, Prod.mk.injEq] at hreply
  obtain ⟨hinfo, -⟩ := hreply
  have hmap : roleInfoMap [sampleRole 500058 101 1, sampleRole 500059 202 1] =
      Function.update (Function.update (fun _ => none) (toString (1 : UInt32))
        (some (sampleRole 500058 101 1).info)) (toString (1 : UInt32))
          (some (sampleRole 500059 202 1).info) := rfl
  rw [← hinfo, hmap, Function.update_idem] at hzone
  by_cases hone : zone = toString (1 : UInt32)
  · rw [hone, Function.update_self] at hzone
    exact absurd hzone (by decide)
  · rw [Function.update_of_ne hone] at hzone
    cases hzone

end PapeSdk
