import PapeSdk.Handlers

/-!
Deletions of accounts with the game servers they have to ask. A request of
`unbindAndDeleteUser` handles one account, a pass of `finalizeDueCancellations`
one due account after another. For each account every configured server is
called at once; the answers arrive in any order, and any operation of the store
may run between two steps. Only when all calls have returned does the deletion
look at their results and write.
-/

namespace PapeSdk

open EventRuns

structure Client where
  baseURL : String
  authToken : String
  deriving DecidableEq, Repr

/-- The request of `Client.UnbindRoles`. -/
structure UnbindCall where
  url : String
  authorization : String
  openID : String
  deriving DecidableEq, Repr

/-- What becomes of a call. -/
inductive UnbindResponse
  /-- The request could not be built. -/
  | unsent (reason : String)
  | unavailable (reason : String)
  /-- The body is not the expected JSON. -/
  | undecodable (reason : String)
  | decoded (statusCode : ℕ) (status : String) (success : Bool) (unboundRoles : ℤ)
      (error : String)
  deriving DecidableEq, Repr

def statusOK : ℕ := 200

def Client.call (c : Client) (openID : String) : Option UnbindCall :=
  if c.baseURL = "" then none
  else some ⟨c.baseURL ++ "/inner/v1/players/roles/unbind", "Bearer " ++ c.authToken, openID⟩

/-- `Client.UnbindRoles` once its call has returned. -/
def Client.unbindRoles (c : Client) (response : UnbindResponse) : Except String ℤ :=
  if c.baseURL = "" then .error "booi_inner.base_url is not configured"
  else
    match response with
    | .unsent reason => .error reason
    | .unavailable reason => .error ("BOOI inner unavailable: " ++ reason)
    | .undecodable reason => .error ("decode BOOI inner response: " ++ reason)
    | .decoded statusCode status success unboundRoles error =>
      if statusCode ≠ statusOK ∨ success = false then
        .error ("BOOI inner: " ++ orDefault error status)
      else .ok unboundRoles

/-- HTTP 200 and `success = true`. -/
def UnbindResponse.Confirms : UnbindResponse → Prop
  | .decoded statusCode _ success _ _ => statusCode = 200 ∧ success = true
  | _ => False

instance : DecidablePred UnbindResponse.Confirms
  | .decoded statusCode _ success _ _ =>
    inferInstanceAs (Decidable (statusCode = 200 ∧ success = true))
  | .unsent _ | .unavailable _ | .undecodable _ => inferInstanceAs (Decidable False)

/-- The configured servers, no two of them with one id. -/
structure Pool where
  clients : List (UInt32 × Client)
  distinct : (clients.map Prod.fst).Nodup

/-- The results of the calls in the order in which they arrived. -/
abbrev UnbindResults := List (UInt32 × Except String ℤ)

def unbindFailure : UInt32 × Except String ℤ → Option String
  | (serverID, .error e) => some ("BOOI server " ++ toString serverID ++ ": " ++ e)
  | (_, .ok _) => none

/-- `Pool.UnbindRoles` once all of its calls have returned. -/
def Pool.unbindRoles (pool : Pool) (results : UnbindResults) : Except String Unit :=
  if pool.clients = [] then .error "booi_inner has no configured servers"
  else
    let failures := results.filterMap unbindFailure
    if failures = [] then .ok () else .error ("\n".intercalate failures)

/-- Every goroutine of `Pool.UnbindRoles` has sent its result. -/
def Pool.allReturned (pool : Pool) (results : UnbindResults) : Bool :=
  pool.clients.all fun p => decide (p.1 ∈ results.map Prod.fst)

inductive DeletionKind
  | request (hard : Bool)
  | finalizer (now : ℕ)
  deriving DecidableEq, Repr

/-- What a deletion does with an account once `UnbindRoles` has returned. -/
def DeletionKind.finish (kind : DeletionKind) (w : World) (userID : ℕ)
    (unbound : Except String Unit) : World × Except String Unit :=
  match kind with
  | .request hard => unbindAndDeleteUser { unbound := unbound } w userID hard
  | .finalizer now =>
    match unbound with
    | .error e => (w, .error e)
    | .ok () =>
      match completeCancellation w userID now with
      | (w, .error e) => (w, .error e)
      | (w, .ok _) => (w, .ok ())

inductive DeletionStage
  | starting
  | idle
  | calling (item : DueCancellation) (results : UnbindResults)
  deriving DecidableEq

structure Deletion where
  kind : DeletionKind
  todo : List DueCancellation
  stage : DeletionStage
  deriving DecidableEq

inductive DeletionEffect
  | silent
  /-- A call for `openID` has returned; nothing is sent to a server without a base URL. -/
  | returned (openID : String) (call : Option UnbindCall)
  | finished (userID : ℕ) (result : Except String Unit)
  deriving DecidableEq

/-- `unbindAndDeleteUser` refuses this id before it calls any server. -/
def DeletionKind.refuses : DeletionKind → ℕ → Bool
  | .request _, userID => userID == 0
  | .finalizer _, _ => false

/-- The next step of a deletion, the answers of the servers apart. -/
def Deletion.proceed (pool : Pool) (w : World) (d : Deletion) :
    Option (World × Deletion × DeletionEffect) :=
  match d.stage with
  | .starting =>
    match d.kind with
    | .request _ => none
    | .finalizer now =>
      some (w, { d with todo := dueCancellations w now 100, stage := .idle }, .silent)
  | .idle =>
    match d.todo with
    | [] => none
    | item :: rest =>
      if d.kind.refuses item.userID then
        some (w, { d with todo := rest }, .finished item.userID (.error "invalid account id"))
      else some (w, { d with todo := rest, stage := .calling item [] }, .silent)
  | .calling item results =>
    if pool.allReturned results then
      let (w, result) := d.kind.finish w item.userID (pool.unbindRoles results)
      some (w, { d with stage := .idle }, .finished item.userID result)
    else none

/-- The call to one server returns. -/
def Deletion.answer (pool : Pool) (server : UInt32) (response : UnbindResponse) (d : Deletion) :
    Option (Deletion × DeletionEffect) :=
  match d.stage, pool.clients.lookup server with
  | .calling item results, some c =>
    if server ∈ results.map Prod.fst then none
    else
      some ({ d with stage := .calling item (results ++ [(server, c.unbindRoles response)]) },
        .returned item.openID (c.call item.openID))
  | _, _ => none

structure DeletionState where
  world : World
  deletions : List Deletion

inductive DeletionLabel
  | startRequest (userID : ℕ) (hard : Bool)
  | startPass
  | proceed (k : ℕ)
  | answer (k : ℕ) (server : UInt32) (response : UnbindResponse)
  | store (op : Op)
  deriving DecidableEq

namespace DeletionState

def start (w : World) : DeletionState := ⟨w, []⟩

def step (env : Externals) (pool : Pool) (s : DeletionState) :
    DeletionLabel → Option (DeletionState × DeletionEffect)
  | .startRequest userID hard =>
    let d : Deletion := ⟨.request hard, [⟨userID, toString userID⟩], .idle⟩
    some ({ s with deletions := s.deletions ++ [d] }, .silent)
  | .startPass =>
    let d : Deletion := ⟨.finalizer s.world.now, [], .starting⟩
    some ({ s with deletions := s.deletions ++ [d] }, .silent)
  | .proceed k =>
    match s.deletions[k]? with
    | none => none
    | some d =>
      match d.proceed pool s.world with
      | none => none
      | some (w, d', effect) => some (⟨w, s.deletions.set k d'⟩, effect)
  | .answer k server response =>
    match s.deletions[k]? with
    | none => none
    | some d =>
      match d.answer pool server response with
      | none => none
      | some (d', effect) => some ({ s with deletions := s.deletions.set k d' }, effect)
  | .store op => some ({ s with world := (exec env s.world op).1 }, .silent)

end DeletionState

structure DeletionEvent where
  label : DeletionLabel
  effect : DeletionEffect
  deriving DecidableEq

def DeletionStep (env : Externals) (pool : Pool) (s : DeletionState) (e : DeletionEvent)
    (s' : DeletionState) : Prop :=
  s.step env pool e.label = some (s', e.effect)

abbrev DeletionRun (env : Externals) (pool : Pool) :
    DeletionState → List DeletionEvent → DeletionState → Prop :=
  Run (DeletionStep env pool)

/-- The history and the final state of a list of steps, as far as they can be taken. -/
def DeletionState.runAll (env : Externals) (pool : Pool) (s : DeletionState) :
    List DeletionLabel → List DeletionEvent × DeletionState
  | [] => ([], s)
  | l :: rest =>
    match s.step env pool l with
    | none => ([], s)
    | some (s', effect) =>
      let (log, s'') := s'.runAll env pool rest
      (⟨l, effect⟩ :: log, s'')

theorem DeletionState.runAll_run (env : Externals) (pool : Pool) (s : DeletionState)
    (labels : List DeletionLabel) :
    DeletionRun env pool s (s.runAll env pool labels).1 (s.runAll env pool labels).2 := by
  induction labels generalizing s with
  | nil => exact Run.refl s
  | cons l rest ih =>
    rw [runAll]
    split
    · exact Run.refl s
    · next s' effect hstep => exact Run.append (Run.single hstep) (ih s')

end PapeSdk
