import PapeSdk.GameLogins
import PapeSdk.RegistrationPolicy
import PapeSdk.UserReports

/-!
The internal service of `internal/app/inner.go` and `inner_admin.go`: the
routes that game servers and administrators call with the shared token, and
the two answers that need none, the health check and an unknown path. An account
is named by the text of its id in the path. No route writes to the reports.
-/

namespace PapeSdk

open KeyedTables EventRuns Identifiers LetterCase DecimalIntegers

inductive InnerBody
  | error (info : String)
  | account (a : AdminAccount)
  | accounts (list : List AdminAccount)
  | success
  | empty
  | login (answer : LoginAnswer)
  /-- The error of an identity that is not valid. -/
  | realName (error : Option String)
  | reports (list : List UserReport) (total : ℕ) (limit offset : ℤ)
  | health (service : String) (time : ℕ)
  | text (page : String)
  deriving DecidableEq, Repr

structure InnerReply where
  status : ℕ
  body : InnerBody
  deriving DecidableEq, Repr

def InnerReply.error (status : ℕ) (info : String) : InnerReply := ⟨status, .error info⟩

structure AccountInput where
  phone : String
  email : String
  password : String
  deriving DecidableEq

structure AccountUpdate where
  phone : Option String
  email : Option String
  isSafe : Option Bool
  deriving DecidableEq

/-- The settings that the inner service reads: `Inner.AuthToken` and `RealNameIdentity`. -/
structure InnerConfig where
  authToken : String
  realID : String
  realName : String

/-- The id in the path, unless it is not a positive number. -/
def pathID (id : String) : Option ℕ :=
  match parseInt id with
  | (_, some _) => none
  | (value, none) => if value ≤ 0 then none else some value.toNat

def invalidAccountID : InnerReply := .error 400 "invalid account id"

def accountNotFound : InnerReply := .error 404 "account not found"

section
variable (env : Externals) (w : World)

/-- The account as it is shown after a write; a missing one is shown as its zero value. -/
def shownAccount (id : ℕ) : AdminAccount :=
  (adminAccountByID w id).getD ⟨0, "", "", "", 0, 0, 0, 0, 0, 0, none, false⟩

def listAdminAccounts (query : String) (limit offset : Option String) : InnerReply :=
  match adminAccounts w query (defaultQuery limit "50") (defaultQuery offset "0") with
  | .error e => .error 500 e
  | .ok accounts => ⟨200, .accounts accounts⟩

def getAdminAccount (id : String) : InnerReply :=
  match pathID id with
  | none => invalidAccountID
  | some id =>
    match adminAccountByID w id with
    | none => accountNotFound
    | some a => ⟨200, .account a⟩

def createAdminAccount (input : Except String AccountInput) : World × InnerReply :=
  match input with
  | .error e => (w, .error 400 e)
  | .ok input =>
    let hashed := if input.password = "" then (w, .ok "") else passwordHash env w input.password
    match hashed with
    | (w, .error e) => (w, .error 400 e)
    | (w, .ok hash) =>
      match createAccount env w input.phone input.email hash with
      | (w, .error e) => (w, .error 409 e)
      | (w, .ok u) => (w, ⟨201, .account (shownAccount w u.id)⟩)

/-- The part of `updateAdminAccount` that writes. -/
def applyUpdate (id : ℕ) (input : AccountUpdate) : World × Except String Unit :=
  let rebound :=
    if input.phone.isSome ∨ input.email.isSome then updateBindings env w id input.phone input.email
    else (w, .ok ())
  match rebound with
  | (w, .error e) => (w, .error e)
  | (w, .ok ()) =>
    match input.isSafe with
    | none => (w, .ok ())
    | some safe => setSecurityOverride w id safe

def updateAdminAccount (id : String) (input : Except String AccountUpdate) : World × InnerReply :=
  match pathID id with
  | none => (w, invalidAccountID)
  | some id =>
    match input with
    | .error e => (w, .error 400 e)
    | .ok input =>
      match applyUpdate env w id input with
      | (w, .error e) => (w, .error 400 e)
      | (w, .ok ()) =>
        match adminAccountByID w id with
        | none => (w, accountNotFound)
        | some a => (w, ⟨200, .account a⟩)

/-- `deleteAdminAccount` and `hardDeleteAdminAccount`. -/
def removeAdminAccount (request : Request) (hard : Bool) (id : String) : World × InnerReply :=
  match pathID id with
  | none => (w, invalidAccountID)
  | some id =>
    match unbindAndDeleteUser request w id hard with
    | (w, .error e) => (w, .error 400 e)
    | (w, .ok ()) => (w, ⟨204, .empty⟩)

def deleteAdminAccount (request : Request) (id : String) : World × InnerReply :=
  removeAdminAccount w request false id

def hardDeleteAdminAccount (request : Request) (id : String) : World × InnerReply :=
  removeAdminAccount w request true id

def restoreAdminAccount (id : String) (input : Except String String) : World × InnerReply :=
  match pathID id with
  | none => (w, invalidAccountID)
  | some id =>
    match input with
    | .error e => (w, .error 400 e)
    | .ok phone =>
      match restoreUser env w id phone with
      | (w, .error e) => (w, .error 400 e)
      | (w, .ok ()) => (w, ⟨200, .account (shownAccount w id)⟩)

def changeAdminPassword (id : String) (input : Except String String) : World × InnerReply :=
  match pathID id with
  | none => (w, invalidAccountID)
  | some id =>
    match input with
    | .error e => (w, .error 400 e)
    | .ok password =>
      match adminAccountByID w id with
      | none => (w, accountNotFound)
      | some _ =>
        match setPassword env w id password with
        | (w, .error e) => (w, .error 400 e)
        | (w, .ok ()) => (w, ⟨200, .success⟩)

def logoutAdminDevices (id : String) : World × InnerReply :=
  match pathID id with
  | none => (w, invalidAccountID)
  | some id =>
    match adminAccountByID w id with
    | none => (w, accountNotFound)
    | some _ =>
      match revokeTokens w id with
      | (w, .error e) => (w, .error 500 e)
      | (w, .ok ()) => (w, ⟨200, .success⟩)

end

def LoginAnswer.reply : LoginAnswer → InnerReply
  | .rejected status error => ⟨status, .login (.rejected status error)⟩
  | .accepted openID nid => ⟨200, .login (.accepted openID nid)⟩

/-- The request carries an identity number and a name, or the error of its decoding. -/
def verifyInnerRealName (cfg : InnerConfig) (input : Except String (String × String)) :
    InnerReply :=
  match input with
  | .error e => ⟨400, .realName (some e)⟩
  | .ok (realID, realName) =>
    if trimSpace realID = trimSpace cfg.realID ∧ trimSpace realName = trimSpace cfg.realName then
      ⟨200, .realName none⟩
    else ⟨401, .realName (some "实名信息错误")⟩

def shownReports (found : Except String (List UserReport × ℕ × ℤ × ℤ)) : InnerReply :=
  match found with
  | .error e => .error 500 e
  | .ok (list, total, limit, offset) => ⟨200, .reports list total limit offset⟩

/-- A request to the inner service, with its decoded parts. -/
inductive InnerRoute
  | healthz
  | verifyLogin (input : Except String (String × String))
  | verifyRealName (input : Except String (String × String))
  | reports (query : String) (limit offset : Option String)
  | list (query : String) (limit offset : Option String)
  | create (input : Except String AccountInput)
  | get (id : String)
  | update (id : String) (input : Except String AccountUpdate)
  | delete (id : String) (request : Request)
  | restore (id : String) (input : Except String String)
  | hardDelete (id : String) (request : Request)
  | password (id : String) (input : Except String String)
  | logoutAll (id : String)
  /-- A method or a path that the router does not know. -/
  | unknown

structure InnerCall where
  authorization : String
  route : InnerRoute

/-- `innerRouter`, with the reports that are stored when the request comes. -/
def InnerRoute.serve (cfg : InnerConfig) (env : Externals) (reports : ReportTable) (w : World) :
    InnerRoute → World × InnerReply
  | .healthz => (w, ⟨200, .health "pape-sdk-inner" w.now⟩)
  | .verifyLogin input => (w, (verifyInnerLogin w input).reply)
  | .verifyRealName input => (w, verifyInnerRealName cfg input)
  | .reports query limit offset => (w, shownReports (listAdminReports reports query limit offset))
  | .list query limit offset => (w, listAdminAccounts w query limit offset)
  | .create input => createAdminAccount env w input
  | .get id => (w, getAdminAccount w id)
  | .update id input => updateAdminAccount env w id input
  | .delete id request => deleteAdminAccount w request id
  | .restore id input => restoreAdminAccount env w id input
  | .hardDelete id request => hardDeleteAdminAccount w request id
  | .password id input => changeAdminPassword env w id input
  | .logoutAll id => logoutAdminDevices w id
  | .unknown => (w, ⟨404, .text "404 page not found"⟩)

/-- The routes of the group behind `innerAuth`. -/
def InnerRoute.isGuarded : InnerRoute → Bool
  | .healthz | .unknown => false
  | _ => true

/-- `innerAuth` in front of the routes. -/
def InnerCall.serve (cfg : InnerConfig) (env : Externals) (reports : ReportTable) (w : World)
    (call : InnerCall) : World × InnerReply :=
  if call.route.isGuarded = true ∧ call.authorization ≠ "Bearer " ++ cfg.authToken then
    (w, .error 401 "unauthorized")
  else call.route.serve cfg env reports w

section
variable {env : Externals} {w w' : World} {reply : InnerReply} {e : String}

theorem setSecurityOverride_refused {id : ℕ} {safe : Bool}
    (h : setSecurityOverride w id safe = (w', .error e)) : w' = w := by
  unfold setSecurityOverride at h
  split at h
  · exact (congrArg Prod.fst h).symm
  · cases h

theorem updateBindings_refused {id : ℕ} {phone email : Option String}
    (h : updateBindings env w id phone email = (w', .error e)) : w' = w := by
  rcases updateBindingsTx_cases h with ⟨_, -, hsame⟩ | ⟨_, _, _, _, -, -, -, -, hok, -⟩
  · exact hsame
  · cases hok

/-- The row is still there after its bindings were written. -/
theorem updateBindings_affected {id : ℕ} {phone email : Option String}
    (h : updateBindings env w id phone email = (w', .ok ())) :
    w'.db.users.affected (fun r => r.id == id) = 1 := by
  rcases updateBindingsTx_cases h with ⟨_, he, -⟩ | ⟨row, p, q, users, hrow, -, -, husers, -, rfl⟩
  · cases he
  have hid : row.id = id := (UserRow.isLive_iff.mp (Table.first?_holds hrow)).1
  have hmem : row.rebound p q w.now ∈ users.rows := by
    refine (Table.mem_update? husers).mpr ⟨row, Table.mem_of_first? hrow, ?_⟩
    simp [hid]
  refine Table.affected_eq_one (k := .id id) hmem ?_ (by simpa [UserRow.rebound] using hid) ?_
  · simp [userKeys, UserRow.rebound, hid]
  · intro a ha hmatch
    refine users.eq_of_key (k := .id id) ha hmem ?_ ?_
    · have haid : a.id = id := by simpa using hmatch
      simp [userKeys, haid]
    · simp [userKeys, UserRow.rebound, hid]

theorem setSecurityOverride_ok {id : ℕ} (safe : Bool)
    (h : w.db.users.affected (fun r => r.id == id) = 1) :
    (setSecurityOverride w id safe).2 = .ok () := by
  unfold setSecurityOverride
  rw [if_neg (by simp [h])]

theorem restoreUser_refused {id : ℕ} {phone : String}
    (h : restoreUser env w id phone = (w', .error e)) : w' = w := by
  unfold restoreUser restoreUpdate at h
  split at h
  · exact (congrArg Prod.fst h).symm
  split at h
  · exact (congrArg Prod.fst h).symm
  split at h
  · exact (congrArg Prod.fst h).symm
  · cases h

theorem unbindAndDeleteUser_refused {request : Request} {id : ℕ} {hard : Bool}
    (h : unbindAndDeleteUser request w id hard = (w', .error e)) : w' = w := by
  unfold unbindAndDeleteUser hardDeleteUser deleteUser at h
  split at h
  · exact (congrArg Prod.fst h).symm
  split at h
  · exact (congrArg Prod.fst h).symm
  split at h
  · split at h
    · exact (congrArg Prod.fst h).symm
    · cases h
  · split at h
    · exact (congrArg Prod.fst h).symm
    · cases h

theorem createAccount_refused {phone email hash : String}
    (h : createAccount env w phone email hash = (w', .error e)) : w' = w := by
  rcases createAccount_cases h with ⟨_, -, hsame⟩ | ⟨_, _, -, -, -, hok⟩
  · exact hsame
  · cases hok

theorem setPassword_refused {id : ℕ} {password : String}
    (h : setPassword env w id password = (w', .error e)) : w'.db = w.db := by
  unfold setPassword at h
  split at h
  · next hhash =>
    cases h
    rw [← passwordHash_db env w password, hhash]
  · cases h

/-- Bindings that were written are never followed by a refusal. -/
theorem applyUpdate_refused {id : ℕ} {input : AccountUpdate}
    (h : applyUpdate env w id input = (w', .error e)) : w' = w := by
  unfold applyUpdate at h
  dsimp only at h
  by_cases hbinds : input.phone.isSome = true ∨ input.email.isSome = true
  · rw [if_pos hbinds] at h
    rcases hupdate : updateBindings env w id input.phone input.email with ⟨v, result⟩
    rw [hupdate] at h
    cases result with
    | error e =>
      cases h
      exact updateBindings_refused hupdate
    | ok _ =>
      cases hsafe : input.isSafe with
      | none =>
        rw [hsafe] at h
        cases h
      | some safe =>
        have hok := setSecurityOverride_ok safe (updateBindings_affected hupdate)
        rw [hsafe] at h
        dsimp only at h
        rw [h] at hok
        cases hok
  · rw [if_neg hbinds] at h
    cases hsafe : input.isSafe with
    | none =>
      rw [hsafe] at h
      cases h
    | some safe =>
      rw [hsafe] at h
      exact setSecurityOverride_refused h

theorem setSecurityOverride_row {id : ℕ} {safe : Bool}
    (h : setSecurityOverride w id safe = (w', .ok ())) : ∃ r ∈ w'.db.users.rows, r.id = id := by
  unfold setSecurityOverride at h
  split at h
  · cases h
  next haffected =>
  obtain ⟨r, hr, hmatch⟩ := Table.exists_of_affected (t := w.db.users)
    (p := fun r => r.id == id) (by omega)
  have hid : r.id = id := by simpa using hmatch
  cases h
  refine ⟨_, Table.mem_updated hr, ?_⟩
  rw [if_pos hmatch]
  exact hid

/-- A successful update wrote to a row, or it had nothing to write. -/
theorem applyUpdate_row {id : ℕ} {input : AccountUpdate}
    (h : applyUpdate env w id input = (w', .ok ())) :
    w' = w ∨ ∃ r ∈ w'.db.users.rows, r.id = id := by
  unfold applyUpdate at h
  dsimp only at h
  split at h
  · cases h
  next v hrebound =>
  cases hsafe : input.isSafe with
  | some safe =>
    rw [hsafe] at h
    exact Or.inr (setSecurityOverride_row h)
  | none =>
    rw [hsafe] at h
    cases h
    split at hrebound
    · have hone := updateBindings_affected hrebound
      obtain ⟨r, hr, hid⟩ := Table.exists_of_affected (t := w'.db.users)
        (p := fun r => r.id == id) (by omega)
      exact Or.inr ⟨r, hr, by simpa using hid⟩
    · cases hrebound
      exact Or.inl rfl

theorem adminAccountByID_ne_none {id : ℕ} {r : UserRow} (hr : r ∈ w.db.users.rows)
    (hid : r.id = id) : adminAccountByID w id ≠ none := by
  intro hnone
  have := Table.first?_eq_none.mp (Option.map_eq_none_iff.mp hnone) r hr
  simp [hid] at this

theorem createAdminAccount_refused {input : Except String AccountInput}
    (h : createAdminAccount env w input = (w', reply)) (hstatus : 400 ≤ reply.status) :
    w'.db = w.db := by
  unfold createAdminAccount at h
  split at h
  · cases h
    rfl
  next input =>
  dsimp only at h
  have hhashed : (if input.password = "" then (w, .ok "")
      else passwordHash env w input.password).1.db = w.db := by
    split
    · rfl
    · exact passwordHash_db env w input.password
  split at h
  · next heq =>
    rw [heq] at hhashed
    cases h
    exact hhashed
  next heq =>
  rw [heq] at hhashed
  split at h
  · next hcreate =>
    rw [createAccount_refused hcreate] at h
    cases h
    exact hhashed
  · cases h
    simp at hstatus

theorem updateAdminAccount_refused {id : String} {input : Except String AccountUpdate}
    (h : updateAdminAccount env w id input = (w', reply)) (hstatus : 400 ≤ reply.status) :
    w'.db = w.db := by
  unfold updateAdminAccount at h
  split at h
  · cases h
    rfl
  next id _ =>
  split at h
  · cases h
    rfl
  split at h
  · next happly =>
    rw [applyUpdate_refused happly] at h
    cases h
    rfl
  next happly =>
  split at h
  · next hmissing =>
    cases h
    rcases applyUpdate_row happly with rfl | ⟨r, hr, hid⟩
    · rfl
    · exact absurd hmissing (adminAccountByID_ne_none hr hid)
  · cases h
    simp at hstatus

theorem removeAdminAccount_refused {request : Request} {hard : Bool} {id : String}
    (h : removeAdminAccount w request hard id = (w', reply)) (hstatus : 400 ≤ reply.status) :
    w'.db = w.db := by
  unfold removeAdminAccount at h
  split at h
  · cases h
    rfl
  split at h
  · next hremove =>
    rw [unbindAndDeleteUser_refused hremove] at h
    cases h
    rfl
  · cases h
    simp at hstatus

theorem restoreAdminAccount_refused {id : String} {input : Except String String}
    (h : restoreAdminAccount env w id input = (w', reply)) (hstatus : 400 ≤ reply.status) :
    w'.db = w.db := by
  unfold restoreAdminAccount at h
  split at h
  · cases h
    rfl
  split at h
  · cases h
    rfl
  split at h
  · next hrestore =>
    rw [restoreUser_refused hrestore] at h
    cases h
    rfl
  · cases h
    simp at hstatus

theorem changeAdminPassword_refused {id : String} {input : Except String String}
    (h : changeAdminPassword env w id input = (w', reply)) (hstatus : 400 ≤ reply.status) :
    w'.db = w.db := by
  unfold changeAdminPassword at h
  split at h
  · cases h
    rfl
  split at h
  · cases h
    rfl
  split at h
  · cases h
    rfl
  split at h
  · next hset =>
    cases h
    exact setPassword_refused hset
  · cases h
    simp at hstatus

theorem logoutAdminDevices_refused {id : String}
    (h : logoutAdminDevices w id = (w', reply)) (hstatus : 400 ≤ reply.status) :
    w'.db = w.db := by
  unfold logoutAdminDevices at h
  split at h
  · cases h
    rfl
  split at h
  · cases h
    rfl
  split at h
  · next hrevoke => cases hrevoke
  · cases h
    simp at hstatus

/-- An answer that reports an error comes with an unchanged database. -/
theorem refused_calls_change_nothing (cfg : InnerConfig) (reports : ReportTable)
    (call : InnerCall) (h : 400 ≤ (call.serve cfg env reports w).2.status) :
    (call.serve cfg env reports w).1.db = w.db := by
  obtain ⟨authorization, route⟩ := call
  unfold InnerCall.serve at h ⊢
  dsimp only at h ⊢
  by_cases hrefused : route.isGuarded = true ∧ authorization ≠ "Bearer " ++ cfg.authToken
  · rw [if_pos hrefused]
  · rw [if_neg hrefused] at h ⊢
    cases route with
    | healthz | verifyLogin | verifyRealName | reports | list | get | unknown => rfl
    | create input => exact createAdminAccount_refused rfl h
    | update id input => exact updateAdminAccount_refused rfl h
    | delete id request => exact removeAdminAccount_refused rfl h
    | hardDelete id request => exact removeAdminAccount_refused rfl h
    | restore id input => exact restoreAdminAccount_refused rfl h
    | password id input => exact changeAdminPassword_refused rfl h
    | logoutAll id => exact logoutAdminDevices_refused rfl h

theorem createAdminAccount_changes (w : World) (input : Except String AccountInput) :
    Changes env w (createAdminAccount env w input).1 := by
  unfold createAdminAccount
  split
  · exact Relation.ReflTransGen.refl
  next input =>
  dsimp only
  have hhashed : Changes env w (if input.password = "" then (w, .ok "")
      else passwordHash env w input.password).1 := by
    split
    · exact Relation.ReflTransGen.refl
    · exact (passwordHash_keeps w input.password).changes
  split
  · next heq => simpa [heq] using hhashed
  next v hash heq =>
  rw [heq] at hhashed
  have hcreate : Changes env w (createAccount env v input.phone input.email hash).1 :=
    hhashed.trans (createAccount_changes v input.phone input.email hash)
  split
  · next heq' => simpa [heq'] using hcreate
  · next heq' => simpa [heq'] using hcreate

theorem applyUpdate_changes (w : World) (id : ℕ) (input : AccountUpdate) :
    Changes env w (applyUpdate env w id input).1 := by
  unfold applyUpdate
  dsimp only
  have hrebound : Changes env w (if input.phone.isSome = true ∨ input.email.isSome = true then
      updateBindings env w id input.phone input.email else (w, .ok ())).1 := by
    split
    · exact updateBindingsTx_changes w id _ _ _ _
    · exact Relation.ReflTransGen.refl
  split
  · next heq => simpa [heq] using hrebound
  next heq =>
  rw [heq] at hrebound
  cases input.isSafe with
  | none => exact hrebound
  | some safe => exact hrebound.trans (setSecurityOverride_changes _ id safe)

theorem updateAdminAccount_changes (w : World) (id : String)
    (input : Except String AccountUpdate) :
    Changes env w (updateAdminAccount env w id input).1 := by
  unfold updateAdminAccount
  split
  · exact Relation.ReflTransGen.refl
  next id _ =>
  split
  · exact Relation.ReflTransGen.refl
  next input =>
  have happly : Changes env w (applyUpdate env w id input).1 := applyUpdate_changes w id input
  split
  · next heq => simpa [heq] using happly
  next heq =>
  rw [heq] at happly
  split
  · exact happly
  · exact happly

theorem removeAdminAccount_changes (w : World) (request : Request) (hard : Bool) (id : String) :
    Changes env w (removeAdminAccount w request hard id).1 := by
  unfold removeAdminAccount
  split
  · exact Relation.ReflTransGen.refl
  next id _ =>
  have hremove : Changes env w (unbindAndDeleteUser request w id hard).1 :=
    (unbindAndDeleteUser_keeps w id hard).changes
  split
  · next heq => simpa [heq] using hremove
  · next heq => simpa [heq] using hremove

theorem restoreAdminAccount_changes (w : World) (id : String) (input : Except String String) :
    Changes env w (restoreAdminAccount env w id input).1 := by
  unfold restoreAdminAccount
  split
  · exact Relation.ReflTransGen.refl
  next id _ =>
  split
  · exact Relation.ReflTransGen.refl
  next phone =>
  have hrestore : Changes env w (restoreUser env w id phone).1 := restoreUser_changes w id phone
  split
  · next heq => simpa [heq] using hrestore
  · next heq => simpa [heq] using hrestore

theorem changeAdminPassword_changes (w : World) (id : String) (input : Except String String) :
    Changes env w (changeAdminPassword env w id input).1 := by
  unfold changeAdminPassword
  split
  · exact Relation.ReflTransGen.refl
  next id _ =>
  split
  · exact Relation.ReflTransGen.refl
  next password =>
  split
  · exact Relation.ReflTransGen.refl
  have hset : Changes env w (setPassword env w id password).1 :=
    (setPassword_keeps w id password).changes
  split
  · next heq => simpa [heq] using hset
  · next heq => simpa [heq] using hset

theorem logoutAdminDevices_changes (w : World) (id : String) :
    Changes env w (logoutAdminDevices w id).1 := by
  unfold logoutAdminDevices
  split
  · exact Relation.ReflTransGen.refl
  next id _ =>
  split
  · exact Relation.ReflTransGen.refl
  · exact (Change.revokeTokens w id).toChanges

theorem InnerCall.changes (cfg : InnerConfig) (reports : ReportTable) (w : World)
    (call : InnerCall) : Changes env w (call.serve cfg env reports w).1 := by
  obtain ⟨authorization, route⟩ := call
  unfold InnerCall.serve
  split
  · exact Relation.ReflTransGen.refl
  cases route with
  | healthz | verifyLogin | verifyRealName | reports | list | get | unknown =>
    exact Relation.ReflTransGen.refl
  | create input => exact createAdminAccount_changes w input
  | update id input => exact updateAdminAccount_changes w id input
  | delete id request => exact removeAdminAccount_changes w request false id
  | hardDelete id request => exact removeAdminAccount_changes w request true id
  | restore id input => exact restoreAdminAccount_changes w id input
  | password id input => exact changeAdminPassword_changes w id input
  | logoutAll id => exact logoutAdminDevices_changes w id

end

/-- A step of the public site, or a call of the internal service with the reports it finds. -/
inductive ServiceLabel
  | site (l : SiteLabel)
  | inner (reports : ReportTable) (call : InnerCall)

structure ServiceConfig where
  auth : AuthConfig
  inner : InnerConfig

def ServiceLabel.perform (cfg : ServiceConfig) (env : Externals) (w : World) :
    ServiceLabel → World
  | .site l => l.perform cfg.auth env w
  | .inner reports call => (call.serve cfg.inner env reports w).1

def ServiceStep (cfg : ServiceConfig) (env : Externals) (w : World) (l : ServiceLabel)
    (w' : World) : Prop := l.perform cfg env w = w'

theorem StoreInv.service {cfg : ServiceConfig} {env : Externals} {w w' : World} {l : ServiceLabel}
    (hinv : StoreInv env w) (hstep : ServiceStep cfg env w l w') : StoreInv env w' := by
  unfold ServiceStep at hstep
  rw [← hstep]
  cases l with
  | site l => exact hinv.site rfl
  | inner reports call => exact hinv.changes (InnerCall.changes cfg.inner reports w call)

theorem StoreInv.serviceRun {cfg : ServiceConfig} {env : Externals} {start : ℕ} {w : World}
    {log : List ServiceLabel} (hrun : Run (ServiceStep cfg env) (World.fresh env start) log w) :
    StoreInv env w :=
  hrun.invariant (fun hinv hstep => hinv.service hstep) (StoreInv.fresh start)

theorem cutBefore_eq_self_iff {mark : List Char} (hmark : mark ≠ []) (text : List Char) :
    cutBefore mark text = text ↔ ¬ mark <:+: text := by
  induction text with
  | nil => simp [cutBefore, hmark]
  | cons c rest ih =>
    rw [cutBefore, List.infix_cons_iff]
    by_cases hstart : mark.isPrefixOf (c :: rest) = true
    · rw [if_pos hstart]
      simp [List.isPrefixOf_iff_prefix.mp hstart]
    · rw [if_neg hstart]
      have hnot : ¬ mark <+: c :: rest := fun h => hstart (List.isPrefixOf_iff_prefix.mpr h)
      simp [hnot, ih]

theorem beforeDeletedMark_eq_self_iff (s : String) :
    beforeDeletedMark s = s ↔ ¬ deletedMark.toList <:+: s.toList := by
  rw [← cutBefore_eq_self_iff (by decide) s.toList, beforeDeletedMark]
  constructor
  · intro h
    have htext := congrArg String.toList h
    rwa [String.toList_ofList] at htext
  · intro h
    rw [h, String.ofList_toList]

section
variable {env : Externals} {w w' : World} {r : UserRow} {x : String}

theorem shows_iff (hbound : r.Bound env) (hlive : r.deletedAt = none) (now : ℕ)
    (hunmarked : ¬ deletedMark.toList <:+: r.phone.toList) (hx : IsIdentifier env x) :
    (x = (r.adminAccount now).phone ∨ x = (r.adminAccount now).email) ↔ r.answersTo x = true := by
  have hne : x ≠ "" := by
    rcases hx with hphone | hemail
    · exact ne_empty_of_phone hphone
    · exact ne_empty_of_email hemail
  rw [UserRow.answersTo_iff]
  rcases hbound with ⟨hphone, -⟩ | ⟨hemail, hself⟩
  · have hat := hasAt_of_phone hphone
    simp only [UserRow.adminAccount, hat, Bool.false_eq_true, if_false, hlive, and_true]
    cases hemail : r.email with
    | none => simp [hne, eq_comm]
    | some email => simp [eq_comm]
  · have hwhole := (beforeDeletedMark_eq_self_iff r.phone).mpr hunmarked
    simp only [UserRow.adminAccount, hemail.1, if_true, hwhole, hlive, and_true, hself]
    simp [hne, eq_comm]

/-- In every state of the service the identifiers shown for a live account are the ones it
is found under, unless its email contains the mark of deleted accounts. -/
theorem shown_identifiers_lead_to_account {cfg : ServiceConfig} {start : ℕ}
    {log : List ServiceLabel} (hrun : Run (ServiceStep cfg env) (World.fresh env start) log w)
    (hr : r ∈ w.db.users.rows) :
    adminAccountByID w r.id = some (r.adminAccount w.now) ∧
    (r.deletedAt = none →
      ((∀ value, ResolvesTo env w value r.id ↔ ∃ x, normalizeAccount env value = .ok x ∧
        (x = (r.adminAccount w.now).phone ∨ x = (r.adminAccount w.now).email)) ↔
          ¬ deletedMark.toList <:+: r.phone.toList)) ∧
    (r.deletedAt ≠ none → ∀ value, ¬ ResolvesTo env w value r.id) := by
  have hinv := (StoreInv.serviceRun hrun).bindings
  refine ⟨?_, ?_, ?_⟩
  · rw [adminAccountByID, Table.first?_eq_of_unique hr (by simp) fun a ha hid =>
      w.db.user_eq_of_id ha hr (by simpa using hid)]
    rfl
  · intro hlive
    have hbound := hinv.bound r hr hlive
    constructor
    · intro hshown hmarked
      -- the whole address leads to the account, but it is not shown
      rcases hbound with ⟨hphone, -⟩ | ⟨hemail, -⟩
      · have hhash : '#' ∈ r.phone.toList := hmarked.subset (by decide)
        exact not_mem_of_phone hphone (Or.inl (by decide)) hhash
      · have hresolves : ResolvesTo env w r.phone r.id :=
          (resolvesTo_iff hinv hr r.phone).mpr
            ⟨r.phone, hemail.2, UserRow.answersTo_iff.mpr ⟨Or.inl rfl, hlive⟩⟩
        obtain ⟨x, hx, hshows⟩ := (hshown r.phone).mp hresolves
        rw [hemail.2] at hx
        cases hx
        simp only [UserRow.adminAccount, hemail.1, if_true] at hshows
        rcases hshows with hempty | hcut
        · exact ne_empty_of_email hemail hempty
        · exact (beforeDeletedMark_eq_self_iff r.phone).mp hcut.symm hmarked
    · intro hunmarked value
      rw [resolvesTo_iff hinv hr]
      refine exists_congr fun x => and_congr_right fun hx => ?_
      exact (shows_iff hbound hlive w.now hunmarked (isIdentifier_of_normalize hx)).symm
  · intro hdeleted value hresolves
    obtain ⟨x, -, hanswers⟩ := (resolvesTo_iff hinv hr value).mp hresolves
    exact hdeleted (UserRow.answersTo_iff.mp hanswers).2

/-- The users row after an update of the account. -/
def UserRow.afterUpdate (r : UserRow) (bindings : Option (String × String)) (safe : Option Bool)
    (now : ℕ) : UserRow :=
  let rebound := match bindings with
    | none => r
    | some (phone, email) => r.rebound phone email now
  match safe with
  | none => rebound
  | some safe => { rebound with securityOverride := some (if safe then 1 else 0) }

/-- The bindings that an update asks for, read from the row. -/
def AccountUpdate.bindings (input : AccountUpdate) (r : UserRow) : String × String :=
  (input.phone.getD (currentBindings r).1, input.email.getD (currentBindings r).2)

def AccountUpdate.Rebinds (input : AccountUpdate) : Prop :=
  input.phone.isSome = true ∨ input.email.isSome = true

theorem updateBindings_rows {id : ℕ} {phone email : Option String}
    (h : updateBindings env w id phone email = (w', .ok ())) :
    ∃ row ∈ w.db.users.rows, row.isLive id = true ∧ ∃ p e,
      validateBindings env (phone.getD (currentBindings row).1)
        (email.getD (currentBindings row).2) = .ok (p, e) ∧
      w'.db.users.rows = (w.db.users.rows.map fun r =>
        if r.id == id then r.rebound p e w.now else r) ∧
      w'.db.authSessions = w.db.authSessions ∧ w'.now = w.now := by
  rcases updateBindingsTx_cases h with ⟨_, he, -⟩ | ⟨row, p, e, users, hrow, -, hvalid, hu, -, rfl⟩
  · cases he
  · exact ⟨row, Table.mem_of_first? hrow, Table.first?_holds hrow, p, e, hvalid,
      Table.update?_rows hu, rfl, rfl⟩

theorem setSecurityOverride_rows_ok {id : ℕ} {safe : Bool}
    (h : setSecurityOverride w id safe = (w', .ok ())) :
    w'.db.users.rows = (w.db.users.rows.map fun r =>
      if r.id == id then r.afterUpdate none (some safe) w.now else r) ∧
      w'.db.authSessions = w.db.authSessions ∧ w'.now = w.now := by
  unfold setSecurityOverride at h
  split at h
  · cases h
  · cases h
    exact ⟨rfl, rfl, rfl⟩

/-- What a successful update writes: the row of its account and nothing else. -/
structure Updates (env : Externals) (input : AccountUpdate) (id : ℕ)
    (bindings : Option (String × String)) (w w' : World) : Prop where
  rows : w'.db.users.rows = w.db.users.rows.map fun r =>
    if r.id == id then r.afterUpdate bindings input.isSafe w.now else r
  sessions : w'.db.authSessions = w.db.authSessions
  now : w'.now = w.now
  rebinds : ∀ p e, bindings = some (p, e) → input.Rebinds ∧ ∃ row ∈ w.db.users.rows,
    row.isLive id = true ∧
      validateBindings env (input.bindings row).1 (input.bindings row).2 = .ok (p, e)
  keeps : bindings = none → ¬ input.Rebinds

theorem applyUpdate_ok {id : ℕ} {input : AccountUpdate}
    (h : applyUpdate env w id input = (w', .ok ())) :
    ∃ bindings, Updates env input id bindings w w' := by
  unfold applyUpdate at h
  dsimp only at h
  split at h
  · cases h
  next v hrebound =>
  have hfirst : ∃ bindings, Updates env { input with isSafe := none } id bindings w v := by
    split at hrebound
    · next hrebinds =>
      obtain ⟨row, hrow, hlive, p, e, hvalid, hrows, hsessions, hnow⟩ :=
        updateBindings_rows hrebound
      refine ⟨some (p, e), hrows, hsessions, hnow, ?_, nofun⟩
      intro p' e' hsome
      cases hsome
      exact ⟨hrebinds, row, hrow, hlive, hvalid⟩
    · next hkeeps =>
      cases hrebound
      refine ⟨none, ?_, rfl, rfl, nofun, fun _ => hkeeps⟩
      simp [UserRow.afterUpdate]
  obtain ⟨bindings, hfirst⟩ := hfirst
  refine ⟨bindings, ?_⟩
  cases hsafe : input.isSafe with
  | none =>
    rw [hsafe] at h
    cases h
    refine ⟨?_, hfirst.sessions, hfirst.now, hfirst.rebinds, hfirst.keeps⟩
    rw [hsafe]
    exact hfirst.rows
  | some safe =>
    rw [hsafe] at h
    obtain ⟨hrows, hsessions, hnow⟩ := setSecurityOverride_rows_ok h
    refine ⟨?_, hsessions.trans hfirst.sessions, hnow.trans hfirst.now, hfirst.rebinds,
      hfirst.keeps⟩
    rw [hrows, hfirst.rows, List.map_map, hsafe, hfirst.now]
    refine List.map_congr_left ?_
    intro r _
    by_cases hid : r.id = id
    · subst hid
      cases bindings <;> simp [UserRow.afterUpdate, UserRow.rebound]
    · simp [hid]

theorem resolvesTo_rows_iff (hinv : BindingInv env w) (value : String) (id : ℕ) :
    ResolvesTo env w value id ↔ ∃ r ∈ w.db.users.rows, r.id = id ∧
      ∃ x, normalizeAccount env value = .ok x ∧ r.answersTo x = true := by
  constructor
  · rintro ⟨u, hu, rfl⟩
    cases hx : normalizeAccount env value with
    | error e =>
      rw [userByPhone, hx] at hu
      cases hu
    | ok x =>
      obtain ⟨r, hr, hanswers, rfl⟩ := (hinv.userByPhone_iff hx).mp hu
      exact ⟨r, hr, rfl, x, rfl, hanswers⟩
  · rintro ⟨r, hr, rfl, hx⟩
    exact (resolvesTo_iff hinv hr value).mpr hx

theorem afterUpdate_id (r : UserRow) (bindings : Option (String × String)) (safe : Option Bool)
    (now : ℕ) : (r.afterUpdate bindings safe now).id = r.id := by
  cases bindings <;> cases safe <;> rfl

/-- Without new bindings the row answers as before. -/
theorem afterUpdate_answersTo (r : UserRow) (safe : Option Bool) (now : ℕ) :
    (r.afterUpdate none safe now).answersTo x = r.answersTo x := by
  cases safe <;> rfl

/-- A rebound live row answers to its two new identifiers. -/
theorem rebound_answersTo {p e : String} {safe : Option Bool} {now : ℕ} (hlive : r.deletedAt = none)
    (hne : x ≠ "") :
    (r.afterUpdate (some (p, e)) safe now).answersTo x = true ↔ x = p ∨ x = e := by
  have hsame : (r.afterUpdate (some (p, e)) safe now).answersTo x =
      (r.rebound p e now).answersTo x := by
    cases safe <;> rfl
  rw [hsame, UserRow.answersTo_iff]
  simp only [UserRow.rebound, primaryOf, emailValue, hlive, and_true]
  by_cases hp : p = ""
  · subst hp
    by_cases he : e = ""
    · subst he
      simp [hne, eq_comm]
    · simp [he, hne, eq_comm]
  · by_cases he : e = ""
    · subst he
      simp [hp, hne, eq_comm]
    · simp [hp, he, eq_comm]

theorem Updates.others {input : AccountUpdate} {id : ℕ} {bindings : Option (String × String)}
    (h : Updates env input id bindings w w') (hinv : BindingInv env w) (hinv' : BindingInv env w')
    {other : ℕ} (hother : other ≠ id) (value : String) :
    ResolvesTo env w' value other ↔ ResolvesTo env w value other := by
  have hrows : ∀ r : UserRow, r.id = other → (r ∈ w'.db.users.rows ↔ r ∈ w.db.users.rows) := by
    rintro r rfl
    rw [h.rows, List.mem_map]
    constructor
    · rintro ⟨a, ha, hrow⟩
      split at hrow
      · next hid =>
        rw [← hrow, afterUpdate_id] at hother
        exact absurd (by simpa using hid) hother
      · exact hrow ▸ ha
    · intro hr
      refine ⟨r, hr, ?_⟩
      rw [if_neg]
      simpa using hother
  rw [resolvesTo_rows_iff hinv, resolvesTo_rows_iff hinv']
  refine exists_congr fun r => ?_
  constructor
  · rintro ⟨hr, hid, hx⟩
    exact ⟨(hrows r hid).mp hr, hid, hx⟩
  · rintro ⟨hr, hid, hx⟩
    exact ⟨(hrows r hid).mpr hr, hid, hx⟩

/-- An accepted update moves the identifiers it was asked to move, of its own account only. -/
theorem accepted_updates_move_their_account {cfg : ServiceConfig} {start : ℕ}
    {log : List ServiceLabel} (hrun : Run (ServiceStep cfg env) (World.fresh env start) log w)
    {id : String} {input : AccountUpdate} {a : AdminAccount}
    (h : updateAdminAccount env w id (.ok input) = (w', ⟨200, .account a⟩)) :
    ∃ r ∈ w.db.users.rows, pathID id = some r.id ∧ adminAccountByID w' r.id = some a ∧
      w'.db.authSessions = w.db.authSessions ∧
      (∀ other ≠ r.id, ∀ value, ResolvesTo env w' value other ↔ ResolvesTo env w value other) ∧
      (¬ input.Rebinds → ∀ value, ResolvesTo env w' value r.id ↔ ResolvesTo env w value r.id) ∧
      (input.Rebinds → r.deletedAt = none ∧ a.securityChangedAt = w.now ∧ ∃ p e,
        validateBindings env (input.bindings r).1 (input.bindings r).2 = .ok (p, e) ∧
        ∀ value, ResolvesTo env w' value r.id ↔
          ∃ x, normalizeAccount env value = .ok x ∧ (x = p ∨ x = e)) ∧
      ∀ safe, input.isSafe = some safe → a.isSafe = safe := by
  have hinv := StoreInv.serviceRun hrun
  have hinv' : StoreInv env w' := by
    have hchanges : Changes env w (updateAdminAccount env w id (.ok input)).1 :=
      updateAdminAccount_changes w id (.ok input)
    rw [h] at hchanges
    exact hinv.changes hchanges
  unfold updateAdminAccount at h
  split at h
  · cases h
  next n hpath =>
  dsimp only at h
  split at h
  · cases h
  next v happly =>
  split at h
  · cases h
  next shown hshown =>
  cases h
  obtain ⟨bindings, hupdates⟩ := applyUpdate_ok happly
  obtain ⟨row', hrow', rfl⟩ := Option.map_eq_some_iff.mp hshown
  have hid' : row'.id = n := by simpa using Table.first?_holds hrow'
  have hmem' := Table.mem_of_first? hrow'
  obtain ⟨r, hr, hid, hafter⟩ : ∃ r ∈ w.db.users.rows, r.id = n ∧
      r.afterUpdate bindings input.isSafe w.now = row' := by
    rw [hupdates.rows] at hmem'
    obtain ⟨r, hr, hrow⟩ := List.mem_map.mp hmem'
    split at hrow
    · next hid => exact ⟨r, hr, by simpa using hid, hrow⟩
    · next hid =>
      rw [← hrow] at hid'
      exact absurd hid' (by simpa using hid)
  subst hid
  have hresolves := fun value => resolvesTo_iff hinv'.bindings (Table.mem_of_first? hrow') value
  rw [hid'] at hresolves
  refine ⟨r, hr, hpath, ?_, hupdates.sessions, ?_, ?_, ?_, ?_⟩
  · rw [adminAccountByID, hrow']
    rfl
  · intro other hother value
    exact hupdates.others hinv.bindings hinv'.bindings hother value
  · intro hkeeps value
    cases hb : bindings with
    | some pair => exact absurd (hupdates.rebinds pair.1 pair.2 hb).1 hkeeps
    | none =>
      rw [hb] at hafter
      rw [hresolves, resolvesTo_iff hinv.bindings hr, ← hafter]
      simp only [afterUpdate_answersTo]
  · intro hrebinds
    cases hb : bindings with
    | none => exact absurd hrebinds (hupdates.keeps hb)
    | some pair =>
      obtain ⟨p, e⟩ := pair
      obtain ⟨-, row, hrow, hlive, hvalid⟩ := hupdates.rebinds p e hb
      obtain ⟨hrowID, hdeleted⟩ := UserRow.isLive_iff.mp hlive
      rw [w.db.user_eq_of_id hrow hr hrowID] at hdeleted hvalid
      rw [hb] at hafter
      refine ⟨hdeleted, ?_, p, e, hvalid, ?_⟩
      · rw [← hafter]
        cases input.isSafe <;> rfl
      · intro value
        rw [hresolves, ← hafter]
        refine exists_congr fun x => and_congr_right fun hx => ?_
        have hne : x ≠ "" := by
          rcases isIdentifier_of_normalize hx with hphone | hemail
          · exact ne_empty_of_phone hphone
          · exact ne_empty_of_email hemail
        exact rebound_answersTo hdeleted hne
  · intro safe hsafe
    rw [← hafter, hsafe]
    cases safe <;> cases bindings <;> rfl

end

def innerConfig : InnerConfig :=
  { authToken := "secret", realID := "110101199001010010", realName := "已认证" }

def serviceConfig : ServiceConfig := { auth := openConfig, inner := innerConfig }

def creation : ServiceLabel :=
  .inner .empty ⟨"Bearer secret", .create (.ok ⟨"13800000000", "", ""⟩)⟩

def worldCreated : World := creation.perform serviceConfig .unary (World.fresh .unary 0)

theorem created_account_is_found : ResolvesTo .unary worldCreated " 13800000000" 100000001 := by
  have hrun : Run (ServiceStep serviceConfig .unary) (World.fresh .unary 0) [creation]
      worldCreated := Run.single rfl
  obtain ⟨r, hr, hid, hlive, hphone⟩ : ∃ r ∈ worldCreated.db.users.rows, r.id = 100000001 ∧
      r.deletedAt = none ∧ r.phone = "13800000000" := by decide
  have hlaw := (shown_identifiers_lead_to_account hrun hr).2.1 hlive
  rw [hphone] at hlaw
  rw [← hid]
  refine (hlaw.mpr (by decide) " 13800000000").mpr ⟨"13800000000", by decide, Or.inl ?_⟩
  show "13800000000" = if hasAt r.phone = true then "" else r.phone
  rw [hphone]
  decide

/-- A new email that is refused takes the new phone number with it. -/
def refusedUpdate : InnerCall :=
  ⟨"Bearer secret", .update "100000001" (.ok ⟨some "13900000000", some "nobody", some true⟩)⟩

theorem refused_update_changes_nothing :
    (refusedUpdate.serve innerConfig .unary .empty worldCreated).1.db = worldCreated.db :=
  refused_calls_change_nothing innerConfig .empty refusedUpdate (by decide)

theorem updated_account_is_found_anew :
    ∃ id, pathID "100000001" = some id ∧ ResolvesTo .unary (updateAdminAccount .unary worldCreated
      "100000001" (.ok ⟨some "13900000000", none, none⟩)).1 "13900000000" id := by
  have hrun : Run (ServiceStep serviceConfig .unary) (World.fresh .unary 0) [creation]
      worldCreated := Run.single rfl
  obtain ⟨a, ha⟩ : ∃ a, updateAdminAccount .unary worldCreated "100000001"
      (.ok ⟨some "13900000000", none, none⟩) = (_, ⟨200, .account a⟩) := ⟨_, rfl⟩
  obtain ⟨r, hr, hpath, -, -, -, -, hrebinds, -⟩ := accepted_updates_move_their_account hrun ha
  obtain ⟨-, -, p, e, hvalid, hresolves⟩ := hrebinds (Or.inl rfl)
  refine ⟨r.id, hpath, ?_⟩
  rw [ha]
  refine (hresolves "13900000000").mpr ⟨"13900000000", by decide, Or.inl ?_⟩
  have hrow : ∀ r ∈ worldCreated.db.users.rows,
      validateBindings .unary "13900000000" (currentBindings r).2 = .ok ("13900000000", "") := by
    decide
  have hsame := hvalid.symm.trans (hrow r hr)
  cases hsame
  rfl

end PapeSdk
