import SalesDashboard.Accounts.Store
import SalesDashboard.Lib.Calls

/-! The calls of `authService.ts`, `userService.ts` and `roleService.ts` that read or
write an account, a role, or who holds which, statement by statement. What bcrypt, the
random generators and the clock give a call is part of the call. -/

namespace SalesDashboard.Accounts
open Firsts Calls

/-! ## Writes -/

/-- A statement outside a transaction, or a whole transaction. -/
inductive Write
  | failedLogin (userId count : Nat) (status : UserStatus)
  | loginOk (userId : Nat)
  | setStatus (userId : Nat) (status : UserStatus)
  | adminReset (userId : Nat) (hash : String)
  | changePassword (userId : Nat) (hash : String)
  | resetPassword (userId : Nat) (hash : String)
  | insertUser (email hash : String) (status : UserStatus) (roleId : Nat) (role : Role)
  | insertUserRole (userId roleId : Nat)
  | deleteTier (userId : Nat)
  | insertTier (userId : Nat) (tier : String)
  | assignRoles (x : RoleAssignment)
  | createRole (label tierCode : String)
  | changeRole (x : RoleChange)
  | deleteRole (x : RoleDeletion)
  deriving DecidableEq

/-- What the environment fixes: `ACCOUNT_LOCK_THRESHOLD`, the hash functions, and the
upper-casing and decomposition of a label. -/
structure Env where
  threshold : Nat
  verifyPassword : String → String → Bool
  hashResetToken : String → String
  upperNFKD : String → List Char

/-! ### Role codes -/

def isCodeChar (c : Char) : Bool := ('A' ≤ c ∧ c ≤ 'Z') ∨ ('0' ≤ c ∧ c ≤ '9')

/-- `replace(/[^A-Z0-9]+/g, '_')`. -/
def collapse : Bool → List Char → List Char
  | _, [] => []
  | afterGap, c :: cs =>
      if isCodeChar c then c :: collapse false cs
      else if afterGap then collapse true cs
      else '_' :: collapse true cs

def trimUnderscores (cs : List Char) : List Char :=
  ((cs.dropWhile (· = '_')).reverse.dropWhile (· = '_')).reverse

/-- Always starts with `C_`. -/
def roleCodeFromLabel (env : Env) (label : String) : List Char :=
  let slug := (trimUnderscores (collapse false (env.upperNFKD label))).take 24
  'C' :: '_' :: (if slug = [] then "ROLE".toList else slug)

def codeCandidate (base : List Char) (i : Nat) : String :=
  String.ofList (if i = 1 then base else base.take 26 ++ '_' :: (toString i).toList)

def uniqueRoleCode (env : Env) (db : Database) (label : String) : Option String :=
  ((List.range' 1 999).map (codeCandidate (roleCodeFromLabel env label))).find?
    fun code => ! db.codeTaken code

/-- The transaction of `createRole`. -/
def Database.createRole (env : Env) (db : Database) (label tierCode : String) :
    Option (Database × Option Nat) :=
  if db.labelTaken label 0 then none
  else if tierCode = "" ∨ tierCode ∉ db.roleTiers then none
  else match uniqueRoleCode env db label with
    | none => none
    | some code => some ({ db with
        roles := Function.update db.roles db.nextRoleId (some ⟨code, label, some tierCode, false⟩)
        nextRoleId := db.nextRoleId + 1 }, some db.nextRoleId)

/-- `INSERT INTO app_user`: the email has to be free, and the role there. -/
def Database.insertUser (db : Database) (email hash : String) (status : UserStatus) (roleId : Nat) :
    Option (Database × Option Nat) :=
  if db.userByEmail email ≠ none ∨ db.roles roleId = none then none
  else some ({ db with
    users := Function.update db.users db.nextUserId
      (some ⟨email, hash, status, true, 0, none, some roleId⟩)
    nextUserId := db.nextUserId + 1 }, some db.nextUserId)

/-- The effect of a write, with the inserted id. -/
def Write.run (env : Env) (db : Database) : Write → Option (Database × Option Nat)
  | .failedLogin u count status =>
      some (db.updateUser u fun user => { user with failedLoginCount := count, status := status },
        none)
  | .loginOk u => some (db.updateUser u fun user => { user with failedLoginCount := 0 }, none)
  | .setStatus u status =>
      some (db.updateUser u fun user => { user with status := status, failedLoginCount := 0 }, none)
  | .adminReset u hash =>
      some (db.updateUser u fun user => { user with
        passwordHash := hash
        mustChangePassword := true
        status := if user.status = .ACTIVE then .PENDING_PASSWORD_CHANGE else user.status
        failedLoginCount := 0 }, none)
  | .changePassword u hash =>
      some (db.updateUser u fun user => { user with
        passwordHash := hash
        mustChangePassword := false
        status := if user.status = .PENDING_PASSWORD_CHANGE then .ACTIVE else user.status }, none)
  | .resetPassword u hash =>
      some (db.updateUser u fun user => { user with
        passwordHash := hash
        mustChangePassword := false
        status := if user.status = .PENDING_PASSWORD_CHANGE then .ACTIVE else user.status
        resetToken := none
        failedLoginCount := 0 }, none)
  | .insertUser email hash status roleId _ => db.insertUser email hash status roleId
  | .insertUserRole u roleId => some (db.insertUserRole u roleId, none)
  | .deleteTier u => some (db.deleteTier u, none)
  | .insertTier u tier => (db.insertTier u tier).map fun d => (d, none)
  | .assignRoles x => (db.assignRoles x).map fun d => (d, none)
  | .createRole label tierCode => db.createRole env label tierCode
  | .changeRole x => (db.changeRole x).map fun d => (d, none)
  | .deleteRole x => (db.deleteRole x).map fun d => (d, none)

/-! ## Calls -/

inductive Outcome
  | ok | refused | failed
  deriving DecidableEq, Repr

/-- The rest of a call. -/
abbrev Rest := Prog Database Write (Option Nat) Outcome

def finish : Option Nat → Rest := fun _ => .done .ok

structure CreateUserInput where
  email : String
  roleId : Nat
  extraRoleIds : List Nat
  status : Option UserStatus
  tempPassword : String
  hash : String
  deriving DecidableEq

inductive Call
  | login (email password : String)
  | setUserStatus (userId : Nat) (status : UserStatus)
  | adminResetPassword (userId : Nat) (tempPassword hash : String)
  | changePassword (userId : Nat) (currentPassword newPassword hash : String)
  | resetPassword (token newPassword hash : String) (now : Nat)
  | createUser (input : CreateUserInput)
  | setUserRoles (userId : Nat) (roleIds : List Nat) (primaryRoleId : Option Nat)
  | createRole (label : String) (tierCode : Option String)
  | updateRole (roleId : Nat) (label tierCode : Option String)
  | deleteRole (roleId : Nat) (replacementRoleId : Option Nat)
  deriving DecidableEq

/-! ### Signing in, passwords, statuses -/

/-- The length of a string in UTF-16 units. -/
def utf16Length (s : String) : Nat :=
  (s.toList.map fun c => if c.toNat < 65536 then 1 else 2).sum

def validatePasswordPolicy (plain : String) : Option String :=
  if utf16Length plain < 8 then some "Password must be at least 8 characters long."
  else if (plain.toList.any fun c => ('A' ≤ c ∧ c ≤ 'Z') ∨ ('a' ≤ c ∧ c ≤ 'z')) = false ∨
      (plain.toList.any fun c => ('0' ≤ c ∧ c ≤ '9' : Bool)) = false then
    some "Password must contain at least one letter and one number."
  else none

/-- A failed attempt writes the counter and the status it read, locked when the counter
reaches the threshold. -/
def failedLogin (env : Env) (userId : Nat) (user : AppUser) : Write :=
  let nextFailedCount := user.failedLoginCount + 1
  let shouldAutoLock := decide (env.threshold ≤ nextFailedCount) && user.status.canSignIn
  .failedLogin userId nextFailedCount (if shouldAutoLock then .LOCKED else user.status)

def login (env : Env) (email password : String) : Rest :=
  .read fun db =>
    match db.userByEmail email with
    | none => .done .refused
    | some (userId, user) =>
        if env.verifyPassword password user.passwordHash = false then
          .write (failedLogin env userId user) fun _ => .done .refused
        else if user.status.canSignIn = false then .done .refused
        else .write (.loginOk userId) finish

/-- Each of these is two statements: the Admin role's id, then the rows. -/
def adminRoleId (next : Option Nat → Rest) : Rest := .read fun db => next db.adminRoleId

def countOtherActiveAdmins (userId : Nat) (next : Nat → Rest) : Rest :=
  adminRoleId fun
    | none => next 0
    | some adminId => .read fun db => next (db.otherActive adminId userId)

def userHoldsAdmin (userId : Nat) (next : Bool → Rest) : Rest :=
  adminRoleId fun
    | none => next false
    | some adminId => .read fun db => next (decide (adminId ∈ db.userRoles userId))

def assertCanDeactivate (userId : Nat) (next : Rest) : Rest :=
  userHoldsAdmin userId fun holds =>
    if holds then countOtherActiveAdmins userId fun n => if n = 0 then .done .refused else next
    else next

def setUserStatus (userId : Nat) (status : UserStatus) : Rest :=
  let update := Prog.write (.setStatus userId status) finish
  if status = .INACTIVE ∨ status = .LOCKED then assertCanDeactivate userId update else update

def adminResetPassword (userId : Nat) (tempPassword hash : String) : Rest :=
  .read fun db =>
    match db.users userId with
    | none => .done .refused
    | some _ =>
        if validatePasswordPolicy tempPassword ≠ none then .done .refused
        else .write (.adminReset userId hash) finish

def changePassword (env : Env) (userId : Nat) (currentPassword newPassword hash : String) : Rest :=
  .read fun db =>
    match db.users userId with
    | none => .done .refused
    | some user =>
        if env.verifyPassword currentPassword user.passwordHash = false then .done .refused
        else if validatePasswordPolicy newPassword ≠ none then .done .refused
        else .write (.changePassword userId hash) finish

def resetPassword (env : Env) (token newPassword hash : String) (now : Nat) : Rest :=
  .read fun db =>
    match db.userByToken (env.hashResetToken token) now with
    | none => .done .refused
    | some userId =>
        if validatePasswordPolicy newPassword ≠ none then .done .refused
        else .write (.resetPassword userId hash) finish

/-! ### Users and roles -/

/-- Outside a transaction the two statements of `syncRoleTierAssignment` are two steps. -/
def syncRoleTierAssignment (userId : Nat) (tier : Option String) : Rest :=
  .write (.deleteTier userId) fun _ =>
    match tierRows tier with
    | [] => .done .ok
    | t :: _ => .write (.insertTier userId t) finish

def insertUserRoles (userId : Nat) (tier : Option String) : List Nat → Rest
  | [] => syncRoleTierAssignment userId tier
  | r :: rs => .write (.insertUserRole userId r) fun _ => insertUserRoles userId tier rs

/-- The last part of `createUser`, with the inserted id. -/
def grantRoles (input : CreateUserInput) (role : Role) (userId : Nat) : Rest :=
  let allRoleIds := firsts (input.roleId :: input.extraRoleIds)
  .read fun db =>
    insertUserRoles userId role.tier (allRoleIds.filter fun r => decide (db.roles r ≠ none))

def afterInsert (input : CreateUserInput) (role : Role) : Option Nat → Rest
  | none => .done .failed
  | some userId => grantRoles input role userId

def createUser (input : CreateUserInput) : Rest :=
  .read fun db =>
    if db.userByEmail input.email ≠ none then .done .refused
    else .read fun db =>
      match db.roles input.roleId with
      | none => .done .refused
      | some role =>
          if validatePasswordPolicy input.tempPassword ≠ none then .done .refused
          else .write (.insertUser input.email input.hash
              (input.status.getD .PENDING_PASSWORD_CHANGE) input.roleId role)
            (afterInsert input role)

/-- The current primary role when it is still assigned, else the first of the roles. -/
def keptPrimary (ids : List Nat) (h : ids ≠ []) (current : Option Nat) : { p // p ∈ ids } :=
  match current with
  | none => ⟨ids.head h, List.head_mem h⟩
  | some c => if hc : c ∈ ids then ⟨c, hc⟩ else ⟨ids.head h, List.head_mem h⟩

/-- The last part of `setUserRoles`: the primary role and the transaction. -/
def assignPrimary (userId : Nat) (ids : List Nat) (hids : ids ≠ []) (tierOf : Nat → Option String)
    (current primaryRoleId : Option Nat) : Rest :=
  let transaction : { p // p ∈ ids } → Rest := fun p =>
    .write (.assignRoles ⟨userId, ids, p.1, tierOf p.1, p.2⟩) finish
  match primaryRoleId with
  | none => transaction (keptPrimary ids hids current)
  | some p => if hp : p ∈ ids then transaction ⟨p, hp⟩ else .done .refused

def setUserRoles (userId : Nat) (roleIds : List Nat) (primaryRoleId : Option Nat) : Rest :=
  let ids := firsts (roleIds.filter fun n => decide (0 < n))
  if hids : ids = [] then .done .refused
  else .read fun db =>
    let tierOf := fun r => (db.roles r).bind (·.tier)
    if (ids.all fun r => decide (db.roles r ≠ none)) = false then .done .refused
    else .read fun db =>
      match db.users userId with
      | none => .done .refused
      | some user => .read fun db =>
          let beforeIds := db.userRoles userId
          adminRoleId fun admin =>
            let assign := assignPrimary userId ids hids tierOf user.roleId primaryRoleId
            match admin with
            | none => assign
            | some adminId =>
                if adminId ∈ beforeIds ∧ adminId ∉ ids then
                  countOtherActiveAdmins userId fun n => if n = 0 then .done .refused else assign
                else assign

def createRole (label : String) (tierCode : Option String) : Rest :=
  .write (.createRole label (tierCode.getD "BI00_EXECUTIVE")) finish

def updateRole (roleId : Nat) (label tierCode : Option String) : Rest :=
  .read fun db =>
    match db.roles roleId with
    | none => .done .refused
    | some before =>
        let newLabel := label.getD before.label
        let tierInput := tierCode.or before.tier
        if before.name = ADMIN_ROLE_NAME ∧ (newLabel ≠ before.label ∨ tierInput ≠ before.tier) then
          .done .refused
        else match tierInput with
          | none => .done .refused
          | some tier => .write (.changeRole ⟨roleId, before.label, newLabel, before.tier, tier⟩) finish

def deleteRole (roleId : Nat) (replacementRoleId : Option Nat) : Rest :=
  .read fun db =>
    match db.roles roleId with
    | none => .done .refused
    | some role =>
        if role.isSystem then .done .refused
        else .read fun db =>
          let holders := db.holders roleId
          if holders = [] then
            .write (.deleteRole ⟨roleId, [], none, (fun _ h => by cases h), fun h => absurd rfl h⟩) finish
          else match replacementRoleId with
            | none => .done .refused
            | some r =>
                if hr : r = roleId then .done .refused
                else .read fun db =>
                  match db.roles r with
                  | none => .done .refused
                  | some replacement =>
                      .write (.deleteRole ⟨roleId, holders, some (r, replacement.tier),
                        fun _ h => Option.mem_some_iff.mp h ▸ hr, fun _ => Option.some_ne_none _⟩)
                        finish

def body (env : Env) : Call → Rest
  | .login email password => login env email password
  | .setUserStatus userId status => setUserStatus userId status
  | .adminResetPassword userId tempPassword hash => adminResetPassword userId tempPassword hash
  | .changePassword userId current new hash => changePassword env userId current new hash
  | .resetPassword token new hash now => resetPassword env token new hash now
  | .createUser input => createUser input
  | .setUserRoles userId roleIds primaryRoleId => setUserRoles userId roleIds primaryRoleId
  | .createRole label tierCode => createRole label tierCode
  | .updateRole roleId label tierCode => updateRole roleId label tierCode
  | .deleteRole roleId replacementRoleId => deleteRole roleId replacementRoleId

/-- The accounts service: its calls, and what their writes do. -/
def service (env : Env) : System Database Write (Option Nat) Outcome Call where
  body := body env
  write := Write.run env
  failed := .failed

abbrev Running := Calls.Running Database Write (Option Nat) Outcome Call
abbrev State := Calls.State Database Write (Option Nat) Outcome Call
abbrev Action := Calls.Action Call

def step (env : Env) : State → Action → Option State := Calls.step (service env)

/-- For concrete runs: passwords in the clear, threshold 2. -/
def plainEnv : Env := ⟨2, fun password hash => decide (password = hash), id, (·.toList)⟩

end SalesDashboard.Accounts
