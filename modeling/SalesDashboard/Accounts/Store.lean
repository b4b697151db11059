import SalesDashboard.Lib.Firsts
import Mathlib

/-! The account tables (`0009_auth_identity.sql`, `0026_roles_permissions.sql`) and the
statements that write them. A table is a function of its first key column, so one user
has the list of their `user_roles` role ids, and of their `user_role` tier codes.
Permissions, the audit log and the login history are left out: nothing here reads them. -/

namespace SalesDashboard.Accounts
open Function

inductive UserStatus
  | ACTIVE | INACTIVE | LOCKED | PENDING_PASSWORD_CHANGE
  deriving DecidableEq, Repr

/-- `status IN ('ACTIVE', 'PENDING_PASSWORD_CHANGE')`. -/
def UserStatus.canSignIn : UserStatus → Bool
  | .ACTIVE | .PENDING_PASSWORD_CHANGE => true
  | .INACTIVE | .LOCKED => false

/-- A row of `app_user`; `resetToken` is the hash and the expiry of a reset link. -/
structure AppUser where
  email : String
  passwordHash : String
  status : UserStatus
  mustChangePassword : Bool
  failedLoginCount : Nat
  resetToken : Option (String × Nat)
  roleId : Option Nat
  deriving DecidableEq

structure Role where
  name : String
  label : String
  tier : Option String
  isSystem : Bool
  deriving DecidableEq

structure Database where
  users : Nat → Option AppUser
  nextUserId : Nat
  roles : Nat → Option Role
  nextRoleId : Nat
  userRoles : Nat → List Nat
  userRole : Nat → List String
  roleTiers : List String

def ADMIN_ROLE_NAME : String := "ADMIN"

/-! ## Queries -/

def Database.userIds (db : Database) : List Nat := List.range db.nextUserId

def Database.adminRoleId (db : Database) : Option Nat :=
  (List.range db.nextRoleId).find? fun r =>
    match db.roles r with
    | some role => decide (role.name = ADMIN_ROLE_NAME)
    | none => false

def Database.canSignIn (db : Database) (userId : Nat) : Bool :=
  match db.users userId with
  | some user => user.status.canSignIn
  | none => false

/-- The count of `countOtherActiveAdmins`, once it has the Admin role's id. -/
def Database.otherActive (db : Database) (adminId userId : Nat) : Nat :=
  db.userIds.countP fun u => decide (adminId ∈ db.userRoles u ∧ u ≠ userId) && db.canSignIn u

def Database.userByEmail (db : Database) (email : String) : Option (Nat × AppUser) :=
  db.userIds.findSome? fun u =>
    match db.users u with
    | some user => if user.email = email then some (u, user) else none
    | none => none

def Database.userByToken (db : Database) (tokenHash : String) (now : Nat) : Option Nat :=
  db.userIds.find? fun u =>
    match db.users u with
    | some user => match user.resetToken with
      | some (hash, expires) => decide (hash = tokenHash ∧ now < expires)
      | none => false
    | none => false

def Database.holders (db : Database) (roleId : Nat) : List Nat :=
  db.userIds.filter fun u => decide (roleId ∈ db.userRoles u)

def Database.primaries (db : Database) (roleId : Nat) : List Nat :=
  db.userIds.filter fun u => decide ((db.users u).bind (·.roleId) = some roleId)

def Database.labelTaken (db : Database) (label : String) (exceptRoleId : Nat) : Bool :=
  (List.range db.nextRoleId).any fun r =>
    match db.roles r with
    | some role => decide (role.label = label ∧ r ≠ exceptRoleId)
    | none => false

def Database.codeTaken (db : Database) (code : String) : Bool :=
  (List.range db.nextRoleId).any fun r =>
    match db.roles r with
    | some role => decide (role.name = code)
    | none => false

/-! ## Statements -/

def Database.updateUser (db : Database) (userId : Nat) (f : AppUser → AppUser) : Database :=
  { db with users := update db.users userId ((db.users userId).map f) }

/-- `INSERT IGNORE INTO user_roles`: a row that is there, or whose user or role is
not, is skipped. -/
def Database.insertUserRole (db : Database) (userId roleId : Nat) : Database :=
  if roleId ∈ db.userRoles userId ∨ db.users userId = none ∨ db.roles roleId = none then db
  else { db with userRoles := update db.userRoles userId (db.userRoles userId ++ [roleId]) }

def Database.deleteUserRole (db : Database) (userId roleId : Nat) : Database :=
  { db with userRoles := update db.userRoles userId ((db.userRoles userId).filter (· ≠ roleId)) }

def Database.deleteTier (db : Database) (userId : Nat) : Database :=
  { db with userRole := update db.userRole userId [] }

/-- `INSERT INTO user_role`: fails on a duplicate, or without the user. -/
def Database.insertTier (db : Database) (userId : Nat) (tier : String) : Option Database :=
  if tier ∈ db.userRole userId ∨ db.users userId = none then none
  else some { db with userRole := update db.userRole userId (db.userRole userId ++ [tier]) }

/-- The tier a role gives: `''` gives none, like null. -/
def tierRows (tier : Option String) : List String :=
  match tier with
  | none => []
  | some t => if t = "" then [] else [t]

/-- `syncTier` inside a transaction. -/
def Database.syncTier (db : Database) (userId : Nat) (tier : Option String) : Option Database :=
  match tierRows tier with
  | [] => some (db.deleteTier userId)
  | t :: _ => (db.deleteTier userId).insertTier userId t

/-- `UPDATE app_user SET role_id = ?`: the role has to exist, unless no row is updated. -/
def Database.setPrimary (db : Database) (userId roleId : Nat) : Option Database :=
  if db.users userId ≠ none ∧ db.roles roleId = none then none
  else some (db.updateUser userId fun user => { user with roleId := some roleId })

/-! ## Transactions -/

/-- What the transaction of `setUserRoles` is given; the primary role is one of the roles. -/
structure RoleAssignment where
  userId : Nat
  ids : List Nat
  primary : Nat
  primaryTier : Option String
  primary_mem : primary ∈ ids
  deriving DecidableEq

def Database.assignRoles (db : Database) (x : RoleAssignment) : Option Database :=
  let kept := { db with
    userRoles := update db.userRoles x.userId ((db.userRoles x.userId).filter (· ∈ x.ids)) }
  let given := x.ids.foldl (fun d id => d.insertUserRole x.userId id) kept
  (given.setPrimary x.userId x.primary).bind fun d => d.syncTier x.userId x.primaryTier

/-- What the transaction of `updateRole` is given. -/
structure RoleChange where
  roleId : Nat
  beforeLabel : String
  label : String
  beforeTier : Option String
  tier : String
  deriving DecidableEq

def Database.changeRole (db : Database) (x : RoleChange) : Option Database :=
  if x.label ≠ x.beforeLabel ∧ db.labelTaken x.label x.roleId = true then none
  else if x.tier = "" ∨ x.tier ∉ db.roleTiers then none
  else
    let changed := { db with
      roles := update db.roles x.roleId ((db.roles x.roleId).map fun role =>
        { role with label := x.label, tier := some x.tier }) }
    if some x.tier ≠ x.beforeTier then
      (changed.primaries x.roleId).foldlM (fun d u => d.syncTier u (some x.tier)) changed
    else some changed

/-- What the transaction of `deleteRole` is given. -/
structure RoleDeletion where
  roleId : Nat
  holders : List Nat
  replacement : Option (Nat × Option String)
  replaced : ∀ r ∈ replacement, r.1 ≠ roleId
  given : holders ≠ [] → replacement ≠ none
  deriving DecidableEq

/-- The holders of the role get the replacement. -/
def Database.replaceHeld (db : Database) (x : RoleDeletion) : Database :=
  match x.replacement with
  | none => db
  | some (replacement, _) =>
      x.holders.foldl (fun d u => (d.insertUserRole u replacement).deleteUserRole u x.roleId) db

/-- So do the users whose primary role it is; without a replacement this fails for the
first of them. -/
def Database.replacePrimary (db : Database) (x : RoleDeletion) : Option Database :=
  (db.primaries x.roleId).foldlM (fun d u =>
    match x.replacement with
    | none => none
    | some (replacement, tier) => (d.setPrimary u replacement).bind fun d => d.syncTier u tier) db

/-- The row of the role goes last, and only when no user holds it any more. -/
def Database.deleteRole (db : Database) (x : RoleDeletion) : Option Database :=
  ((db.replaceHeld x).replacePrimary x).bind fun d =>
    if ∃ u ∈ d.userIds, x.roleId ∈ d.userRoles u then none
    else some { d with roles := update d.roles x.roleId none }

end SalesDashboard.Accounts
