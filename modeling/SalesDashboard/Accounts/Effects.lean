import SalesDashboard.Accounts.Calls
import Mathlib

/-! What the statements and transactions of the accounts service do to the tables: one
specification for each, that says all of it. -/

namespace SalesDashboard.Accounts
open Function Transition Calls

variable {db d' : Database}

/-! ## Single statements -/

theorem mem_insertUserRole {u v r q : Nat} :
    q ∈ (db.insertUserRole u r).userRoles v ↔
      q ∈ db.userRoles v ∨ v = u ∧ q = r ∧ db.users u ≠ none ∧ db.roles r ≠ none := by
  unfold Database.insertUserRole
  split
  · next h =>
    constructor
    · exact .inl
    · rintro (hq | ⟨rfl, rfl, hu, hr⟩)
      · exact hq
      · rcases h with h | h | h
        · exact h
        · exact absurd h hu
        · exact absurd h hr
  · next h =>
    simp only [not_or] at h
    by_cases hv : v = u
    · subst hv
      simp [update_self, h.2.1, h.2.2]
    · simp [hv]

@[simp]
theorem insertUserRole_users (u r : Nat) : (db.insertUserRole u r).users = db.users := by
  unfold Database.insertUserRole
  split <;> rfl

@[simp]
theorem insertUserRole_roles (u r : Nat) : (db.insertUserRole u r).roles = db.roles := by
  unfold Database.insertUserRole
  split <;> rfl

theorem mem_deleteUserRole {u v r q : Nat} :
    q ∈ (db.deleteUserRole u r).userRoles v ↔ q ∈ db.userRoles v ∧ ¬ (v = u ∧ q = r) := by
  unfold Database.deleteUserRole
  by_cases hv : v = u
  · subst hv
    simp [update_self]
  · simp [hv]

/-- The rows of `user_roles` change, and nothing else. -/
structure SameButHeld (db d' : Database) : Prop where
  users : d'.users = db.users
  nextUserId : d'.nextUserId = db.nextUserId
  roles : d'.roles = db.roles
  nextRoleId : d'.nextRoleId = db.nextRoleId
  userRole : d'.userRole = db.userRole
  roleTiers : d'.roleTiers = db.roleTiers

theorem SameButHeld.refl (db : Database) : SameButHeld db db := ⟨rfl, rfl, rfl, rfl, rfl, rfl⟩

theorem SameButHeld.trans {d₁ d₂ d₃ : Database} (h : SameButHeld d₁ d₂) (h' : SameButHeld d₂ d₃) :
    SameButHeld d₁ d₃ :=
  ⟨h'.users.trans h.users, h'.nextUserId.trans h.nextUserId, h'.roles.trans h.roles,
    h'.nextRoleId.trans h.nextRoleId, h'.userRole.trans h.userRole,
    h'.roleTiers.trans h.roleTiers⟩

theorem sameButHeld_insertUserRole (u r : Nat) : SameButHeld db (db.insertUserRole u r) := by
  unfold Database.insertUserRole
  split
  · exact .refl db
  · exact ⟨rfl, rfl, rfl, rfl, rfl, rfl⟩

theorem sameButHeld_deleteUserRole (u r : Nat) : SameButHeld db (db.deleteUserRole u r) :=
  ⟨rfl, rfl, rfl, rfl, rfl, rfl⟩

theorem syncTier_eq {u : Nat} {tier : Option String} (h : db.syncTier u tier = some d') :
    d' = { db with userRole := update db.userRole u (tierRows tier) } := by
  unfold Database.syncTier at h
  split at h
  · next ht =>
    cases h
    rw [ht]
    rfl
  · next t ts ht =>
    have hts : tierRows tier = [t] := by
      unfold tierRows at ht ⊢
      split at ht
      · cases ht
      · split at ht <;> cases ht
        next hne => exact if_neg hne
    unfold Database.insertTier Database.deleteTier at h
    split at h
    · cases h
    · cases h
      rw [hts]
      simp

theorem setPrimary_eq {u r : Nat} (h : db.setPrimary u r = some d') :
    d' = db.updateUser u (fun user => { user with roleId := some r }) ∧
      (db.users u ≠ none → db.roles r ≠ none) := by
  unfold Database.setPrimary at h
  split at h
  · cases h
  · next hne =>
    cases h
    exact ⟨rfl, fun hu hr => hne ⟨hu, hr⟩⟩

/-! ## `setUserRoles` -/

/-- What the transaction of `setUserRoles` does. -/
structure Assigned (db : Database) (x : RoleAssignment) (d' : Database) : Prop where
  users : d'.users = update db.users x.userId
    ((db.users x.userId).map fun user => { user with roleId := some x.primary })
  nextUserId : d'.nextUserId = db.nextUserId
  roles : d'.roles = db.roles
  nextRoleId : d'.nextRoleId = db.nextRoleId
  roleTiers : d'.roleTiers = db.roleTiers
  userRole : d'.userRole = update db.userRole x.userId (tierRows x.primaryTier)
  exists_primary : db.users x.userId ≠ none → db.roles x.primary ≠ none
  others : ∀ v ≠ x.userId, ∀ r, r ∈ d'.userRoles v ↔ r ∈ db.userRoles v
  held : ∀ r, r ∈ d'.userRoles x.userId ↔
    r ∈ x.ids ∧ (r ∈ db.userRoles x.userId ∨ db.users x.userId ≠ none ∧ db.roles r ≠ none)

theorem foldl_insertUserRole (u : Nat) (ids : List Nat) (db : Database) :
    SameButHeld db (ids.foldl (fun d id => d.insertUserRole u id) db) ∧
      ∀ v q, q ∈ (ids.foldl (fun d id => d.insertUserRole u id) db).userRoles v ↔
        q ∈ db.userRoles v ∨ v = u ∧ q ∈ ids ∧ db.users u ≠ none ∧ db.roles q ≠ none := by
  induction ids generalizing db with
  | nil => exact ⟨.refl db, fun v q => by simp⟩
  | cons r ids ih =>
    obtain ⟨hsame, hmem⟩ := ih (db.insertUserRole u r)
    refine ⟨(sameButHeld_insertUserRole u r).trans hsame, fun v q => ?_⟩
    rw [List.foldl_cons, hmem v q, mem_insertUserRole, insertUserRole_users, insertUserRole_roles,
      List.mem_cons]
    constructor
    · rintro ((hq | ⟨hv, rfl, hu, hr⟩) | ⟨hv, hq, hu, hr⟩)
      · exact .inl hq
      · exact .inr ⟨hv, .inl rfl, hu, hr⟩
      · exact .inr ⟨hv, .inr hq, hu, hr⟩
    · rintro (hq | ⟨hv, rfl | hq, hu, hr⟩)
      · exact .inl (.inl hq)
      · exact .inl (.inr ⟨hv, rfl, hu, hr⟩)
      · exact .inr ⟨hv, hq, hu, hr⟩

theorem assignRoles_spec {x : RoleAssignment} (h : db.assignRoles x = some d') :
    Assigned db x d' := by
  unfold Database.assignRoles at h
  simp only at h
  set kept : Database := { db with
    userRoles := update db.userRoles x.userId
      ((db.userRoles x.userId).filter (· ∈ x.ids)) } with hkept
  obtain ⟨hsame, hmem⟩ := foldl_insertUserRole x.userId x.ids kept
  obtain ⟨d, hprimary, hsync⟩ := Option.bind_eq_some_iff.mp h
  obtain ⟨hd, hexists⟩ := setPrimary_eq hprimary
  have hd' := syncTier_eq hsync
  rw [hsame.users, hsame.roles] at hexists
  rw [hd] at hd'
  have hrows : d'.userRoles = (x.ids.foldl (fun d id => d.insertUserRole x.userId id) kept).userRoles := by
    rw [hd']
    rfl
  refine ⟨?_, ?_, ?_, ?_, ?_, ?_, hexists, ?_, ?_⟩
  · rw [hd']
    show update (Database.users _) x.userId ((Database.users _ x.userId).map _) = _
    rw [hsame.users]
  · rw [hd']
    exact hsame.nextUserId
  · rw [hd']
    exact hsame.roles
  · rw [hd']
    exact hsame.nextRoleId
  · rw [hd']
    exact hsame.roleTiers
  · rw [hd']
    show update _ x.userId _ = _
    rw [show (Database.updateUser _ _ _).userRole = _ from hsame.userRole]
  · intro v hv r
    rw [hrows, hmem v r, hkept]
    simp [hv]
  · intro r
    rw [hrows, hmem x.userId r, hkept]
    simp only [update_self, List.mem_filter, decide_eq_true_eq, true_and]
    constructor
    · rintro (⟨hr, hid⟩ | ⟨hid, hu, hrole⟩)
      · exact ⟨hid, .inl hr⟩
      · exact ⟨hid, .inr ⟨hu, hrole⟩⟩
    · rintro ⟨hid, hr | ⟨hu, hrole⟩⟩
      · exact .inl ⟨hr, hid⟩
      · exact .inr ⟨hid, hu, hrole⟩

/-! ## `updateRole` -/

theorem mem_primaries {r v : Nat} :
    v ∈ db.primaries r ↔ v < db.nextUserId ∧ (db.users v).bind (·.roleId) = some r := by
  unfold Database.primaries Database.userIds
  rw [List.mem_filter, List.mem_range, decide_eq_true_eq]

theorem foldlM_syncTier {us : List Nat} {tier : Option String}
    (h : us.foldlM (fun d u => d.syncTier u tier) db = some d') :
    d' = { db with userRole := fun v => if v ∈ us then tierRows tier else db.userRole v } := by
  induction us generalizing db with
  | nil =>
    cases h
    simp
  | cons u us ih =>
    rw [List.foldlM_cons] at h
    obtain ⟨d, hd, hrest⟩ := Option.bind_eq_some_iff.mp h
    rw [ih hrest, syncTier_eq hd]
    congr 1
    funext v
    by_cases hv : v = u
    · subst hv
      simp
    · simp [hv]

/-- What the transaction of `updateRole` does. -/
structure Changed (db : Database) (x : RoleChange) (d' : Database) : Prop where
  users : d'.users = db.users
  nextUserId : d'.nextUserId = db.nextUserId
  roles : d'.roles = update db.roles x.roleId ((db.roles x.roleId).map fun role =>
    { role with label := x.label, tier := some x.tier })
  nextRoleId : d'.nextRoleId = db.nextRoleId
  roleTiers : d'.roleTiers = db.roleTiers
  userRoles : d'.userRoles = db.userRoles
  userRole : ∀ v, d'.userRole v =
    if some x.tier ≠ x.beforeTier ∧ v ∈ db.primaries x.roleId then tierRows (some x.tier)
    else db.userRole v
  tier_ne : x.tier ≠ ""

theorem changeRole_spec {x : RoleChange} (h : db.changeRole x = some d') : Changed db x d' := by
  unfold Database.changeRole at h
  split at h
  · cases h
  · split at h
    · cases h
    · next hlabel htier =>
      rw [not_or] at htier
      simp only at h
      split at h
      · next hne =>
        rw [foldlM_syncTier h]
        refine ⟨rfl, rfl, rfl, rfl, rfl, rfl, fun v => ?_, htier.1⟩
        rw [if_congr (and_iff_right hne) rfl rfl]
        rfl
      · next heq =>
        cases h
        exact ⟨rfl, rfl, rfl, rfl, rfl, rfl, fun v => (if_neg fun h => heq h.1).symm, htier.1⟩

/-! ## `deleteRole` -/

theorem foldl_replaceHeld (r q : Nat) (us : List Nat) (db : Database) :
    SameButHeld db
      (us.foldl (fun d u => (d.insertUserRole u q).deleteUserRole u r) db) ∧
      ∀ v p, p ∈ (us.foldl (fun d u => (d.insertUserRole u q).deleteUserRole u r) db).userRoles v ↔
        (p ∈ db.userRoles v ∨ v ∈ us ∧ p = q ∧ db.users v ≠ none ∧ db.roles q ≠ none) ∧
          ¬ (v ∈ us ∧ p = r) := by
  induction us generalizing db with
  | nil => exact ⟨.refl db, fun v p => by simp⟩
  | cons u us ih =>
    have hone : SameButHeld db ((db.insertUserRole u q).deleteUserRole u r) :=
      (sameButHeld_insertUserRole u q).trans (sameButHeld_deleteUserRole u r)
    obtain ⟨hsame, hmem⟩ := ih ((db.insertUserRole u q).deleteUserRole u r)
    refine ⟨hone.trans hsame, fun v p => ?_⟩
    rw [List.foldl_cons, hmem v p, mem_deleteUserRole, mem_insertUserRole, hone.users, hone.roles]
    by_cases hv : v = u
    · subst hv
      simp only [List.mem_cons, true_and, true_or]
      tauto
    · simp only [List.mem_cons, hv, false_or, false_and, or_false, not_false_iff, and_true]

theorem foldlM_replacePrimary {us : List Nat} {r : Nat} {tier : Option String}
    (hexists : ∀ u ∈ us, db.users u ≠ none)
    (h : us.foldlM (fun d u => (d.setPrimary u r).bind fun d => d.syncTier u tier) db = some d') :
    d' = { db with
      users := fun v => if v ∈ us then
        (db.users v).map fun user => { user with roleId := some r } else db.users v
      userRole := fun v => if v ∈ us then tierRows tier else db.userRole v } ∧
      (us ≠ [] → db.roles r ≠ none) := by
  induction us generalizing db with
  | nil =>
    cases h
    simp
  | cons u us ih =>
    rw [List.foldlM_cons] at h
    obtain ⟨d, hd, hrest⟩ := Option.bind_eq_some_iff.mp h
    obtain ⟨d₁, hprimary, hsync⟩ := Option.bind_eq_some_iff.mp hd
    obtain ⟨hd₁, hrole⟩ := setPrimary_eq hprimary
    have hd₂ := syncTier_eq hsync
    rw [hd₁] at hd₂
    have husers : ∀ v ∈ us, d.users v ≠ none := by
      intro v hv
      rw [hd₂]
      show update db.users u _ v ≠ none
      by_cases hvu : v = u
      · subst hvu
        rw [update_self, Ne, Option.map_eq_none_iff]
        exact hexists v (List.mem_cons_of_mem _ hv)
      · rw [update_of_ne hvu]
        exact hexists v (List.mem_cons_of_mem _ hv)
    obtain ⟨heq, -⟩ := ih husers hrest
    refine ⟨?_, fun _ => hrole (hexists u List.mem_cons_self)⟩
    rw [heq, hd₂]
    unfold Database.updateUser
    congr 1
    · funext v
      by_cases hv : v = u
      · subst hv
        cases db.users v <;> simp
      · simp [hv]
    · funext v
      by_cases hv : v = u
      · subst hv
        simp
      · simp [hv]

/-- What the transaction of `deleteRole` does. -/
structure Deleted (db : Database) (x : RoleDeletion) (d' : Database) : Prop where
  nextUserId : d'.nextUserId = db.nextUserId
  roles : d'.roles = update db.roles x.roleId none
  nextRoleId : d'.nextRoleId = db.nextRoleId
  roleTiers : d'.roleTiers = db.roleTiers
  others : ∀ v ∉ db.primaries x.roleId, d'.users v = db.users v ∧ d'.userRole v = db.userRole v
  primaries : ∀ v ∈ db.primaries x.roleId, ∃ q tier, x.replacement = some (q, tier) ∧
    db.roles q ≠ none ∧ d'.userRole v = tierRows tier ∧
    d'.users v = (db.users v).map fun user => { user with roleId := some q }
  kept : ∀ v, ∀ p ∈ db.userRoles v, p ≠ x.roleId → p ∈ d'.userRoles v
  given : ∀ v ∈ x.holders, ∀ q ∈ x.replacement, db.users v ≠ none → db.roles q.1 ≠ none →
    q.1 ∈ d'.userRoles v
  origin : ∀ v, ∀ p ∈ d'.userRoles v, p ∈ db.userRoles v ∨ db.users v ≠ none ∧ db.roles p ≠ none
  held : ∀ v, x.roleId ∈ db.userRoles v → v < db.nextUserId → v ∈ x.holders
  gone : ∀ v < db.nextUserId, x.roleId ∉ d'.userRoles v

theorem replaceHeld_spec (db : Database) (x : RoleDeletion) :
    SameButHeld db (db.replaceHeld x) ∧
      ∀ v p, p ∈ (db.replaceHeld x).userRoles v ↔
        (p ∈ db.userRoles v ∨ ∃ q ∈ x.replacement, v ∈ x.holders ∧ p = q.1 ∧ db.users v ≠ none ∧
          db.roles q.1 ≠ none) ∧ ¬ (v ∈ x.holders ∧ p = x.roleId) := by
  unfold Database.replaceHeld
  cases hrep : x.replacement with
  | none =>
    have hnil : x.holders = [] := by
      by_contra hne
      exact x.given hne hrep
    exact ⟨.refl db, fun v p => by simp [hnil]⟩
  | some q =>
    obtain ⟨hsame, hmem⟩ := foldl_replaceHeld x.roleId q.1 x.holders db
    refine ⟨hsame, fun v p => ?_⟩
    rw [hmem v p]
    simp

theorem replacePrimary_spec {x : RoleDeletion} (h : db.replacePrimary x = some d') :
    (d'.nextUserId = db.nextUserId ∧ d'.roles = db.roles ∧ d'.nextRoleId = db.nextRoleId ∧
      d'.roleTiers = db.roleTiers ∧ d'.userRoles = db.userRoles) ∧
    (∀ v ∉ db.primaries x.roleId, d'.users v = db.users v ∧ d'.userRole v = db.userRole v) ∧
    ∀ v ∈ db.primaries x.roleId, ∃ q tier, x.replacement = some (q, tier) ∧ db.roles q ≠ none ∧
      d'.userRole v = tierRows tier ∧
      d'.users v = (db.users v).map fun user => { user with roleId := some q } := by
  unfold Database.replacePrimary at h
  cases hrep : x.replacement with
  | none =>
    rw [hrep] at h
    cases hprim : db.primaries x.roleId with
    | nil =>
      rw [hprim] at h
      cases h
      exact ⟨⟨rfl, rfl, rfl, rfl, rfl⟩, (fun _ _ => ⟨rfl, rfl⟩), (fun _ hv => by cases hv)⟩
    | cons u us =>
      rw [hprim] at h
      cases h
  | some replacement =>
    obtain ⟨q, tier⟩ := replacement
    rw [hrep] at h
    have hexists : ∀ u ∈ db.primaries x.roleId, db.users u ≠ none := by
      intro u hu hnone
      have := (mem_primaries.mp hu).2
      rw [hnone] at this
      cases this
    obtain ⟨rfl, hrole⟩ := foldlM_replacePrimary hexists h
    refine ⟨⟨rfl, rfl, rfl, rfl, rfl⟩, fun v hv => ⟨if_neg hv, if_neg hv⟩, fun v hv => ?_⟩
    exact ⟨q, tier, rfl, hrole (List.ne_nil_of_mem hv), if_pos hv, if_pos hv⟩

theorem deleteRole_spec {x : RoleDeletion} (h : db.deleteRole x = some d') : Deleted db x d' := by
  unfold Database.deleteRole at h
  obtain ⟨d, hprimary, hdelete⟩ := Option.bind_eq_some_iff.mp h
  obtain ⟨hsame, hmem⟩ := replaceHeld_spec db x
  obtain ⟨⟨hnext, hroles, hnextRole, htiers, hrows⟩, hothers, hprimaries⟩ :=
    replacePrimary_spec hprimary
  have hprim : (db.replaceHeld x).primaries x.roleId = db.primaries x.roleId := by
    unfold Database.primaries Database.userIds
    rw [hsame.users, hsame.nextUserId]
  rw [hprim, hsame.users, hsame.userRole] at hothers
  rw [hprim, hsame.users, hsame.roles] at hprimaries
  split at hdelete
  · cases hdelete
  next hgone =>
  cases hdelete
  have hheld : ∀ v < db.nextUserId, x.roleId ∉ d.userRoles v := by
    intro v hv hr
    refine hgone ⟨v, ?_, hr⟩
    unfold Database.userIds
    rw [List.mem_range, hnext, hsame.nextUserId]
    exact hv
  refine ⟨hnext.trans hsame.nextUserId, ?_, hnextRole.trans hsame.nextRoleId,
    htiers.trans hsame.roleTiers, hothers, hprimaries, ?_, ?_, ?_, ?_, hheld⟩
  · show update d.roles x.roleId none = _
    rw [hroles, hsame.roles]
  · intro v p hp hne
    show p ∈ d.userRoles v
    rw [hrows, hmem v p]
    exact ⟨.inl hp, fun h => hne h.2⟩
  · intro v hv q hq hu hr
    show q.1 ∈ d.userRoles v
    rw [hrows, hmem v q.1]
    exact ⟨.inr ⟨q, hq, hv, rfl, hu, hr⟩, fun h => x.replaced q hq h.2⟩
  · intro v p hp
    change p ∈ d.userRoles v at hp
    rw [hrows, hmem v p] at hp
    rcases hp.1 with hp | ⟨q, -, -, rfl, hu, hr⟩
    · exact .inl hp
    · exact .inr ⟨hu, hr⟩
  · intro v hr hv
    by_contra hnot
    refine hheld v hv ?_
    rw [hrows, hmem v x.roleId]
    exact ⟨.inl hr, fun h => hnot h.1⟩

/-! ## Every write -/

/-- No user beyond the next id. -/
def Database.Fresh (db : Database) : Prop := ∀ u, db.nextUserId ≤ u → db.users u = none

/-- The status and the counter a write gives to a user. -/
def accountAfter (w : Write) (u : Nat) (user : AppUser) : UserStatus × Nat :=
  match w with
  | .failedLogin v count status => if v = u then (status, count) else (user.status, user.failedLoginCount)
  | .loginOk v => (user.status, if v = u then 0 else user.failedLoginCount)
  | .setStatus v status => if v = u then (status, 0) else (user.status, user.failedLoginCount)
  | .adminReset v _ =>
      if v = u then (if user.status = .ACTIVE then .PENDING_PASSWORD_CHANGE else user.status, 0)
      else (user.status, user.failedLoginCount)
  | .changePassword v _ =>
      (if v = u ∧ user.status = .PENDING_PASSWORD_CHANGE then .ACTIVE else user.status,
        user.failedLoginCount)
  | .resetPassword v _ =>
      if v = u then (if user.status = .PENDING_PASSWORD_CHANGE then .ACTIVE else user.status, 0)
      else (user.status, user.failedLoginCount)
  | _ => (user.status, user.failedLoginCount)

/-- Everything a write can do, with the id it inserts. -/
inductive Effect (env : Env) (db : Database) : Write → Database → Option Nat → Prop
  | account (w : Write) (u : Nat) (f : AppUser → AppUser)
      (hrole : ∀ user, (f user).roleId = user.roleId)
      (hself : ∀ user, ((f user).status, (f user).failedLoginCount) = accountAfter w u user)
      (hother : ∀ v ≠ u, ∀ user, accountAfter w v user = (user.status, user.failedLoginCount)) :
      Effect env db w (db.updateUser u f) none
  | insertUser (email hash : String) (status : UserStatus) (roleId : Nat) (role : Role)
      (hrole : db.roles roleId ≠ none) :
      Effect env db (.insertUser email hash status roleId role) { db with
        users := update db.users db.nextUserId
          (some ⟨email, hash, status, true, 0, none, some roleId⟩)
        nextUserId := db.nextUserId + 1 } (some db.nextUserId)
  | insertUserRole (u r : Nat) :
      Effect env db (.insertUserRole u r) (db.insertUserRole u r) none
  | deleteTier (u : Nat) : Effect env db (.deleteTier u) (db.deleteTier u) none
  | insertTier (u : Nat) (tier : String) (hnew : tier ∉ db.userRole u) (hu : db.users u ≠ none) :
      Effect env db (.insertTier u tier)
        { db with userRole := update db.userRole u (db.userRole u ++ [tier]) } none
  | assignRoles (x : RoleAssignment) (d' : Database) (h : Assigned db x d') :
      Effect env db (.assignRoles x) d' none
  | createRole (label tierCode code : String) (htier : tierCode ≠ "")
      (hcode : uniqueRoleCode env db label = some code) :
      Effect env db (.createRole label tierCode) { db with
        roles := update db.roles db.nextRoleId (some ⟨code, label, some tierCode, false⟩)
        nextRoleId := db.nextRoleId + 1 } (some db.nextRoleId)
  | changeRole (x : RoleChange) (d' : Database) (h : Changed db x d') :
      Effect env db (.changeRole x) d' none
  | deleteRole (x : RoleDeletion) (d' : Database) (h : Deleted db x d') :
      Effect env db (.deleteRole x) d' none

/-- **Effects**: what a write did is one of them. -/
theorem effect_of_run {env : Env} {w : Write} {x : Option Nat}
    (h : w.run env db = some (d', x)) : Effect env db w d' x := by
  cases w with
  | failedLogin v count status | loginOk v | setStatus v status | adminReset v hash
  | changePassword v hash | resetPassword v hash =>
    cases h
    refine .account _ v _ (fun _ => rfl) (fun user => ?_) (fun w hw user => ?_)
    · simp [accountAfter]
    · have hne : v ≠ w := fun heq => hw heq.symm
      simp [accountAfter, hne]
  | insertUser email hash status roleId role =>
    simp only [Write.run, Database.insertUser] at h
    split at h
    · cases h
    · next hfree =>
      cases h
      exact .insertUser email hash status roleId role fun hrole => hfree (.inr hrole)
  | insertUserRole v r =>
    cases h
    exact .insertUserRole v r
  | deleteTier v =>
    cases h
    exact .deleteTier v
  | insertTier v tier =>
    obtain ⟨d, hd, heq⟩ := Option.map_eq_some_iff.mp h
    cases heq
    unfold Database.insertTier at hd
    split at hd
    · cases hd
    · next hfree =>
      cases hd
      exact .insertTier v tier (fun hm => hfree (.inl hm)) fun hu => hfree (.inr hu)
  | assignRoles a =>
    obtain ⟨d, hd, heq⟩ := Option.map_eq_some_iff.mp h
    cases heq
    exact .assignRoles a d' (assignRoles_spec hd)
  | createRole label tierCode =>
    simp only [Write.run, Database.createRole] at h
    split at h
    · cases h
    split at h
    · cases h
    next htier =>
    split at h
    · cases h
    next code hcode =>
    cases h
    exact .createRole label tierCode code (fun hempty => htier (.inl hempty)) hcode
  | changeRole c =>
    obtain ⟨d, hd, heq⟩ := Option.map_eq_some_iff.mp h
    cases heq
    exact .changeRole c d' (changeRole_spec hd)
  | deleteRole c =>
    obtain ⟨d, hd, heq⟩ := Option.map_eq_some_iff.mp h
    cases heq
    exact .deleteRole c d' (deleteRole_spec hd)

/-! ## Accounts -/

theorem updateUser_users (db : Database) (v u : Nat) (f : AppUser → AppUser) :
    (db.updateUser v f).users u = if v = u then (db.users u).map f else db.users u := by
  unfold Database.updateUser
  by_cases h : v = u
  · subst h
    simp
  · have : u ≠ v := fun heq => h heq.symm
    simp [h, update_of_ne this]

theorem Database.Fresh.ne {u : Nat} (h : db.Fresh) (hu : db.users u ≠ none) : u ≠ db.nextUserId := by
  rintro rfl
  exact hu (h _ (Nat.le_refl _))

/-- **Accounts**: a write leaves every user there, with the status and the counter of
`accountAfter`. -/
theorem account_of_write {env : Env} {w : Write} {x : Option Nat} {u : Nat} {user : AppUser}
    (hfresh : db.Fresh) (h : w.run env db = some (d', x)) (hu : db.users u = some user) :
    ∃ user', d'.users u = some user' ∧
      (user'.status, user'.failedLoginCount) = accountAfter w u user := by
  cases effect_of_run h with
  | account w v f hrole hself hother =>
    rw [updateUser_users, hu]
    by_cases hv : v = u
    · subst hv
      exact ⟨f user, if_pos rfl, hself user⟩
    · exact ⟨user, if_neg hv, (hother u (fun heq => hv heq.symm) user).symm⟩
  | insertUser email hash status roleId role hrole =>
    have hne := hfresh.ne (hu ▸ Option.some_ne_none user)
    exact ⟨user, (update_of_ne hne _ _).trans hu, rfl⟩
  | insertUserRole v r => exact ⟨user, by rw [insertUserRole_users, hu], rfl⟩
  | deleteTier v => exact ⟨user, hu, rfl⟩
  | insertTier v tier => exact ⟨user, hu, rfl⟩
  | assignRoles a d hspec =>
    rw [hspec.users]
    by_cases hv : u = a.userId
    · subst hv
      exact ⟨{ user with roleId := some a.primary }, by simp [hu], rfl⟩
    · exact ⟨user, by rw [update_of_ne hv, hu], rfl⟩
  | createRole label tierCode code htier hcode => exact ⟨user, hu, rfl⟩
  | changeRole c d hspec => exact ⟨user, hspec.users ▸ hu, rfl⟩
  | deleteRole c d hspec =>
    by_cases hp : u ∈ db.primaries c.roleId
    · obtain ⟨q, tier, -, -, -, husers⟩ := hspec.primaries u hp
      rw [hu] at husers
      exact ⟨_, husers, rfl⟩
    · exact ⟨user, (hspec.others u hp).1.trans hu, rfl⟩

theorem Database.Fresh.same {d : Database} (hfresh : db.Fresh)
    (hnext : d.nextUserId = db.nextUserId) (hnone : ∀ u, db.users u = none → d.users u = none) :
    d.Fresh := by
  intro u hu
  rw [hnext] at hu
  exact hnone u (hfresh u hu)

theorem fresh_of_write {env : Env} {w : Write} {x : Option Nat} (hfresh : db.Fresh)
    (h : w.run env db = some (d', x)) : d'.Fresh := by
  cases effect_of_run h with
  | account w v f hrole hself hother =>
    refine hfresh.same rfl fun u hu => ?_
    rw [updateUser_users, hu]
    simp
  | insertUser email hash status roleId role hrole =>
    intro u hu
    have hlt : db.nextUserId < u := hu
    show update db.users db.nextUserId _ u = none
    rw [update_of_ne (by omega)]
    exact hfresh u (by omega)
  | insertUserRole v r =>
    exact hfresh.same (sameButHeld_insertUserRole v r).nextUserId
      fun u hu => by rw [insertUserRole_users, hu]
  | deleteTier v => exact hfresh.same rfl fun u hu => hu
  | insertTier v tier => exact hfresh.same rfl fun u hu => hu
  | assignRoles a d hspec =>
    refine hfresh.same hspec.nextUserId fun u hu => ?_
    rw [hspec.users]
    by_cases hv : u = a.userId
    · subst hv
      simp [hu]
    · rw [update_of_ne hv, hu]
  | createRole label tierCode code htier hcode => exact hfresh.same rfl fun u hu => hu
  | changeRole c d hspec =>
    exact hfresh.same hspec.nextUserId fun u hu => by rw [hspec.users, hu]
  | deleteRole c d hspec =>
    refine hfresh.same hspec.nextUserId fun u hu => ?_
    by_cases hp : u ∈ db.primaries c.roleId
    · obtain ⟨q, tier, -, -, -, husers⟩ := hspec.primaries u hp
      rw [husers, hu]
      rfl
    · rw [(hspec.others u hp).1, hu]

theorem fresh_run {env : Env} {st st' : State} {as : List Action} (hfresh : st.store.Fresh)
    (h : FreeRun (step env) st as st') : st'.store.Fresh := by
  have hstep : ∀ st a st', st.store.Fresh → True → step env st a = some st' → st'.store.Fresh := by
    intro st a st' hf _ hst
    rcases store_of_step hst with heq | ⟨w, x, -, hw⟩
    · exact heq ▸ hf
    · exact fresh_of_write hf hw
  exact Run.invariant hstep h hfresh

/-! ## What calls write -/

/-- The writes each call comes to. A failed attempt writes what it read, and a deletion
was of a role that was there and not built in. -/
def Issued (env : Env) (J : Database → Prop) : Call → Write → Prop
  | .login _ _, w => (∃ u user, w = failedLogin env u user) ∨ ∃ u, w = .loginOk u
  | .setUserStatus u status, w => w = .setStatus u status
  | .adminResetPassword u _ hash, w => w = .adminReset u hash
  | .changePassword u _ _ hash, w => w = .changePassword u hash
  | .resetPassword _ _ hash _, w => ∃ u, w = .resetPassword u hash
  | .createUser input, w =>
      (∃ status role, w = .insertUser input.email input.hash status input.roleId role) ∨
        ∃ u, (∃ r, w = .insertUserRole u r) ∨ w = .deleteTier u ∨ ∃ t, w = .insertTier u t
  | .setUserRoles u _ _, w => ∃ x, w = .assignRoles x ∧ x.userId = u
  | .createRole label tierCode, w => w = .createRole label (tierCode.getD "BI00_EXECUTIVE")
  | .updateRole r _ _, w => ∃ x, w = .changeRole x ∧ x.roleId = r
  | .deleteRole r _, w => (∃ x, w = .deleteRole x ∧ x.roleId = r) ∧
      ∃ db role, J db ∧ db.roles r = some role ∧ role.isSystem = false

section
variable {env : Env} {J : Database → Prop}

theorem finish_all {P : Write → Prop} (x : Option Nat) : (finish x).All J P := trivial

theorem countOtherActiveAdmins_all {P : Write → Prop} {u : Nat} {next : Nat → Rest}
    (h : ∀ n, (next n).All J P) : (countOtherActiveAdmins u next).All J P := by
  intro db _
  dsimp only
  cases db.adminRoleId with
  | none => exact h 0
  | some a => exact fun db _ => h _

theorem assertCanDeactivate_all {P : Write → Prop} {u : Nat} {next : Rest} (h : next.All J P) :
    (assertCanDeactivate u next).All J P := by
  intro db _
  dsimp only
  cases db.adminRoleId with
  | none => exact h
  | some a =>
    intro db _
    dsimp only
    split
    · refine countOtherActiveAdmins_all fun n => ?_
      split
      · trivial
      · exact h
    · exact h

theorem insertUserRoles_all {P : Write → Prop} {u : Nat} (hrole : ∀ r, P (.insertUserRole u r))
    (hdelete : P (.deleteTier u)) (hinsert : ∀ t, P (.insertTier u t)) (tier : Option String)
    (rs : List Nat) : (insertUserRoles u tier rs).All J P := by
  induction rs with
  | nil =>
    refine ⟨hdelete, fun _ => ?_⟩
    split
    · trivial
    · exact ⟨hinsert _, finish_all⟩
  | cons r rs ih => exact ⟨hrole r, fun _ => ih⟩

theorem createUser_issued (input : CreateUserInput) :
    (createUser input).All J (Issued env J (.createUser input)) := by
  intro db _
  dsimp only
  split
  · trivial
  intro db _
  dsimp only
  split
  · trivial
  split
  · trivial
  refine ⟨.inl ⟨_, _, rfl⟩, fun x => ?_⟩
  cases x with
  | none => trivial
  | some u =>
    exact fun db _ => insertUserRoles_all (fun r => .inr ⟨u, .inl ⟨r, rfl⟩⟩)
      (.inr ⟨u, .inr (.inl rfl)⟩) (fun t => .inr ⟨u, .inr (.inr ⟨t, rfl⟩)⟩) _ _

theorem assignPrimary_all {P : Write → Prop} {u : Nat} (h : ∀ x, x.userId = u → P (.assignRoles x))
    (ids : List Nat) (hids : ids ≠ []) (tierOf : Nat → Option String)
    (current primaryRoleId : Option Nat) :
    (assignPrimary u ids hids tierOf current primaryRoleId).All J P := by
  unfold assignPrimary
  dsimp only
  split
  · exact ⟨h _ rfl, finish_all⟩
  · split
    · exact ⟨h _ rfl, finish_all⟩
    · trivial

theorem setUserRoles_issued (u : Nat) (roleIds : List Nat) (primaryRoleId : Option Nat) :
    (setUserRoles u roleIds primaryRoleId).All J
      (Issued env J (.setUserRoles u roleIds primaryRoleId)) := by
  have hx : ∀ x : RoleAssignment, x.userId = u →
      Issued env J (.setUserRoles u roleIds primaryRoleId) (.assignRoles x) :=
    fun x hu => ⟨x, rfl, hu⟩
  unfold setUserRoles
  dsimp only
  split
  · trivial
  intro db _
  dsimp only
  split
  · trivial
  intro db' _
  dsimp only
  split
  · trivial
  intro db'' _ db''' _
  dsimp only
  split
  · exact assignPrimary_all hx ..
  · split
    · refine countOtherActiveAdmins_all fun n => ?_
      split
      · trivial
      · exact assignPrimary_all hx ..
    · exact assignPrimary_all hx ..

theorem deleteRole_issued (roleId : Nat) (replacementRoleId : Option Nat) :
    (deleteRole roleId replacementRoleId).All J
      (Issued env J (.deleteRole roleId replacementRoleId)) := by
  intro db hJ
  dsimp only
  split
  · trivial
  next role hrole =>
  split
  · trivial
  next hsystem =>
  have hx : ∀ x : RoleDeletion, x.roleId = roleId →
      Issued env J (.deleteRole roleId replacementRoleId) (.deleteRole x) := fun x hr =>
    ⟨⟨x, rfl, hr⟩, db, role, hJ, hrole, Bool.not_eq_true _ ▸ hsystem⟩
  intro db' _
  dsimp only
  split
  · exact ⟨hx _ rfl, finish_all⟩
  split
  · trivial
  split
  · trivial
  intro db'' _
  dsimp only
  split
  · trivial
  · exact ⟨hx _ rfl, finish_all⟩

/-- Every call keeps to it. -/
theorem body_issued (c : Call) : (body env c).All J (Issued env J c) := by
  cases c with
  | login email password =>
    intro db _
    dsimp only
    split
    · trivial
    · split
      · exact ⟨.inl ⟨_, _, rfl⟩, fun _ => trivial⟩
      · split
        · trivial
        · exact ⟨.inr ⟨_, rfl⟩, finish_all⟩
  | setUserStatus u status =>
    show (setUserStatus u status).All _ _
    unfold setUserStatus
    dsimp only
    have hwrite : Prog.All J (Issued env J (.setUserStatus u status))
        (.write (.setStatus u status) finish) := ⟨rfl, finish_all⟩
    split
    · exact assertCanDeactivate_all hwrite
    · exact hwrite
  | adminResetPassword u tempPassword hash =>
    intro db _
    dsimp only
    split
    · trivial
    · split
      · trivial
      · exact ⟨rfl, finish_all⟩
  | changePassword u current new hash =>
    intro db _
    dsimp only
    split
    · trivial
    · split
      · trivial
      · split
        · trivial
        · exact ⟨rfl, finish_all⟩
  | resetPassword token new hash now =>
    intro db _
    dsimp only
    split
    · trivial
    · split
      · trivial
      · exact ⟨⟨_, rfl⟩, finish_all⟩
  | createUser input => exact createUser_issued input
  | setUserRoles u roleIds primaryRoleId => exact setUserRoles_issued u roleIds primaryRoleId
  | createRole label tierCode => exact ⟨rfl, finish_all⟩
  | updateRole roleId label tierCode =>
    intro db _
    dsimp only
    split
    · trivial
    · split
      · trivial
      · split
        · trivial
        · exact ⟨⟨_, rfl, rfl⟩, finish_all⟩
  | deleteRole roleId replacementRoleId => exact deleteRole_issued roleId replacementRoleId

end

end SalesDashboard.Accounts
