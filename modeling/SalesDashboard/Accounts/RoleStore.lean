import SalesDashboard.Accounts.Effects

/-! Which role a user has is said three times: in `user_roles`, in `app_user.role_id` and
in the tier row of `user_role`. Here is what the calls that write them, overlapping
statement by statement, make of the agreement of the three. -/

namespace SalesDashboard.Accounts
open Function Transition Calls Firsts

/-! ## Agreement -/

def Database.primaryRole (db : Database) (u : Nat) : Option Nat := (db.users u).bind (·.roleId)

def Database.tierOf (db : Database) (r : Nat) : Option String := (db.roles r).bind (·.tier)

/-- The primary role is there and is one of the roles held, and its tier is the only tier
row, or there is none when it has none. -/
def Consistent (db : Database) (u : Nat) : Prop :=
  ∃ user p role, db.users u = some user ∧ user.roleId = some p ∧ db.roles p = some role ∧
    p ∈ db.userRoles u ∧ db.userRole u = role.tier.toList

/-- The primary role of the user, with its current tier. -/
structure Primary (db : Database) (u p : Nat) (tier : Option String) : Prop where
  role : db.primaryRole u = some p
  tier : ∃ role, db.roles p = some role ∧ role.tier = tier

/-- Ids are given out in order, and no tier is the empty string. -/
structure Valid (db : Database) : Prop where
  fresh : db.Fresh
  freshRoles : ∀ r, db.nextRoleId ≤ r → db.roles r = none
  tiers : ∀ r role, db.roles r = some role → role.tier ≠ some ""

theorem tierRows_eq {tier : Option String} (h : tier ≠ some "") : tierRows tier = tier.toList := by
  cases tier with
  | none => rfl
  | some t => exact if_neg fun ht => h (congrArg some ht)

theorem Primary.user {db : Database} {u p : Nat} {tier : Option String} (h : Primary db u p tier) :
    ∃ user, db.users u = some user ∧ user.roleId = some p := Option.bind_eq_some_iff.mp h.role

theorem Primary.tierOf {db : Database} {u p : Nat} {tier : Option String}
    (h : Primary db u p tier) : db.tierOf p = tier := by
  obtain ⟨role, hrole, rfl⟩ := h.tier
  unfold Database.tierOf
  rw [hrole]
  rfl

theorem Primary.users_ne {db : Database} {u p : Nat} {tier : Option String}
    (h : Primary db u p tier) : db.users u ≠ none := by
  obtain ⟨user, hu, -⟩ := h.user
  rw [hu]
  exact Option.some_ne_none _

theorem Primary.mem_primaries {db : Database} {u p : Nat} {tier : Option String}
    (h : Primary db u p tier) (hfresh : db.Fresh) : u ∈ db.primaries p := by
  refine Accounts.mem_primaries.mpr ⟨?_, h.role⟩
  by_contra hge
  exact h.users_ne (hfresh u (by omega))

theorem consistent_iff {db : Database} {u : Nat} (hvalid : Valid db) :
    Consistent db u ↔ ∃ p tier, Primary db u p tier ∧ p ∈ db.userRoles u ∧
      db.userRole u = tierRows tier := by
  constructor
  · rintro ⟨user, p, role, hu, hp, hrole, hheld, hrow⟩
    refine ⟨p, role.tier, ⟨Option.bind_eq_some_iff.mpr ⟨user, hu, hp⟩, role, hrole, rfl⟩, hheld, ?_⟩
    rw [tierRows_eq (hvalid.tiers p role hrole), hrow]
  · rintro ⟨p, tier, h, hheld, hrow⟩
    obtain ⟨user, hu, hp⟩ := h.user
    obtain ⟨role, hrole, rfl⟩ := h.tier
    rw [tierRows_eq (hvalid.tiers p role hrole)] at hrow
    exact ⟨user, p, role, hu, hp, hrole, hheld, hrow⟩

theorem Valid.write {env : Env} {db d' : Database} {w : Write} {x : Option Nat} (h : Valid db)
    (hw : w.run env db = some (d', x)) : Valid d' := by
  have hfresh := fresh_of_write h.fresh hw
  have hsame : d'.roles = db.roles → d'.nextRoleId = db.nextRoleId → Valid d' :=
    fun hroles hnext => ⟨hfresh, hnext ▸ hroles ▸ h.freshRoles, hroles ▸ h.tiers⟩
  cases effect_of_run hw with
  | account | insertUser | deleteTier | insertTier => exact hsame rfl rfl
  | insertUserRole u r =>
    exact hsame (insertUserRole_roles u r) (sameButHeld_insertUserRole u r).nextRoleId
  | assignRoles a d hspec => exact hsame hspec.roles hspec.nextRoleId
  | createRole label tierCode code htier hcode =>
    refine ⟨hfresh, fun r hr => ?_, fun r role hr => ?_⟩
    · have hlt : db.nextRoleId < r := hr
      show update db.roles _ _ r = none
      rw [update_of_ne (by omega)]
      exact h.freshRoles r (by omega)
    · change update db.roles _ _ r = some role at hr
      by_cases hnew : r = db.nextRoleId
      · rw [hnew, update_self] at hr
        cases hr
        exact fun heq => htier (Option.some.inj heq)
      · rw [update_of_ne hnew] at hr
        exact h.tiers r role hr
  | changeRole c d hspec =>
    refine ⟨hfresh, fun r hr => ?_, fun r role hr => ?_⟩
    · rw [hspec.nextRoleId] at hr
      have hnone := h.freshRoles r hr
      rw [hspec.roles]
      by_cases hrc : r = c.roleId
      · rw [← hrc, update_self, hnone]
        rfl
      · rw [update_of_ne hrc, hnone]
    · rw [hspec.roles] at hr
      by_cases hrc : r = c.roleId
      · rw [hrc, update_self] at hr
        obtain ⟨before, -, rfl⟩ := Option.map_eq_some_iff.mp hr
        exact fun heq => hspec.tier_ne (Option.some.inj heq)
      · rw [update_of_ne hrc] at hr
        exact h.tiers r role hr
  | deleteRole c d hspec =>
    refine ⟨hfresh, fun r hr => ?_, fun r role hr => ?_⟩
    · rw [hspec.nextRoleId] at hr
      rw [hspec.roles]
      by_cases hrc : r = c.roleId
      · rw [hrc, update_self]
      · rw [update_of_ne hrc]
        exact h.freshRoles r hr
    · rw [hspec.roles] at hr
      by_cases hrc : r = c.roleId
      · rw [hrc, update_self] at hr
        cases hr
      · rw [update_of_ne hrc] at hr
        exact h.tiers r role hr

/-! ## One write and one user -/

/-- The user whose tier row a statement of `createUser` writes. -/
def Write.retiers : Write → Option Nat
  | .deleteTier u | .insertTier u _ => some u
  | _ => none

/-- What a write takes over from earlier reads still holds when it is made. `new` are the
users whose `createUser` is still running: the tier row they are about to get must stay
that of their primary role, and they must hold it when it is replaced. -/
def Current (new : List Nat) (db : Database) : Write → Prop
  | .insertUser _ _ _ roleId role => db.tierOf roleId = role.tier
  | .assignRoles x => db.tierOf x.primary = x.primaryTier ∧
      (x.userId ∈ new → (db.primaryRole x.userId).bind db.tierOf = x.primaryTier)
  | .changeRole x => ∀ u ∈ db.primaries x.roleId, (some x.tier = x.beforeTier ∨ u ∈ new) →
      db.tierOf x.roleId = some x.tier
  | .deleteRole x => ∀ u ∈ db.primaries x.roleId, ∀ q ∈ x.replacement, db.tierOf q.1 = q.2 ∧
      (u ∈ new → x.roleId ∈ db.userRoles u ∧ db.tierOf x.roleId = q.2)
  | _ => True

instance (new : List Nat) (db : Database) : (w : Write) → Decidable (Current new db w)
  | .insertUser _ _ _ _ _ => inferInstanceAs (Decidable (_ = _))
  | .assignRoles _ => inferInstanceAs (Decidable (_ ∧ _))
  | .changeRole x => inferInstanceAs (Decidable (∀ u ∈ db.primaries x.roleId, _))
  | .deleteRole x => inferInstanceAs (Decidable (∀ u ∈ db.primaries x.roleId, ∀ q ∈ x.replacement, _))
  | .failedLogin _ _ _ | .loginOk _ | .setStatus _ _ | .adminReset _ _ | .changePassword _ _
  | .resetPassword _ _ | .insertUserRole _ _ | .deleteTier _ | .insertTier _ _
  | .createRole _ _ => inferInstanceAs (Decidable True)

/-- How the primary role `p` of a user, of tier `t`, comes out of a write: as `p'`, of
tier `t'`. -/
structure Followed (new : List Nat) (db d' : Database) (u p : Nat) (t : Option String) (p' : Nat)
    (t' : Option String) : Prop where
  primary : Primary d' u p' t'
  held : p ∈ db.userRoles u → p' ∈ d'.userRoles u
  rows : d'.userRole u = tierRows t' ∨ t' = t ∧ d'.userRole u = db.userRole u
  new : u ∈ new → t' = t ∧ (p' = p ∨ p' ∈ d'.userRoles u)

theorem Followed.same {new : List Nat} {db d' : Database} {u p : Nat} {t : Option String}
    (h : Primary db u p t) (hprimary : d'.primaryRole u = db.primaryRole u)
    (hroles : d'.roles p = db.roles p) (hheld : p ∈ db.userRoles u → p ∈ d'.userRoles u)
    (hrow : d'.userRole u = db.userRole u) : Followed new db d' u p t p t :=
  ⟨⟨hprimary.trans h.role, hroles.symm ▸ h.tier⟩, hheld, .inr ⟨rfl, hrow⟩, fun _ => ⟨rfl, .inl rfl⟩⟩

theorem primaryRole_congr {db d' : Database} {u : Nat} (h : d'.users u = db.users u) :
    d'.primaryRole u = db.primaryRole u := by
  unfold Database.primaryRole
  rw [h]

/-- **One write**: when it is current, it leaves every user that has a primary role with
one, held if it was, and with the tier row of it if they had that. -/
theorem followed_of_write {env : Env} {new : List Nat} {db d' : Database} {w : Write}
    {x : Option Nat} {u p : Nat} {t : Option String} (hvalid : Valid db)
    (hw : w.run env db = some (d', x)) (hcurrent : Current new db w) (hrow : w.retiers ≠ some u)
    (h : Primary db u p t) : ∃ p' t', Followed new db d' u p t p' t' := by
  obtain ⟨role, hrole, htier⟩ := h.tier
  obtain ⟨user, huser, hp⟩ := h.user
  cases effect_of_run hw with
  | account w v f hroleId =>
    refine ⟨p, t, .same h ?_ rfl id rfl⟩
    show ((db.updateUser v f).users u).bind _ = (db.users u).bind _
    rw [updateUser_users, huser]
    split
    · exact hroleId user
    · rfl
  | insertUser email hash status roleId role =>
    have hne := hvalid.fresh.ne h.users_ne
    exact ⟨p, t, .same h (primaryRole_congr (update_of_ne hne _ _)) rfl id rfl⟩
  | insertUserRole v r =>
    exact ⟨p, t, .same h (primaryRole_congr (by rw [insertUserRole_users])) (by rw [insertUserRole_roles])
      (fun hm => mem_insertUserRole.mpr (.inl hm))
      (by rw [(sameButHeld_insertUserRole v r).userRole])⟩
  | deleteTier v =>
    have hne : u ≠ v := fun heq => hrow (congrArg some heq.symm)
    exact ⟨p, t, .same h rfl rfl id (update_of_ne hne _ _)⟩
  | insertTier v tier =>
    have hne : u ≠ v := fun heq => hrow (congrArg some heq.symm)
    exact ⟨p, t, .same h rfl rfl id (update_of_ne hne _ _)⟩
  | assignRoles a d hspec =>
    by_cases hu : u = a.userId
    · subst hu
      have hexists := hspec.exists_primary h.users_ne
      obtain ⟨role', hrole'⟩ := Option.ne_none_iff_exists'.mp hexists
      have htier' : role'.tier = a.primaryTier := by
        have := hcurrent.1
        unfold Database.tierOf at this
        rw [hrole'] at this
        exact this
      have hheld := (hspec.held a.primary).mpr ⟨a.primary_mem, .inr ⟨h.users_ne, hexists⟩⟩
      refine ⟨a.primary, a.primaryTier, ⟨?_, role', hspec.roles ▸ hrole', htier'⟩, fun _ => hheld,
        .inl ?_, fun hnew => ⟨?_, .inr hheld⟩⟩
      · unfold Database.primaryRole
        rw [hspec.users, update_self, huser]
        rfl
      · rw [hspec.userRole, update_self]
      · have := hcurrent.2 hnew
        rw [h.role, Option.bind_some, h.tierOf] at this
        exact this.symm
    · refine ⟨p, t, .same h (primaryRole_congr ?_) (by rw [hspec.roles])
        (hspec.others u hu p).mpr ?_⟩
      · rw [hspec.users, update_of_ne hu]
      · rw [hspec.userRole, update_of_ne hu]
  | createRole label tierCode code =>
    have hne : p ≠ db.nextRoleId := by
      rintro rfl
      rw [hvalid.freshRoles _ (Nat.le_refl _)] at hrole
      cases hrole
    exact ⟨p, t, .same h rfl (update_of_ne hne _ _) id rfl⟩
  | changeRole c d hspec =>
    by_cases hpc : p = c.roleId
    · subst hpc
      have hmem := h.mem_primaries hvalid.fresh
      have hprimary : Primary d' u c.roleId (some c.tier) := by
        refine ⟨(primaryRole_congr (by rw [hspec.users])).trans h.role,
          { role with label := c.label, tier := some c.tier }, ?_, rfl⟩
        rw [hspec.roles, update_self, hrole]
        rfl
      have hstays : (some c.tier = c.beforeTier ∨ u ∈ new) → some c.tier = t := fun hor =>
        ((hcurrent u hmem hor).symm.trans h.tierOf)
      refine ⟨c.roleId, some c.tier, hprimary, fun hm => hspec.userRoles ▸ hm, ?_,
        fun hnew => ⟨hstays (.inr hnew), .inl rfl⟩⟩
      have hrows := hspec.userRole u
      by_cases hchanged : some c.tier ≠ c.beforeTier
      · exact .inl (hrows.trans (if_pos ⟨hchanged, hmem⟩))
      · exact .inr ⟨hstays (.inl (not_not.mp hchanged)), hrows.trans (if_neg fun hc => hchanged hc.1)⟩
    · refine ⟨p, t, .same h (primaryRole_congr (by rw [hspec.users])) ?_ (fun hm => hspec.userRoles ▸ hm) ?_⟩
      · rw [hspec.roles, update_of_ne hpc]
      · refine (hspec.userRole u).trans (if_neg fun hc => hpc ?_)
        have := (mem_primaries.mp hc.2).2
        exact Option.some.inj (h.role.symm.trans this)
  | deleteRole c d hspec =>
    by_cases hpc : p = c.roleId
    · subst hpc
      have hmem := h.mem_primaries hvalid.fresh
      obtain ⟨q, tier, hrep, hexists, hrows, husers⟩ := hspec.primaries u hmem
      obtain ⟨htierOf, hnew⟩ := hcurrent u hmem (q, tier) hrep
      obtain ⟨role', hrole'⟩ := Option.ne_none_iff_exists'.mp hexists
      have hne : q ≠ c.roleId := c.replaced (q, tier) hrep
      have hprimary : Primary d' u q tier := by
        refine ⟨?_, role', ?_, ?_⟩
        · unfold Database.primaryRole
          rw [husers, huser]
          rfl
        · rw [hspec.roles, update_of_ne hne, hrole']
        · unfold Database.tierOf at htierOf
          rw [hrole'] at htierOf
          exact htierOf
      have hheld : c.roleId ∈ db.userRoles u → q ∈ d'.userRoles u := fun hm =>
        hspec.given u (hspec.held u hm (mem_primaries.mp hmem).1) (q, tier) hrep h.users_ne hexists
      exact ⟨q, tier, hprimary, hheld, .inl hrows, fun hn =>
        ⟨(hnew hn).2.symm.trans h.tierOf, .inr (hheld (hnew hn).1)⟩⟩
    · have hnot : u ∉ db.primaries c.roleId := fun hm =>
        hpc (Option.some.inj (h.role.symm.trans (mem_primaries.mp hm).2))
      obtain ⟨husers, hrows⟩ := hspec.others u hnot
      refine ⟨p, t, .same h (primaryRole_congr husers) ?_ (fun hm => hspec.kept u p hm hpc) hrows⟩
      rw [hspec.roles, update_of_ne hpc]

theorem consistent_after {env : Env} {new : List Nat} {db d' : Database} {w : Write}
    {x : Option Nat} {u : Nat} (hvalid : Valid db) (hw : w.run env db = some (d', x))
    (hcurrent : Current new db w) (hrow : w.retiers ≠ some u) (h : Consistent db u) :
    Consistent d' u := by
  obtain ⟨p, t, hprimary, hheld, hrows⟩ := (consistent_iff hvalid).mp h
  obtain ⟨p', t', hf⟩ := followed_of_write hvalid hw hcurrent hrow hprimary
  refine (consistent_iff (hvalid.write hw)).mpr ⟨p', t', hf.primary, hf.held hheld, ?_⟩
  rcases hf.rows with hrows' | ⟨rfl, hrows'⟩
  · exact hrows'
  · rw [hrows', hrows]

/-- The transaction of `setUserRoles` makes the tables agree. -/
theorem consistent_assigned {new : List Nat} {db d' : Database} {a : RoleAssignment}
    (hvalid : Valid d') (h : Assigned db a d') (hcurrent : Current new db (.assignRoles a))
    (hu : db.users a.userId ≠ none) : Consistent d' a.userId := by
  obtain ⟨user, huser⟩ := Option.ne_none_iff_exists'.mp hu
  have hexists := h.exists_primary hu
  obtain ⟨role, hrole⟩ := Option.ne_none_iff_exists'.mp hexists
  have htier := hcurrent.1
  unfold Database.tierOf at htier
  rw [hrole] at htier
  refine (consistent_iff hvalid).mpr ⟨a.primary, a.primaryTier, ⟨?_, role, h.roles ▸ hrole, htier⟩,
    (h.held a.primary).mpr ⟨a.primary_mem, .inr ⟨hu, hexists⟩⟩, ?_⟩
  · unfold Database.primaryRole
    rw [h.users, update_self, huser]
    rfl
  · rw [h.userRole, update_self]

/-! ## The phases of a call -/

/-- What is left of a `createUser` that has inserted the user, and what holds till then. -/
inductive Granting (db : Database) (u : Nat) : Rest → Prop
  | known (input : CreateUserInput) (role : Role) (p : Nat) (h : Primary db u p role.tier)
      (hp : p ∈ db.userRoles u ∨ p = input.roleId) : Granting db u (grantRoles input role u)
  | roles (rs : List Nat) (tier : Option String) (p : Nat) (h : Primary db u p tier)
      (hp : p ∈ db.userRoles u ∨ p ∈ rs) : Granting db u (insertUserRoles u tier rs)
  | tier (t : String) (p : Nat) (h : Primary db u p (some t)) (ht : tierRows (some t) = [t])
      (hp : p ∈ db.userRoles u) (hrow : db.userRole u = [] ∨ db.userRole u = [t]) :
      Granting db u (.write (.insertTier u t) finish)
  | done : Granting db u (.done .ok)

/-- The users, roles and tier rows that only a `createUser` writes, one by one. -/
def Write.grants : Write → Bool
  | .insertUser _ _ _ _ _ | .insertUserRole _ _ | .deleteTier _ | .insertTier _ _ => true
  | _ => false

def Call.setsRoles : Call → Bool
  | .createUser _ | .setUserRoles _ _ _ => true
  | _ => false

inductive Phase (db : Database) : Call → List (Option Nat) → Rest → Prop
  | beforeInsert (input : CreateUserInput) (rest : Rest)
      (h : rest.First (· ≠ .ok) fun w next => ∃ email hash status role,
        w = .insertUser email hash status input.roleId role ∧ next = afterInsert input role) :
      Phase db (.createUser input) [] rest
  | granting (input : CreateUserInput) (u : Nat) (answers : List (Option Nat)) (rest : Rest)
      (hu : db.users u ≠ none) (h : Granting db u rest) :
      Phase db (.createUser input) (some u :: answers) rest
  | beforeAssign (u : Nat) (roleIds : List Nat) (primary : Option Nat) (answers : List (Option Nat))
      (rest : Rest) (h : rest.First (· ≠ .ok) fun w next =>
        ∃ x, w = .assignRoles x ∧ x.userId = u ∧ next = finish) :
      Phase db (.setUserRoles u roleIds primary) answers rest
  | assigned (u : Nat) (roleIds : List Nat) (primary : Option Nat) (answers : List (Option Nat)) :
      Phase db (.setUserRoles u roleIds primary) answers (.done .ok)
  | other (c : Call) (answers : List (Option Nat)) (rest : Rest) (hc : c.setsRoles = false)
      (h : rest.All (fun _ => True) fun w => w.grants = false) : Phase db c answers rest

/-- The user that a `createUser` has inserted. -/
def created (c : Call) (answers : List (Option Nat)) : Option Nat :=
  match c, answers with
  | .createUser _, some u :: _ => some u
  | _, _ => none

/-- The users whose `createUser` is still running. -/
def creating (st : State) : List Nat :=
  st.calls.filterMap fun r => if r.isDone then none else created r.call r.answers

/-- The call set the roles of the user, and returned. -/
def Gives (r : Running) (u : Nat) : Prop :=
  r.rest = .done .ok ∧
    (created r.call r.answers = some u ∨ ∃ roleIds primary, r.call = .setUserRoles u roleIds primary)

theorem grants_of_issued {env : Env} {J : Database → Prop} {c : Call} {w : Write}
    (hc : c.setsRoles = false) (h : Issued env J c w) : w.grants = false := by
  cases c with
  | login => rcases h with ⟨_, _, rfl⟩ | ⟨_, rfl⟩ <;> rfl
  | setUserStatus | adminResetPassword | changePassword | createRole => exact h ▸ rfl
  | resetPassword => obtain ⟨_, rfl⟩ := h; rfl
  | updateRole => obtain ⟨_, rfl, -⟩ := h; rfl
  | deleteRole => obtain ⟨⟨_, rfl, -⟩, -⟩ := h; rfl
  | createUser | setUserRoles => cases hc

theorem retiers_of_grants {w : Write} (h : w.grants = false) (u : Nat) : w.retiers ≠ some u := by
  cases w with
  | deleteTier | insertTier => cases h
  | _ => exact fun h => by cases h

theorem assignPrimary_first {u : Nat} (ids : List Nat) (hids : ids ≠ []) (tierOf : Nat → Option String)
    (current primaryRoleId : Option Nat) :
    (assignPrimary u ids hids tierOf current primaryRoleId).First (· ≠ .ok) fun w next =>
      ∃ x, w = .assignRoles x ∧ x.userId = u ∧ next = finish := by
  unfold assignPrimary
  dsimp only
  split
  · exact ⟨_, rfl, rfl, rfl⟩
  · split
    · exact ⟨_, rfl, rfl, rfl⟩
    · exact fun h => by cases h

theorem setUserRoles_first (u : Nat) (roleIds : List Nat) (primaryRoleId : Option Nat) :
    (setUserRoles u roleIds primaryRoleId).First (· ≠ .ok) fun w next =>
      ∃ x, w = .assignRoles x ∧ x.userId = u ∧ next = finish := by
  have hrefused : Outcome.refused ≠ .ok := fun h => by cases h
  unfold setUserRoles
  dsimp only
  split
  · exact hrefused
  intro known
  dsimp only
  split
  · exact hrefused
  intro found
  dsimp only
  split
  · exact hrefused
  intro before roles
  dsimp only
  split
  · exact assignPrimary_first ..
  split
  · intro admins
    dsimp only
    split
    · split
      · exact hrefused
      · exact assignPrimary_first ..
    · intro holders
      dsimp only
      split
      · exact hrefused
      · exact assignPrimary_first ..
  · exact assignPrimary_first ..

theorem createUser_first (input : CreateUserInput) :
    (createUser input).First (· ≠ .ok) fun w next => ∃ email hash status role,
      w = .insertUser email hash status input.roleId role ∧ next = afterInsert input role := by
  have hrefused : Outcome.refused ≠ .ok := fun h => by cases h
  intro accounts
  dsimp only
  split
  · exact hrefused
  intro roles
  dsimp only
  split
  · exact hrefused
  split
  · exact hrefused
  · exact ⟨_, _, _, _, rfl, rfl⟩

/-- Where a call starts. -/
theorem phase_body (env : Env) (db : Database) (c : Call) : Phase db c [] (body env c) := by
  by_cases hc : c.setsRoles = false
  · have hissued : (body env c).All (fun _ => True) (Issued env (fun _ => True) c) := body_issued c
    exact .other c [] _ hc (hissued.mono fun w hw => grants_of_issued hc hw)
  · cases c with
    | createUser input => exact .beforeInsert input _ (createUser_first input)
    | setUserRoles u roleIds primary =>
      exact .beforeAssign u roleIds primary [] _ (setUserRoles_first u roleIds primary)
    | _ => exact absurd rfl hc

theorem Granting.running {db : Database} {u : Nat} {rest : Rest} (h : Granting db u rest)
    (c : Call) (answers : List (Option Nat)) :
    rest = .done .ok ∨ (⟨c, answers, rest⟩ : Running).isDone = false := by
  cases h with
  | known => exact .inr rfl
  | roles rs => cases rs <;> exact .inr rfl
  | tier => exact .inr rfl
  | done => exact .inl rfl

/-- Writes of other calls leave a `createUser` in its phase. -/
theorem Granting.follow {new : List Nat} {db d' : Database} {u : Nat} {rest : Rest}
    (h : Granting db u rest) (hnew : u ∈ new)
    (hf : ∀ p t, Primary db u p t → ∃ p' t', Followed new db d' u p t p' t') :
    Granting d' u rest := by
  have hstays : ∀ p t, Primary db u p t →
      ∃ p', Followed new db d' u p t p' t ∧ (p' = p ∨ p' ∈ d'.userRoles u) := by
    intro p t hp
    obtain ⟨p', t', hf⟩ := hf p t hp
    obtain ⟨rfl, hor⟩ := hf.new hnew
    exact ⟨p', hf, hor⟩
  cases h with
  | known input role p h hp =>
    obtain ⟨p', hf, hor⟩ := hstays p role.tier h
    refine .known input role p' hf.primary ?_
    rcases hor with rfl | hheld
    · exact hp.imp hf.held id
    · exact .inl hheld
  | roles rs tier p h hp =>
    obtain ⟨p', hf, hor⟩ := hstays p tier h
    refine .roles rs tier p' hf.primary ?_
    rcases hor with rfl | hheld
    · exact hp.imp hf.held id
    · exact .inl hheld
  | tier t p h ht hp hrow =>
    obtain ⟨p', hf, -⟩ := hstays p (some t) h
    refine .tier t p' hf.primary ht (hf.held hp) ?_
    rcases hf.rows with hrow' | ⟨-, hrow'⟩
    · exact .inr (hrow'.trans ht)
    · rw [hrow']
      exact hrow
  | done => exact .done

theorem Primary.congr {db d' : Database} {u p : Nat} {t : Option String} (h : Primary db u p t)
    (husers : d'.users = db.users) (hroles : d'.roles = db.roles) : Primary d' u p t :=
  ⟨(primaryRole_congr (by rw [husers])).trans h.role, hroles.symm ▸ h.tier⟩

theorem Granting.read {db : Database} {u : Nat} {next : Database → Rest}
    (h : Granting db u (.read next)) : Granting db u (next db) ∧ next db ≠ .done .ok := by
  generalize hrest : Prog.read next = rest at h
  cases h with
  | known input role p h hp =>
    cases hrest
    dsimp only
    constructor
    · refine .roles _ role.tier p h (hp.imp id fun heq => ?_)
      obtain ⟨role', hrole', -⟩ := h.tier
      rw [List.mem_filter, mem_firsts, heq, decide_eq_true_eq, ← heq, hrole']
      exact ⟨List.mem_cons_self, Option.some_ne_none _⟩
    · cases (firsts (input.roleId :: input.extraRoleIds)).filter _ <;> exact fun h => by cases h
  | roles rs => cases rs <;> cases hrest
  | tier => cases hrest
  | done => cases hrest

theorem tierRows_cons {tier : Option String} {t : String} {ts : List String}
    (h : tierRows tier = t :: ts) : tier = some t ∧ tierRows (some t) = [t] := by
  cases tier with
  | none => cases h
  | some t' =>
    unfold tierRows at h
    dsimp only at h
    split at h
    · cases h
    · next hne =>
      cases h
      exact ⟨rfl, if_neg hne⟩

/-- Its own writes bring a `createUser` to its next phase, and in the end to agreement. -/
theorem Granting.write {env : Env} {db d' : Database} {u : Nat} {w : Write}
    {next : Option Nat → Rest} {x : Option Nat} (h : Granting db u (.write w next))
    (hvalid : Valid db) (hw : w.run env db = some (d', x)) :
    Granting d' u (next x) ∧ (next x = .done .ok → Consistent d' u) ∧
      (∀ v ≠ u, w.retiers ≠ some v) ∧ d'.users = db.users := by
  have hvalid' := hvalid.write hw
  generalize hrest : Prog.write w next = rest at h
  cases h with
  | known => cases hrest
  | roles rs tier p h hp =>
    cases rs with
    | nil =>
      cases hrest
      cases hw
      have hprimary : Primary (db.deleteTier u) u p tier := h.congr rfl rfl
      have hheld : p ∈ db.userRoles u := hp.resolve_right fun hm => by cases hm
      have hrow : (db.deleteTier u).userRole u = [] := update_self ..
      refine ⟨?_, fun hdone => ?_, fun v hv heq => hv (Option.some.inj heq).symm, rfl⟩
      · split
        · exact .done
        · next t ts ht =>
          obtain ⟨rfl, hone⟩ := tierRows_cons ht
          exact .tier t p hprimary hone hheld (.inl hrow)
      · split at hdone
        · next ht => exact (consistent_iff hvalid').mpr ⟨p, tier, hprimary, hheld, hrow.trans ht.symm⟩
        · cases hdone
    | cons r rs =>
      cases hrest
      cases hw
      refine ⟨.roles rs tier p (h.congr (insertUserRole_users u r) (insertUserRole_roles u r)) ?_,
        fun hdone => ?_, fun v hv heq => (by cases heq), insertUserRole_users u r⟩
      · rw [mem_insertUserRole]
        rcases hp with hp | hp
        · exact .inl (.inl hp)
        · rcases List.mem_cons.mp hp with rfl | hp
          · obtain ⟨role, hrole, -⟩ := h.tier
            exact .inl (.inr ⟨rfl, rfl, h.users_ne, hrole ▸ Option.some_ne_none role⟩)
          · exact .inr hp
      · cases rs <;> cases hdone
  | tier t p h ht hp hrow =>
    cases hrest
    obtain ⟨d, hd, heq⟩ := Option.map_eq_some_iff.mp hw
    cases heq
    unfold Database.insertTier at hd
    split at hd
    · cases hd
    next hnew =>
    cases hd
    refine ⟨.done, fun _ => ?_, fun v hv heq => hv (Option.some.inj heq).symm, rfl⟩
    have hempty : db.userRole u = [] := by
      rcases hrow with hrow | hrow
      · exact hrow
      · rw [hrow] at hnew
        exact absurd (.inl (List.mem_singleton.mpr rfl)) hnew
    refine (consistent_iff hvalid').mpr ⟨p, some t, h.congr rfl rfl, hp, ?_⟩
    show update db.userRole u (db.userRole u ++ [t]) u = tierRows (some t)
    rw [update_self, hempty, ht]
    rfl
  | done => cases hrest

/-! ## Runs -/

/-- What the statements of a run have to meet: each of them succeeds, and is current. -/
def UpToDate (env : Env) (st : State) (a : Action) : Prop :=
  ∀ w ∈ writeAt st a, w.run env st.store ≠ none ∧ Current (creating st) st.store w

/-- The users of `start`, and those whose roles a call has set, agree unless their
`createUser` is still running. -/
structure Agreeing (start : Nat → Prop) (st : State) : Prop where
  valid : Valid st.store
  phase : ∀ (i : Nat) (r : Running), st.calls[i]? = some r → Phase st.store r.call r.answers r.rest
  once : ∀ (i j : Nat) (r r' : Running) u, st.calls[i]? = some r → st.calls[j]? = some r' →
    created r.call r.answers = some u → created r'.call r'.answers = some u → i = j
  settled : ∀ u, st.store.users u ≠ none → (start u ∨ ∃ r ∈ st.calls, Gives r u) →
    u ∉ creating st → Consistent st.store u

theorem mem_creating {st : State} {u : Nat} : u ∈ creating st ↔
    ∃ (i : Nat) (r : Running), st.calls[i]? = some r ∧ r.isDone = false ∧ created r.call r.answers = some u := by
  unfold creating
  rw [List.mem_filterMap]
  constructor
  · rintro ⟨r, hr, h⟩
    obtain ⟨i, hi⟩ := List.mem_iff_getElem?.mp hr
    split at h
    · cases h
    · next hdone => exact ⟨i, r, hi, Bool.not_eq_true _ ▸ hdone, h⟩
  · rintro ⟨i, r, hi, hdone, hcreated⟩
    refine ⟨r, List.mem_of_getElem? hi, ?_⟩
    rw [hdone]
    exact hcreated

theorem Phase.created {db : Database} {c : Call} {answers : List (Option Nat)} {rest : Rest} {u : Nat}
    (h : Phase db c answers rest) (hu : created c answers = some u) :
    db.users u ≠ none ∧ Granting db u rest := by
  cases h with
  | beforeInsert => cases hu
  | granting input v answers rest hv h =>
    cases hu
    exact ⟨hv, h⟩
  | beforeAssign | assigned => simp [Accounts.created] at hu
  | other c answers rest hc =>
    cases c with
    | createUser | setUserRoles => cases hc
    | _ => simp [Accounts.created] at hu

section
variable {start : Nat → Prop} {st : State} {i : Nat}
  {r r' : Running} {d' : Database}

theorem mem_creating_other {u : Nat} (hi : st.calls[i]? = some r)
    (hown : Accounts.created r.call r.answers ≠ some u) (h : u ∈ creating st) :
    u ∈ creating ⟨d', st.calls.set i r'⟩ := by
  obtain ⟨j, q, hj, hdone, hq⟩ := mem_creating.mp h
  have hne : i ≠ j := by
    rintro rfl
    rw [hi] at hj
    cases hj
    exact hown hq
  exact mem_creating.mpr ⟨j, q, (List.getElem?_set_ne hne).trans hj, hdone, hq⟩

theorem mem_creating_own {u : Nat} (hi : st.calls[i]? = some r)
    (hown : Accounts.created r'.call r'.answers = some u) (hdone : r'.isDone = false) :
    u ∈ creating ⟨d', st.calls.set i r'⟩ := by
  refine mem_creating.mpr ⟨i, r', ?_, hdone, hown⟩
  show (st.calls.set i r')[i]? = some r'
  rw [List.getElem?_set_self', hi]
  rfl

/-- The next statement of one call: what it has to see to for the others. -/
theorem Agreeing.advance (hinv : Agreeing start st) (hi : st.calls[i]? = some r) (hvalid : Valid d')
    (hphase : Phase d' r'.call r'.answers r'.rest)
    (husers : ∀ u, st.store.users u ≠ none → d'.users u ≠ none)
    (hcreated : ∀ u, Accounts.created r'.call r'.answers = some u →
      Accounts.created r.call r.answers = some u ∨ st.store.users u = none)
    (hfollow : ∀ u ∈ creating st, Accounts.created r.call r.answers ≠ some u → ∀ p t,
      Primary st.store u p t → ∃ p' t', Followed (creating st) st.store d' u p t p' t')
    (hsettled : ∀ u, d'.users u ≠ none → (start u ∨ ∃ r ∈ st.calls, Gives r u) ∨ Gives r' u →
      u ∉ creating ⟨d', st.calls.set i r'⟩ → Consistent d' u) :
    Agreeing start ⟨d', st.calls.set i r'⟩ := by
  have hnew : ∀ (j : Nat) (q : Running) u, j ≠ i → st.calls[j]? = some q → Accounts.created q.call q.answers = some u →
      Accounts.created r.call r.answers ≠ some u ∧ Accounts.created r'.call r'.answers ≠ some u := by
    intro j q u hji hj hq
    have hnot : Accounts.created r.call r.answers ≠ some u :=
      fun hr => hji (hinv.once j i q r u hj hi hq hr)
    refine ⟨hnot, fun hr' => ?_⟩
    rcases hcreated u hr' with hr | hnone
    · exact hnot hr
    · exact ((hinv.phase j q hj).created hq).1 hnone
  refine ⟨hvalid, fun j q hj => ?_, fun j k q q' u hj hk hq hq' => ?_, fun u hu hset hnot => ?_⟩
  · rcases get_set hj with ⟨rfl, rfl⟩ | ⟨hji, hj⟩
    · exact hphase
    · have hq := hinv.phase j q hj
      obtain ⟨c, answers, rest⟩ := q
      cases hq with
      | beforeInsert input rest h => exact .beforeInsert input rest h
      | granting input u answers rest hu h =>
        refine .granting input u answers rest (husers u hu) ?_
        rcases h.running (.createUser input) (some u :: answers) with rfl | hdone
        · exact .done
        · exact h.follow (mem_creating.mpr ⟨j, _, hj, hdone, rfl⟩)
            (hfollow u (mem_creating.mpr ⟨j, _, hj, hdone, rfl⟩) (hnew j _ u hji hj rfl).1)
      | beforeAssign u roleIds primary answers rest h =>
        exact .beforeAssign u roleIds primary answers rest h
      | assigned u roleIds primary answers => exact .assigned u roleIds primary answers
      | other c answers rest hc h => exact .other c answers rest hc h
  · rcases get_set hj with ⟨rfl, rfl⟩ | ⟨hji, hj'⟩ <;> rcases get_set hk with ⟨rfl, rfl⟩ | ⟨hki, hk'⟩
    · rfl
    · exact absurd hq (hnew k q' u hki hk' hq').2
    · exact absurd hq' (hnew j q u hji hj' hq).2
    · exact hinv.once j k q q' u hj' hk' hq hq'
  · refine hsettled u hu ?_ hnot
    rcases hset with hs | ⟨q, hq, hgives⟩
    · exact .inl (.inl hs)
    · rcases List.mem_or_eq_of_mem_set hq with hq | rfl
      · exact .inl (.inr ⟨q, hq, hgives⟩)
      · exact .inr hgives

end

theorem users_after {env : Env} {db d' : Database} {w : Write} {x : Option Nat} {u : Nat}
    (hfresh : db.Fresh) (hw : w.run env db = some (d', x)) (hu : db.users u ≠ none) :
    d'.users u ≠ none := by
  obtain ⟨user, huser⟩ := Option.ne_none_iff_exists'.mp hu
  obtain ⟨user', huser', -⟩ := account_of_write hfresh hw huser
  exact huser' ▸ Option.some_ne_none user'

/-- A user is there before the write, or the write inserts it. -/
theorem users_before {env : Env} {db d' : Database} {w : Write} {x : Option Nat} {u : Nat}
    (hw : w.run env db = some (d', x)) (hu : d'.users u ≠ none) :
    db.users u ≠ none ∨ w.grants = true ∧ u = db.nextUserId ∧ d'.users ≠ db.users := by
  cases effect_of_run hw with
  | account w v f =>
    rw [updateUser_users] at hu
    refine .inl fun hnone => hu ?_
    rw [hnone]
    split <;> rfl
  | insertUser email hash status roleId role =>
    by_cases heq : u = db.nextUserId
    · by_cases hnone : db.users u = none
      · refine .inr ⟨rfl, heq, fun hsame => hu ?_⟩
        exact (congrFun hsame u).trans hnone
      · exact .inl hnone
    · exact .inl fun hnone => hu ((update_of_ne heq _ _).trans hnone)
  | insertUserRole v r => 
    have husers : (db.insertUserRole v r).users = db.users := insertUserRole_users v r
    exact .inl (husers ▸ hu)
  | deleteTier | insertTier | createRole => exact .inl hu
  | assignRoles a d hspec =>
    refine .inl fun hnone => hu ?_
    rw [hspec.users]
    by_cases hv : u = a.userId
    · rw [← hv, update_self, hnone]
      rfl
    · rw [update_of_ne hv, hnone]
  | changeRole c d hspec => exact .inl (hspec.users ▸ hu)
  | deleteRole c d hspec =>
    refine .inl fun hnone => hu ?_
    by_cases hp : u ∈ db.primaries c.roleId
    · obtain ⟨q, tier, -, -, -, husers⟩ := hspec.primaries u hp
      rw [husers, hnone]
      rfl
    · rw [(hspec.others u hp).1, hnone]

theorem not_gives_of_first {c : Call} {answers : List (Option Nat)} {rest : Rest}
    {u : Nat} {R : Write → (Option Nat → Rest) → Prop} (h : rest.First (· ≠ .ok) R) :
    ¬ Gives ⟨c, answers, rest⟩ u := by
  rintro ⟨rfl, -⟩
  exact h rfl

theorem created_other {c : Call} (hc : c.setsRoles = false) (answers : List (Option Nat)) :
    created c answers = none := by
  cases c with
  | createUser | setUserRoles => cases hc
  | _ => rfl

theorem not_gives_other {c : Call} (hc : c.setsRoles = false) (answers : List (Option Nat))
    (rest : Rest) (u : Nat) : ¬ Gives ⟨c, answers, rest⟩ u := by
  rintro ⟨-, hcreated | ⟨roleIds, primary, hcall⟩⟩
  · rw [show created c answers = none from created_other hc answers] at hcreated
    cases hcreated
  · rw [show c = .setUserRoles u roleIds primary from hcall] at hc
    cases hc

theorem not_gives_body (env : Env) (c : Call) (u : Nat) : ¬ Gives ⟨c, [], body env c⟩ u := by
  cases c with
  | createUser input => exact not_gives_of_first (createUser_first input)
  | setUserRoles v roleIds primary =>
    exact not_gives_of_first (setUserRoles_first v roleIds primary)
  | _ => exact not_gives_other rfl [] _ u

theorem Agreeing.called {env : Env} {start : Nat → Prop} {st : State} (hinv : Agreeing start st)
    (c : Call) : Agreeing start ⟨st.store, st.calls ++ [⟨c, [], body env c⟩]⟩ := by
  have hcreated : created c [] = none := by cases c <;> rfl
  have hcreating : creating ⟨st.store, st.calls ++ [⟨c, [], body env c⟩]⟩ = creating st := by
    unfold creating
    rw [List.filterMap_append, List.filterMap_cons_none, List.filterMap_nil, List.append_nil]
    dsimp only
    split
    · rfl
    · exact hcreated
  refine ⟨hinv.valid, fun i r hi => ?_, fun i j r r' u hi hj hr hr' => ?_, fun u hu hset hnot => ?_⟩
  · rcases get_concat hi with hi | ⟨-, rfl⟩
    · exact hinv.phase i r hi
    · exact phase_body env st.store c
  · rcases get_concat hi with hi | ⟨-, rfl⟩
    · rcases get_concat hj with hj | ⟨-, rfl⟩
      · exact hinv.once i j r r' u hi hj hr hr'
      · rw [show created _ _ = none from hcreated] at hr'
        cases hr'
    · rw [show created _ _ = none from hcreated] at hr
      cases hr
  · rw [hcreating] at hnot
    refine hinv.settled u hu (hset.imp id ?_) hnot
    rintro ⟨r, hr, hgives⟩
    rcases List.mem_append.mp hr with hr | hr
    · exact ⟨r, hr, hgives⟩
    · rw [List.mem_singleton.mp hr] at hgives
      exact absurd hgives (not_gives_body env c u)

theorem Agreeing.read {start : Nat → Prop} {st : State} {i : Nat} {c : Call}
    {answers : List (Option Nat)} {next : Database → Rest} (hinv : Agreeing start st)
    (hi : st.calls[i]? = some ⟨c, answers, .read next⟩) :
    Agreeing start ⟨st.store, st.calls.set i ⟨c, answers, next st.store⟩⟩ := by
  have hphase : Phase st.store c answers (.read next) := hinv.phase i _ hi
  have hnext : Phase st.store c answers (next st.store) ∧
      ∀ u, ¬ Gives ⟨c, answers, next st.store⟩ u := by
    cases hphase with
    | beforeInsert input rest h =>
      exact ⟨.beforeInsert input _ (h st.store), fun u => not_gives_of_first (h st.store)⟩
    | granting input u answers rest hu hg =>
      exact ⟨.granting input u answers _ hu hg.read.1, fun u hgives => hg.read.2 hgives.1⟩
    | beforeAssign u roleIds primary answers rest h =>
      exact ⟨.beforeAssign u roleIds primary answers _ (h st.store),
        fun u => not_gives_of_first (h st.store)⟩
    | other c answers rest hc h =>
      exact ⟨.other c answers _ hc (h st.store trivial), fun u => not_gives_other hc answers _ u⟩
  refine hinv.advance hi hinv.valid hnext.1 (fun _ hu => hu) (fun _ hcreated => .inl hcreated)
    (fun u _ _ p t hp => ⟨p, t, .same hp rfl rfl id rfl⟩) fun u hu hset hnot => ?_
  refine hinv.settled u hu (hset.resolve_right (hnext.2 u)) fun hmem => hnot ?_
  by_cases hown : created c answers = some u
  · have hg := ((hinv.phase i _ hi).created hown).2.read
    exact mem_creating_own hi hown ((hg.1.running c answers).resolve_left hg.2)
  · exact mem_creating_other hi hown hmem

theorem Agreeing.write {env : Env} {start : Nat → Prop} {st : State} {i : Nat} {c : Call}
    {answers : List (Option Nat)} {w : Write} {next : Option Nat → Rest} {d' : Database}
    {x : Option Nat} (hinv : Agreeing start st) (hi : st.calls[i]? = some ⟨c, answers, .write w next⟩)
    (hw : w.run env st.store = some (d', x)) (hcurrent : Current (creating st) st.store w) :
    Agreeing start ⟨d', st.calls.set i ⟨c, answers ++ [x], next x⟩⟩ := by
  have hvalid := hinv.valid.write hw
  have hafter : ∀ u, st.store.users u ≠ none → d'.users u ≠ none :=
    fun u => users_after hinv.valid.fresh hw
  have hkeep : ∀ u, w.retiers ≠ some u → st.store.users u ≠ none →
      (start u ∨ ∃ r ∈ st.calls, Gives r u) → u ∉ creating st → Consistent d' u :=
    fun u hrow hu hset hnot =>
      consistent_after hinv.valid hw hcurrent hrow (hinv.settled u hu hset hnot)
  have hfollow : ∀ u, w.retiers ≠ some u → ∀ p t, Primary st.store u p t →
      ∃ p' t', Followed (creating st) st.store d' u p t p' t' :=
    fun u hrow p t => followed_of_write hinv.valid hw hcurrent hrow
  have hphase : Phase st.store c answers (.write w next) := hinv.phase i _ hi
  cases hphase with
  | beforeInsert input rest h =>
    obtain ⟨email, hash, status, role, rfl, rfl⟩ := h
    simp only [Write.run, Database.insertUser] at hw
    split at hw
    · cases hw
    next hfree =>
    cases hw
    have hrole : st.store.roles input.roleId ≠ none := fun hnone => hfree (.inr hnone)
    obtain ⟨role', hrole'⟩ := Option.ne_none_iff_exists'.mp hrole
    have htier : role'.tier = role.tier := by
      have htier : st.store.tierOf input.roleId = role.tier := hcurrent
      unfold Database.tierOf at htier
      rw [hrole'] at htier
      exact htier
    have hfresh := hinv.valid.fresh st.store.nextUserId (Nat.le_refl _)
    refine hinv.advance hi hvalid (.granting input st.store.nextUserId [] _ ?_
      (.known input role input.roleId ⟨?_, role', hrole', htier⟩ (.inr rfl))) hafter
      (fun u hu => ?_) (fun u _ _ => hfollow u (fun h => by cases h)) fun u hu hset hnot => ?_
    · show update st.store.users st.store.nextUserId _ _ ≠ none
      rw [update_self]
      exact Option.some_ne_none _
    · show (update st.store.users st.store.nextUserId _ _).bind _ = _
      rw [update_self]
      rfl
    · cases hu
      exact .inr hfresh
    · by_cases hnew : u = st.store.nextUserId
      · exact absurd (mem_creating_own hi (by rw [hnew]; rfl) rfl) hnot
      · have hu : st.store.users u ≠ none := fun hnone => hu ((update_of_ne hnew _ _).trans hnone)
        refine hkeep u (fun h => by cases h) hu (hset.resolve_right fun hgives => by cases hgives.1)
          fun hmem => hnot (mem_creating_other hi (fun h => by cases h) hmem)
  | granting input u answers rest hu hg =>
    obtain ⟨hnext, hdone, hrow, husers⟩ := hg.write hinv.valid hw
    refine hinv.advance hi hvalid (.granting input u (answers ++ [x]) _ (husers ▸ hu) hnext) hafter
      (fun v hv => .inl hv) (fun v _ hne => hfollow v (hrow v fun heq => hne (heq ▸ rfl)))
      fun v hv hset hnot => ?_
    by_cases hvu : v = u
    · subst hvu
      rcases hnext.running (.createUser input) (some v :: answers ++ [x]) with hend | hrunning
      · exact hdone hend
      · exact absurd (mem_creating_own hi rfl hrunning) hnot
    · have hown : created (.createUser input) (some u :: answers) ≠ some v :=
        fun heq => hvu (Option.some.inj heq).symm
      refine hkeep v (hrow v hvu) (husers ▸ hv) (hset.resolve_right ?_)
        fun hmem => hnot (mem_creating_other hi hown hmem)
      rintro ⟨-, hcreated | ⟨roleIds, primary, hcall⟩⟩
      · exact hown hcreated
      · cases hcall
  | beforeAssign u roleIds primary answers rest h =>
    obtain ⟨a, rfl, rfl, rfl⟩ := h
    have hspec : Assigned st.store a d' := by
      obtain ⟨d, hd, heq⟩ := Option.map_eq_some_iff.mp hw
      cases heq
      exact assignRoles_spec hd
    have hrow : ∀ v, (Write.assignRoles a).retiers ≠ some v := fun v h => by cases h
    refine hinv.advance hi hvalid (.assigned a.userId roleIds primary _) hafter
      (fun v hv => ?_) (fun v _ _ => hfollow v (hrow v)) fun v hv hset hnot => ?_
    · simp [created] at hv
    · have hbefore := (users_before hw hv).resolve_right fun h => by cases h.1
      by_cases hvu : v = a.userId
      · subst hvu
        exact consistent_assigned hvalid hspec hcurrent hbefore
      · refine hkeep v (hrow v) hbefore (hset.resolve_right ?_)
          fun hmem => hnot (mem_creating_other hi (by simp [created]) hmem)
        rintro ⟨-, hcreated | ⟨roleIds, primary, hcall⟩⟩
        · simp [created] at hcreated
        · cases hcall
          exact hvu rfl
  | other c answers rest hc h =>
    have hrow := retiers_of_grants h.1
    refine hinv.advance hi hvalid (.other c _ _ hc (h.2 x)) hafter (fun v hv => ?_)
      (fun v _ _ => hfollow v (hrow v)) fun v hv hset hnot => ?_
    · rw [show created c _ = none from created_other hc _] at hv
      cases hv
    · have hbefore := (users_before hw hv).resolve_right fun hgrants => by
        rw [h.1] at hgrants
        cases hgrants.1
      refine hkeep v (hrow v) hbefore (hset.resolve_right (not_gives_other hc _ _ v))
        fun hmem => hnot (mem_creating_other hi ?_ hmem)
      rw [show created c _ = none from created_other hc _]
      exact (Option.some_ne_none v).symm

theorem Agreeing.step {env : Env} {start : Nat → Prop} {st st' : State} {a : Action}
    (hinv : Agreeing start st) (hok : UpToDate env st a) (h : Accounts.step env st a = some st') :
    Agreeing start st' := by
  cases step_cases h with
  | call c ha h =>
    subst h
    exact hinv.called c
  | read i c as next ha hi h =>
    subst h
    exact hinv.read hi
  | fail i c as w next ha hi hw h =>
    subst ha
    exact absurd hw (hok w (writeAt_of_get hi)).1
  | write i c as w next s' x ha hi hw h =>
    subst h ha
    exact hinv.write hi hw (hok w (writeAt_of_get hi)).2

/-- **The role store agrees**: once no call is running, every user who agreed at the start,
or whose roles a call has set, has the primary role among the roles held and its tier as
the tier row, when the statements of the run succeeded and were current. -/
theorem roles_agree {env : Env} {st₀ st : State} {as : List Action} {u : Nat} {user : AppUser}
    (hvalid : Valid st₀.store) (hcalls : st₀.calls = []) (h : Run (step env) (UpToDate env) st₀ as st)
    (hdone : ∀ r ∈ st.calls, r.isDone = true) (hu : st.store.users u = some user)
    (hset : Consistent st₀.store u ∨ ∃ r ∈ st.calls, Gives r u) : Consistent st.store u := by
  have hstart : Agreeing (Consistent st₀.store) st₀ := by
    refine ⟨hvalid, fun i r hi => ?_, fun i j r r' v hi => ?_, fun v _ hv _ => ?_⟩
    · rw [hcalls] at hi
      cases hi
    · rw [hcalls] at hi
      cases hi
    · refine hv.resolve_right ?_
      rintro ⟨r, hr, -⟩
      rw [hcalls] at hr
      cases hr
  have hend := h.invariant (fun _ _ _ hinv hok hst => hinv.step hok hst) hstart
  refine hend.settled u (hu ▸ Option.some_ne_none user) hset fun hmem => ?_
  obtain ⟨i, r, hi, hrunning, -⟩ := mem_creating.mp hmem
  rw [hdone r (List.mem_of_getElem? hi)] at hrunning
  cases hrunning

/-! ### One user and two roles -/

/-- User 0 has the role 1 of two. -/
def oneUser : State where
  store :=
    { users := fun u => if u = 0 then
        some ⟨"ana", "right", .ACTIVE, false, 0, none, some 1⟩ else none
      nextUserId := 1
      roles := fun r => if r = 1 then some ⟨"C_SALES", "Sales", some "BI01", false⟩
        else if r = 2 then some ⟨"C_STOCK", "Stock", none, false⟩ else none
      nextRoleId := 3
      userRoles := fun u => if u = 0 then [1] else []
      userRole := fun u => if u = 0 then ["BI01"] else []
      roleTiers := ["BI01", "BI02"] }
  calls := []

theorem oneUser_valid : Valid oneUser.store where
  fresh u hu := by
    have hu : 1 ≤ u := hu
    exact if_neg (by omega)
  freshRoles r hr := by
    have hr : 3 ≤ r := hr
    show (if r = 1 then _ else if r = 2 then _ else none) = none
    rw [if_neg (by omega), if_neg (by omega)]
  tiers r role hr := by
    change (if r = 1 then _ else if r = 2 then _ else none) = some role at hr
    split at hr
    · cases hr
      decide
    · split at hr
      · cases hr
        decide
      · cases hr

theorem oneUser_consistent : Consistent oneUser.store 0 :=
  ⟨_, 1, _, rfl, rfl, rfl, List.mem_singleton.mpr rfl, rfl⟩

instance (env : Env) (st : State) (a : Action) : Decidable (UpToDate env st a) :=
  inferInstanceAs (Decidable (∀ w ∈ writeAt st a, w.run env st.store ≠ none ∧ _))

def newcomer : CreateUserInput := ⟨"bob", 1, [2], none, "secret123", "secret123"⟩

/-- A new user gets the role while another gets a further one; then its tier changes. -/
def sideBySide : List Action :=
  [.call (.createUser newcomer), .call (.setUserRoles 0 [1, 2] none), .advance 0, .advance 1,
    .advance 0, .advance 1, .advance 0, .advance 1, .advance 0, .advance 1, .advance 0,
    .advance 1, .advance 0, .advance 0, .advance 0, .call (.updateRole 1 none (some "BI02")),
    .advance 2, .advance 2]

/-- The tier changes between the first read of `setUserRoles` and its transaction. -/
def overlapped : List Action :=
  [.call (.setUserRoles 0 [1] none), .advance 0, .call (.updateRole 1 none (some "BI02")),
    .advance 1, .advance 1, .advance 0, .advance 0, .advance 0, .advance 0]

theorem roles_agree_side_by_side : ∃ st, FreeRun (step plainEnv) oneUser sideBySide st ∧
    (∀ r ∈ st.calls, r.isDone = true) ∧ st.store.userRole 0 = ["BI02"] ∧ Consistent st.store 0 := by
  have hrun : (exec (step plainEnv) (UpToDate plainEnv) oneUser sideBySide).map (fun st =>
      (st.calls.all (·.isDone) && (st.store.users 0).isSome) &&
        decide (st.store.userRole 0 = ["BI02"])) = some true := by decide +kernel
  obtain ⟨st, hst, hall⟩ := Option.map_eq_some_iff.mp hrun
  rw [Bool.and_eq_true, Bool.and_eq_true, List.all_eq_true, decide_eq_true_eq,
    Option.isSome_iff_exists] at hall
  obtain ⟨⟨hdone, user, hu⟩, hrow⟩ := hall
  have hrun := (exec_eq_some _ _ _ _ _).mp hst
  exact ⟨st, hrun.free, hdone, hrow,
    roles_agree oneUser_valid rfl hrun hdone hu (.inl oneUser_consistent)⟩

/-- The re-assignment writes the tier of the role as it was before. -/
theorem roles_stale : ∃ st, Valid oneUser.store ∧ oneUser.calls = [] ∧ Consistent oneUser.store 0 ∧
    Run (step plainEnv) (fun st a => ∀ w ∈ writeAt st a, w.run plainEnv st.store ≠ none) oneUser
      overlapped st ∧
    (∀ r ∈ st.calls, r.isDone = true) ∧ (∃ r ∈ st.calls, Gives r 0) ∧ ¬ Consistent st.store 0 := by
  have hrun : (exec (step plainEnv) (fun st a => ∀ w ∈ writeAt st a, w.run plainEnv st.store ≠ none)
      oneUser overlapped).map (fun st =>
      (st.calls.all (·.isDone) && (st.calls.map fun r => (r.call, r.result)).contains
        (.setUserRoles 0 [1] none, some .ok)) &&
        decide (st.store.primaryRole 0 = some 1 ∧ st.store.tierOf 1 = some "BI02" ∧
          st.store.userRole 0 = ["BI01"])) = some true := by decide +kernel
  obtain ⟨st, hst, hall⟩ := Option.map_eq_some_iff.mp hrun
  rw [Bool.and_eq_true, Bool.and_eq_true, List.all_eq_true, List.contains_iff_mem,
    decide_eq_true_eq] at hall
  obtain ⟨⟨hdone, hreturned⟩, hprimary, htier, hrow⟩ := hall
  obtain ⟨r, hr, hpair⟩ := List.mem_map.mp hreturned
  obtain ⟨hcall, hresult⟩ := Prod.mk.inj hpair
  refine ⟨st, oneUser_valid, rfl, oneUser_consistent, (exec_eq_some _ _ _ _ _).mp hst, hdone,
    ⟨r, hr, rest_of_result hresult, .inr ⟨[1], none, hcall⟩⟩, ?_⟩
  rintro ⟨user, p, role, hu, hp, hrole, -, hrows⟩
  have hp : st.store.primaryRole 0 = some p := Option.bind_eq_some_iff.mpr ⟨user, hu, hp⟩
  rw [hprimary] at hp
  cases hp
  unfold Database.tierOf at htier
  rw [hrole] at htier
  rw [hrow, show role.tier = some "BI02" from htier] at hrows
  exact absurd hrows (by decide)

end SalesDashboard.Accounts
