import SalesDashboard.Accounts.Effects

/-! The last active Admin: which writes can take an account out of the active Admins, and
what keeps one of them there. -/

namespace SalesDashboard.Accounts
open Function Transition Calls

/-! ## The Admin role -/

/-- The role named `ADMIN` is built in, and there is no other of that name. -/
structure AdminRole (adminId : Nat) (db : Database) : Prop where
  below : adminId < db.nextRoleId
  builtIn : ∃ role, db.roles adminId = some role ∧ role.name = ADMIN_ROLE_NAME ∧
    role.isSystem = true
  unique : ∀ r role, db.roles r = some role → role.name = ADMIN_ROLE_NAME → r = adminId

/-- The user holds the Admin role and can sign in. -/
def ActiveAdmin (adminId : Nat) (db : Database) (u : Nat) : Prop :=
  adminId ∈ db.userRoles u ∧ db.canSignIn u = true

structure AdminRemains (adminId : Nat) (db : Database) : Prop where
  fresh : db.Fresh
  role : AdminRole adminId db
  active : ∃ u, ActiveAdmin adminId db u

theorem AdminRole.adminRoleId {adminId : Nat} {db : Database} (h : AdminRole adminId db) :
    db.adminRoleId = some adminId := by
  obtain ⟨role, hrole, hname, -⟩ := h.builtIn
  unfold Database.adminRoleId
  cases hfind : (List.range db.nextRoleId).find? _ with
  | none =>
    have := List.find?_eq_none.mp hfind adminId (List.mem_range.mpr h.below)
    simp [hrole, hname] at this
  | some r =>
    have hr := List.find?_some hfind
    split at hr
    · next role' hrole' => rw [h.unique r role' hrole' (of_decide_eq_true hr)]
    · cases hr

theorem codeCandidate_ne_admin (cs : List Char) (i : Nat) :
    codeCandidate ('C' :: '_' :: cs) i ≠ ADMIN_ROLE_NAME := by
  intro h
  have hlist := congrArg String.toList h
  unfold codeCandidate ADMIN_ROLE_NAME at hlist
  rw [String.toList_ofList] at hlist
  split at hlist
  · cases hlist
  · cases hlist

theorem uniqueRoleCode_ne_admin {env : Env} {db : Database} {label code : String}
    (h : uniqueRoleCode env db label = some code) : code ≠ ADMIN_ROLE_NAME := by
  obtain ⟨i, -, rfl⟩ := List.mem_map.mp (List.mem_of_find?_eq_some h)
  exact codeCandidate_ne_admin _ i

theorem AdminRole.same {adminId : Nat} {db d : Database} (h : AdminRole adminId db)
    (hroles : d.roles = db.roles) (hnext : d.nextRoleId = db.nextRoleId) : AdminRole adminId d :=
  ⟨hnext ▸ h.below, hroles ▸ h.builtIn, hroles ▸ h.unique⟩

/-- What a call is about to write spares the Admin role. -/
def Spares (adminId : Nat) : Write → Prop
  | .deleteRole x => adminId ≠ x.roleId
  | _ => True

theorem spares_of_issued {env : Env} {adminId : Nat} {J : Database → Prop} {c : Call} {w : Write}
    (hJ : ∀ db, J db → AdminRole adminId db) (h : Issued env J c w) : Spares adminId w := by
  cases w with
  | deleteRole x =>
    cases c with
    | deleteRole r q =>
      obtain ⟨⟨x', heq, hr⟩, db, role, hdb, hrole, hsystem⟩ := h
      cases heq
      rintro rfl
      obtain ⟨admin, hadmin, -, hbuiltIn⟩ := (hJ db hdb).builtIn
      rw [hr, hrole] at hadmin
      cases hadmin
      rw [hsystem] at hbuiltIn
      cases hbuiltIn
    | login => rcases h with ⟨_, _, h⟩ | ⟨_, h⟩ <;> cases h
    | setUserStatus | adminResetPassword | changePassword | createRole => cases h
    | resetPassword => obtain ⟨_, h⟩ := h; cases h
    | setUserRoles | updateRole => obtain ⟨_, h, -⟩ := h; cases h
    | createUser input =>
      rcases h with ⟨_, _, h⟩ | ⟨_, ⟨_, h⟩ | h | ⟨_, h⟩⟩ <;> cases h
  | _ => trivial

/-- The Admin role outlives every write: a deletion is never of a built-in role. -/
theorem AdminRole.write {env : Env} {adminId : Nat} {db d' : Database} {w : Write}
    {x : Option Nat} (h : AdminRole adminId db) (hspares : Spares adminId w)
    (hw : w.run env db = some (d', x)) : AdminRole adminId d' := by
  cases effect_of_run hw with
  | account | insertUser | deleteTier | insertTier => exact h.same rfl rfl
  | insertUserRole u r =>
    exact h.same (insertUserRole_roles u r) (sameButHeld_insertUserRole u r).nextRoleId
  | assignRoles a d hspec => exact h.same hspec.roles hspec.nextRoleId
  | createRole label tierCode code htier hcode =>
    have hold : ∀ r ≠ db.nextRoleId, update db.roles db.nextRoleId
        (some ⟨code, label, some tierCode, false⟩) r = db.roles r :=
      fun r hr => update_of_ne hr _ _
    have hbelow := h.below
    refine ⟨Nat.lt_succ_of_lt hbelow, ?_, fun r role hr hname => ?_⟩
    · show ∃ role, update db.roles _ _ adminId = some role ∧ _
      rw [hold adminId (by omega)]
      exact h.builtIn
    · change update db.roles _ _ r = some role at hr
      by_cases hnew : r = db.nextRoleId
      · rw [hnew, update_self] at hr
        cases hr
        exact absurd hname (uniqueRoleCode_ne_admin hcode)
      · rw [hold r hnew] at hr
        exact h.unique r role hr hname
  | changeRole c d hspec =>
    have hnames : ∀ r role, d'.roles r = some role →
        ∃ before, db.roles r = some before ∧ role.name = before.name ∧
          role.isSystem = before.isSystem := by
      intro r role hr
      rw [hspec.roles] at hr
      by_cases hrc : r = c.roleId
      · rw [hrc, update_self] at hr
        obtain ⟨before, hbefore, rfl⟩ := Option.map_eq_some_iff.mp hr
        exact ⟨before, hrc ▸ hbefore, rfl, rfl⟩
      · rw [update_of_ne hrc] at hr
        exact ⟨role, hr, rfl, rfl⟩
    refine ⟨hspec.nextRoleId ▸ h.below, ?_, fun r role hr hname => ?_⟩
    · obtain ⟨role, hrole, hname, hsystem⟩ := h.builtIn
      rw [hspec.roles]
      by_cases hrc : adminId = c.roleId
      · rw [← hrc, update_self, hrole]
        exact ⟨_, rfl, hname, hsystem⟩
      · rw [update_of_ne hrc]
        exact ⟨role, hrole, hname, hsystem⟩
    · obtain ⟨before, hbefore, hsame, -⟩ := hnames r role hr
      exact h.unique r before hbefore (hsame ▸ hname)
  | deleteRole c d hspec =>
    have hne : adminId ≠ c.roleId := hspares
    refine ⟨hspec.nextRoleId ▸ h.below, ?_, fun r role hr hname => ?_⟩
    · rw [hspec.roles, update_of_ne hne]
      exact h.builtIn
    · rw [hspec.roles] at hr
      by_cases hrc : r = c.roleId
      · rw [hrc, update_self] at hr
        cases hr
      · rw [update_of_ne hrc] at hr
        exact h.unique r role hr hname

/-! ## Writes that disable -/

/-- The user that a write could take out of the active Admins: a status that cannot sign
in, or roles without the Admin role. -/
def Write.disables (db : Database) : Write → Option Nat
  | .failedLogin u _ status | .setStatus u status => if status.canSignIn then none else some u
  | .assignRoles x => match db.adminRoleId with
    | some adminId => if adminId ∈ x.ids then none else some x.userId
    | none => none
  | _ => none

/-- The guard of `assertCanDeactivate` and `setUserRoles`, on this state: not the last
active Admin. -/
def MayDisable (db : Database) (u : Nat) : Prop :=
  ∀ adminId ∈ db.adminRoleId, adminId ∈ db.userRoles u → db.otherActive adminId u ≠ 0

/-- The guard still passes when the write is made. -/
def Guarded (db : Database) (w : Write) : Prop := ∀ u ∈ w.disables db, MayDisable db u

instance (db : Database) (w : Write) : Decidable (Guarded db w) :=
  inferInstanceAs (Decidable (∀ u ∈ w.disables db, ∀ adminId ∈ db.adminRoleId,
    adminId ∈ db.userRoles u → db.otherActive adminId u ≠ 0))

/-- A write that does not disable a user leaves them able to sign in. -/
theorem canSignIn_after {env : Env} {db d' : Database} {w : Write} {x : Option Nat} {u : Nat}
    (hfresh : db.Fresh) (hw : w.run env db = some (d', x)) (hne : w.disables db ≠ some u)
    (h : db.canSignIn u = true) : d'.canSignIn u = true := by
  unfold Database.canSignIn at h
  split at h
  · next user hu =>
    obtain ⟨user', hu', hacc⟩ := account_of_write hfresh hw hu
    unfold Database.canSignIn
    rw [hu']
    show user'.status.canSignIn = true
    rw [show user'.status = (accountAfter w u user).1 from congrArg Prod.fst hacc]
    cases w with
    | failedLogin v count status | setStatus v status =>
      simp only [accountAfter]
      split
      · next hv =>
        subst hv
        by_contra hclosed
        exact hne (if_neg hclosed)
      · exact h
    | adminReset v hash | changePassword v hash | resetPassword v hash =>
      simp only [accountAfter]
      repeat' split
      all_goals first | exact h | rfl
    | _ => exact h
  · cases h

/-- A write that does not disable a user leaves them the Admin role. -/
theorem held_after {env : Env} {adminId : Nat} {db d' : Database} {w : Write} {x : Option Nat}
    {u : Nat} (hrole : AdminRole adminId db) (hspares : Spares adminId w)
    (hw : w.run env db = some (d', x)) (hne : w.disables db ≠ some u)
    (h : adminId ∈ db.userRoles u) : adminId ∈ d'.userRoles u := by
  cases effect_of_run hw with
  | account | insertUser | deleteTier | insertTier | createRole => exact h
  | insertUserRole v r => exact mem_insertUserRole.mpr (.inl h)
  | assignRoles a d hspec =>
    by_cases hu : u = a.userId
    · subst hu
      simp only [Write.disables, hrole.adminRoleId] at hne
      have hids : adminId ∈ a.ids := by
        by_contra hnot
        exact hne (if_neg hnot)
      exact (hspec.held adminId).mpr ⟨hids, .inl h⟩
    · exact (hspec.others u hu adminId).mpr h
  | changeRole c d hspec => exact hspec.userRoles ▸ h
  | deleteRole c d hspec => exact hspec.kept u adminId h hspares

/-! ## Runs -/

theorem exists_otherActive {adminId u : Nat} {db : Database} (h : db.otherActive adminId u ≠ 0) :
    ∃ v, v ≠ u ∧ ActiveAdmin adminId db v := by
  unfold Database.otherActive at h
  obtain ⟨v, -, hv⟩ := List.countP_pos_iff.mp (Nat.pos_of_ne_zero h)
  rw [Bool.and_eq_true, decide_eq_true_eq] at hv
  exact ⟨v, hv.1.2, hv.1.1, hv.2⟩

/-- A guarded write leaves an active Admin: the one there was, or another. -/
theorem AdminRemains.write {env : Env} {adminId : Nat} {db d' : Database} {w : Write}
    {x : Option Nat} (h : AdminRemains adminId db)
    (hspares : Spares adminId w) (hguard : Guarded db w)
    (hw : w.run env db = some (d', x)) : AdminRemains adminId d' := by
  refine ⟨fresh_of_write h.fresh hw, h.role.write hspares hw, ?_⟩
  have hkeep : ∀ u, ActiveAdmin adminId db u → w.disables db ≠ some u →
      ActiveAdmin adminId d' u := fun u hu hne =>
    ⟨held_after h.role hspares hw hne hu.1, canSignIn_after h.fresh hw hne hu.2⟩
  obtain ⟨u, hu⟩ := h.active
  by_cases hdis : w.disables db = some u
  · have hother := hguard u hdis adminId h.role.adminRoleId hu.1
    obtain ⟨v, hvu, hv⟩ := exists_otherActive hother
    refine ⟨v, hkeep v hv fun heq => hvu ?_⟩
    rw [hdis] at heq
    exact (Option.some.inj heq).symm
  · exact ⟨u, hkeep u hu hdis⟩

/-- **An active Admin always remains**, along steps in which every write that could
disable one still passes the guard when it is made. -/
theorem admin_remains {env : Env} {adminId : Nat} {st₀ st : State} {as : List Action}
    (hstart : AdminRemains adminId st₀.store) (hcalls : st₀.calls = [])
    (h : Run (step env) (AtWrites Guarded) st₀ as st) :
    ∃ u, ActiveAdmin adminId st.store u := by
  have hbody : ∀ c, ((service env).body c).All (AdminRemains adminId)
      (Issued env (AdminRemains adminId) c) := body_issued
  have hwrite : ∀ db c w d' x, AdminRemains adminId db →
      Issued env (AdminRemains adminId) c w → Guarded db w →
      (service env).write db w = some (d', x) → AdminRemains adminId d' :=
    fun _ _ _ _ _ hs hP hok hw => hs.write (spares_of_issued (fun _ hr => hr.role) hP) hok hw
  have hrun : Run (Calls.step (service env)) (AtWrites Guarded) st₀ as st := h
  exact (Keeps.run Guarded hbody hwrite (.of_nil hstart hcalls) hrun).store.active

/-! ### One Admin, and two -/

/-- Users `0` to `n - 1` hold the Admin role. -/
def admins (n : Nat) : State where
  store :=
    { users := fun u => if u < n then
        some ⟨["ana", "bob"].getD u "", "right", .ACTIVE, false, 0, none, some 0⟩ else none
      nextUserId := n
      roles := fun r => if r = 0 then
        some ⟨ADMIN_ROLE_NAME, "Admin", some "BI00_EXECUTIVE", true⟩ else none
      nextRoleId := 1
      userRoles := fun u => if u < n then [0] else []
      userRole := fun u => if u < n then ["BI00_EXECUTIVE"] else []
      roleTiers := ["BI00_EXECUTIVE"] }
  calls := []

theorem admins_remain {n : Nat} (hn : 0 < n) : AdminRemains 0 (admins n).store where
  fresh u hu := by
    have hu : n ≤ u := hu
    exact if_neg (by omega)
  role :=
    { below := Nat.one_pos
      builtIn := ⟨_, rfl, rfl, rfl⟩
      unique := by
        intro r role hr _
        change (if r = 0 then _ else none) = some role at hr
        split at hr
        · next h => exact h
        · cases hr }
  active := by
    refine ⟨0, ?_, ?_⟩
    · show 0 ∈ (if 0 < n then [0] else [])
      rw [if_pos hn]
      exact List.mem_singleton.mpr rfl
    · simp [Database.canSignIn, admins, hn, UserStatus.canSignIn]

/-- One of two Admins is deactivated; the other is left. -/
theorem admin_remains_two : ∃ st,
    FreeRun (step plainEnv) (admins 2) (.call (.setUserStatus 0 .INACTIVE) ::
      List.replicate 5 (.advance 0)) st ∧
    st.store.canSignIn 0 = false ∧ ∃ u, ActiveAdmin 0 st.store u := by
  have hrun : (exec (step plainEnv) (AtWrites Guarded) (admins 2)
      (.call (.setUserStatus 0 .INACTIVE) :: List.replicate 5 (.advance 0))).map
      (fun st => decide (st.store.canSignIn 0 = false)) = some true := by decide +kernel
  obtain ⟨st, hst, hclosed⟩ := Option.map_eq_some_iff.mp hrun
  have hrun := (exec_eq_some _ _ _ _ _).mp hst
  exact ⟨st, hrun.free, of_decide_eq_true hclosed,
    admin_remains (admins_remain Nat.two_pos) rfl hrun⟩

/-- Two wrong passwords lock the only Admin: the lock after failed attempts asks nobody. -/
theorem admin_locked_out : ∃ st, AdminRemains 0 (admins 1).store ∧ (admins 1).calls = [] ∧
    FreeRun (step plainEnv) (admins 1) [.call (.login "ana" "wrong"), .advance 0, .advance 0,
      .call (.login "ana" "guess"), .advance 1, .advance 1] st ∧
    ¬ ∃ u, ActiveAdmin 0 st.store u := by
  have hstart := admins_remain Nat.one_pos
  have hrun : (exec (step plainEnv) (fun _ _ => True) (admins 1)
      [.call (.login "ana" "wrong"), .advance 0, .advance 0,
        .call (.login "ana" "guess"), .advance 1, .advance 1]).map (fun st =>
      decide (st.store.nextUserId = 1) && decide (st.store.canSignIn 0 = false)) = some true := by
    decide +kernel
  obtain ⟨st, hst, hboth⟩ := Option.map_eq_some_iff.mp hrun
  rw [Bool.and_eq_true, decide_eq_true_eq, decide_eq_true_eq] at hboth
  have hrun := (exec_eq_some _ _ _ _ _).mp hst
  refine ⟨st, hstart, rfl, hrun, ?_⟩
  rintro ⟨u, -, hu⟩
  by_cases hzero : u = 0
  · rw [hzero, hboth.2] at hu
    cases hu
  · have hnone := fresh_run hstart.fresh hrun u (by omega)
    unfold Database.canSignIn at hu
    rw [hnone] at hu
    cases hu

end SalesDashboard.Accounts
