import SalesDashboard.Accounts.Accepted

/-! Which password an accepted token stands for: the one its account has, unless a sign-in
was under way when the password was set. -/

namespace SalesDashboard.Sessions
open Accounts Function Transition

/-! ## Passwords -/

/-- The hash that a write leaves an account with. -/
def passwordAfter (x : Write) (u : Nat) (hash : String) : String :=
  match setsPassword x with
  | some (v, new) => if v = u then new else hash
  | none => hash

/-- A write leaves every user there, with the password of `passwordAfter`. -/
theorem password_of_write {env : Env} {db d' : Database} {w : Write} {x : Option Nat} {u : Nat}
    {user : AppUser} (hfresh : db.Fresh) (h : w.run env db = some (d', x)) (hu : db.users u = some user) :
    ∃ user', d'.users u = some user' ∧ user'.passwordHash = passwordAfter w u user.passwordHash := by
  cases w with
  | failedLogin v count status | loginOk v | setStatus v status =>
    cases h
    rw [updateUser_users, hu]
    by_cases hv : v = u
    · exact ⟨_, if_pos hv, rfl⟩
    · exact ⟨user, if_neg hv, rfl⟩
  | adminReset v hash | changePassword v hash | resetPassword v hash =>
    cases h
    rw [updateUser_users, hu]
    by_cases hv : v = u
    · exact ⟨_, if_pos hv, (if_pos hv).symm⟩
    · exact ⟨user, if_neg hv, (if_neg hv).symm⟩
  | insertUser email hash status roleId role =>
    simp only [Write.run, Database.insertUser] at h
    split at h
    · cases h
    · cases h
      exact ⟨user, (update_of_ne (hfresh.ne (hu ▸ Option.some_ne_none user)) _ _).trans hu, rfl⟩
  | insertUserRole v r =>
    cases h
    exact ⟨user, by rw [insertUserRole_users, hu], rfl⟩
  | deleteTier v =>
    cases h
    exact ⟨user, hu, rfl⟩
  | insertTier v tier =>
    obtain ⟨d, hd, heq⟩ := Option.map_eq_some_iff.mp h
    cases heq
    unfold Database.insertTier at hd
    split at hd
    · cases hd
    · cases hd
      exact ⟨user, hu, rfl⟩
  | assignRoles a =>
    obtain ⟨d, hd, heq⟩ := Option.map_eq_some_iff.mp h
    cases heq
    rw [(assignRoles_spec hd).users]
    by_cases hv : u = a.userId
    · subst hv
      exact ⟨{ user with roleId := some a.primary }, by simp [hu], rfl⟩
    · exact ⟨user, by rw [update_of_ne hv, hu], rfl⟩
  | createRole label tierCode =>
    simp only [Write.run, Database.createRole] at h
    split at h
    · cases h
    split at h
    · cases h
    split at h
    · cases h
    · cases h
      exact ⟨user, hu, rfl⟩
  | changeRole c =>
    obtain ⟨d, hd, heq⟩ := Option.map_eq_some_iff.mp h
    cases heq
    exact ⟨user, (changeRole_spec hd).users ▸ hu, rfl⟩
  | deleteRole c =>
    obtain ⟨d, hd, heq⟩ := Option.map_eq_some_iff.mp h
    cases heq
    have hspec := deleteRole_spec hd
    by_cases hp : u ∈ db.primaries c.roleId
    · obtain ⟨q, tier, -, -, -, husers⟩ := hspec.primaries u hp
      rw [hu] at husers
      exact ⟨_, husers, rfl⟩
    · exact ⟨user, (hspec.others u hp).1.trans hu, rfl⟩

/-- The account has this password. -/
def Holds (w : World) (u : Nat) (hash : String) : Prop :=
  ∃ user, w.accounts.store.users u = some user ∧ user.passwordHash = hash

theorem Holds.after {env : Env} {w : World} {d' : Database} {x : Write} {y : Option Nat} {u : Nat}
    {hash : String} (hfresh : w.accounts.store.Fresh) (h : Holds w u hash)
    (hrun : x.run env w.accounts.store = some (d', y)) :
    ∃ user, d'.users u = some user ∧ user.passwordHash = passwordAfter x u hash := by
  obtain ⟨user, hu, rfl⟩ := h
  exact password_of_write hfresh hrun hu

theorem passwordAfter_other {x : Write} {u : Nat} {hash : String}
    (h : ∀ v new, setsPassword x = some (v, new) → v ≠ u) : passwordAfter x u hash = hash := by
  unfold passwordAfter
  split
  · next v new hx => exact if_neg (h v new hx)
  · rfl

/-! ## Calls -/

/-- The write that a call comes to next. -/
def writing (r : Running) : Option Write :=
  match r.rest with
  | .write x _ => some x
  | _ => none

/-- A call that signs a token in the end. -/
def Call.SignsIn : Call → Prop
  | .login _ _ | .changePassword _ _ _ _ => True
  | _ => False

/-- How far such a call is: it has to read the account, it has one write left, or it is done. -/
inductive Phase (env : Env) (c : Call) : Rest → Prop
  | reads : Phase env c (body env c)
  | writes (x : Write) (next : Option Nat → Rest) (hdone : ∀ y, ∃ result, next y = .done result) :
      Phase env c (.write x next)
  | done (result : Outcome) : Phase env c (.done result)

theorem userByEmail_users {db : Database} {email : String} {u : Nat} {user : AppUser}
    (h : db.userByEmail email = some (u, user)) : db.users u = some user := by
  obtain ⟨v, -, hv⟩ := List.exists_of_findSome?_eq_some h
  split at hv
  · next found hfound =>
    split at hv
    · cases hv
      exact hfound
    · cases hv
  · cases hv

/-- What a write of such a call says of the account it read. -/
def ReadOf (db : Database) (c : Call) : Write → Prop
  | .loginOk u => ∃ email password user, c = .login email password ∧ db.userByEmail email = some (u, user)
  | .changePassword u _ => db.users u ≠ none
  | _ => True

theorem finish_done (y : Option Nat) : ∃ result, finish y = .done result := ⟨.ok, rfl⟩

/-- After its read such a call is done, or has one write left. -/
theorem phase_read {env : Env} {c : Call} (hc : Call.SignsIn c) {next : Database → Rest}
    (h : Phase env c (.read next)) (db : Database) :
    Phase env c (next db) ∧ ∀ x nx, next db = .write x nx → ReadOf db c x := by
  cases c with
  | login email password =>
    obtain rfl : next = _ := by
      cases h
      rfl
    dsimp only
    split
    · exact ⟨.done _, fun x nx heq => by cases heq⟩
    · next u user hfound =>
      split
      · refine ⟨.writes _ _ fun _ => ⟨_, rfl⟩, fun x nx heq => ?_⟩
        cases heq
        trivial
      · split
        · exact ⟨.done _, fun x nx heq => by cases heq⟩
        · refine ⟨.writes _ _ finish_done, fun x nx heq => ?_⟩
          cases heq
          exact ⟨email, password, user, rfl, hfound⟩
  | changePassword u current new hash =>
    obtain rfl : next = _ := by
      cases h
      rfl
    dsimp only
    split
    · exact ⟨.done _, fun x nx heq => by cases heq⟩
    · next user hfound =>
      split
      · exact ⟨.done _, fun x nx heq => by cases heq⟩
      · split
        · exact ⟨.done _, fun x nx heq => by cases heq⟩
        · refine ⟨.writes _ _ finish_done, fun x nx heq => ?_⟩
          cases heq
          show db.users u ≠ none
          rw [hfound]
          exact Option.some_ne_none user
  | setUserStatus | adminResetPassword | resetPassword | createUser | setUserRoles | createRole | updateRole
  | deleteRole => exact absurd hc id

theorem phase_write {env : Env} {c : Call} (hc : Call.SignsIn c) {x : Write} {next : Option Nat → Rest}
    (h : Phase env c (.write x next)) (y : Option Nat) : ∃ result, next y = .done result := by
  cases c with
  | login email password =>
    cases h with
    | writes x next hdone => exact hdone y
  | changePassword u current new hash =>
    cases h with
    | writes x next hdone => exact hdone y
  | setUserStatus | adminResetPassword | resetPassword | createUser | setUserRoles | createRole | updateRole
  | deleteRole => exact absurd hc id

/-- The writes after which a token is signed are made by such calls only. -/
theorem signsIn_of_issued {env : Env} {J : Database → Prop} {c : Call} {x : Write} (h : Issued env J c x)
    (hx : (∃ u, x = .loginOk u) ∨ ∃ u hash, x = .changePassword u hash) : Call.SignsIn c := by
  cases c with
  | login | changePassword => trivial
  | setUserStatus | adminResetPassword | createRole =>
    obtain rfl := h
    rcases hx with ⟨u, hx⟩ | ⟨u, hash, hx⟩ <;> cases hx
  | resetPassword | setUserRoles | updateRole =>
    rcases hx with ⟨u, rfl⟩ | ⟨u, hash, rfl⟩ <;> simp [Issued] at h
  | createUser input => rcases hx with ⟨u, rfl⟩ | ⟨u, hash, rfl⟩ <;> simp [Issued] at h
  | deleteRole => rcases hx with ⟨u, rfl⟩ | ⟨u, hash, rfl⟩ <;> simp [Issued] at h

/-! ## The invariant -/

/-- What a call that is about to write says of the accounts. -/
def Ready (w : World) (i : Nat) : Write → Prop
  | .loginOk u => Holds w u (w.checked i)
  | .changePassword u _ => w.accounts.store.users u ≠ none
  | _ => True

/-- Every token under way or signed stands for its account's password; a signed one may
stand for an earlier password, set in no earlier second than the token's. -/
structure Current (env : Env) (w : World) : Prop where
  timely : Timely w
  fresh : w.accounts.store.Fresh
  keeps : Calls.Keeps (fun _ => True) (Issued env fun _ => True) w.accounts
  phases : ∀ r ∈ w.accounts.calls, Call.SignsIn r.call → Phase env r.call r.rest
  ready : ∀ i r x, w.accounts.calls[i]? = some r → writing r = some x → Ready w i x
  signing : ∀ x ∈ w.signing, Holds w x.userId x.passwordHash
  issued : ∀ x ∈ w.issued, Holds w x.token.userId x.passwordHash ∨
    ∃ s, (w.stamps x.token.userId).passwordChangedAt = some s ∧ x.token.iat ≤ s

theorem Init.current {env : Env} {w : World} (h : Init w) : Current env w where
  timely := h.timely
  fresh := h.accounts.fresh
  keeps := .of_nil trivial h.accounts.calls
  phases r hr := by
    rw [h.accounts.calls] at hr
    cases hr
  ready i r x hi := by
    rw [h.accounts.calls] at hi
    cases hi
  signing x hx := by
    rw [h.signing] at hx
    cases hx
  issued x hx := by
    rw [h.issued] at hx
    cases hx

/-- The password that an event sets. -/
def passwordSet (w : World) : Event → Option (Nat × String)
  | .account a => (Calls.writeAt w.accounts a).bind setsPassword
  | _ => none

/-- No password is set while a sign-in of its account is between its check and its token. -/
def Undisturbed (w : World) (e : Event) : Prop :=
  ∀ p ∈ passwordSet w e, (∀ x ∈ w.signing, x.userId ≠ p.1) ∧
    ∀ r ∈ w.accounts.calls, writing r ≠ some (.loginOk p.1)

instance (w : World) (e : Event) : Decidable (Undisturbed w e) :=
  inferInstanceAs (Decidable (∀ p ∈ passwordSet w e, (∀ x ∈ w.signing, x.userId ≠ p.1) ∧
    ∀ r ∈ w.accounts.calls, writing r ≠ some (.loginOk p.1)))

section
variable {env : Env} {w w' : World} {a : Action}

theorem checkedAfter_ne {i j : Nat} (h : j ≠ i) : checkedAfter w (.advance i) j = w.checked j := by
  have heq : checkedAfter w (.advance i) = w.checked ∨
      ∃ hash, checkedAfter w (.advance i) = update w.checked i hash := by
    simp only [checkedAfter]
    split
    · split
      · exact .inr ⟨_, rfl⟩
      · exact .inl rfl
    · exact .inl rfl
  rcases heq with heq | ⟨hash, heq⟩
  · rw [heq]
  · rw [heq, update_of_ne h]

theorem checkedAfter_login {i : Nat} {email password : String} {as : List (Option Nat)}
    {next : Database → Rest} {u : Nat} {user : AppUser}
    (hi : w.accounts.calls[i]? = some ⟨.login email password, as, .read next⟩)
    (hfound : w.accounts.store.userByEmail email = some (u, user)) :
    checkedAfter w (.advance i) i = user.passwordHash := by
  simp only [checkedAfter, hi, hfound, update_self]

theorem writing_eq {c : Call} {as : List (Option Nat)} {rest : Rest} {x : Write}
    (h : writing ⟨c, as, rest⟩ = some x) : ∃ next, rest = .write x next := by
  cases rest with
  | write y next =>
    cases h
    exact ⟨next, rfl⟩
  | read next => cases h
  | done result => cases h

theorem ready_other {c : Call} {x : Write} {i : Nat} (hissued : Issued env (fun _ => True) c x)
    (hnot : ¬ Call.SignsIn c) : Ready w i x := by
  cases x with
  | loginOk u => exact absurd (signsIn_of_issued hissued (.inl ⟨u, rfl⟩)) hnot
  | changePassword u hash => exact absurd (signsIn_of_issued hissued (.inr ⟨u, hash, rfl⟩)) hnot
  | failedLogin | setStatus | adminReset | resetPassword | insertUser | insertUserRole | deleteTier | insertTier
  | assignRoles | createRole | changeRole | deleteRole => trivial

theorem ready_body {c : Call} {x : Write} {i : Nat} (h : writing ⟨c, [], body env c⟩ = some x) : Ready w i x := by
  obtain ⟨next, hnext⟩ := writing_eq h
  have hall : (body env c).All (fun _ => True) (Issued env (fun _ => True) c) := body_issued c
  rw [hnext] at hall
  by_cases hc : Call.SignsIn c
  · cases c with
    | login | changePassword => cases hnext
    | setUserStatus | adminResetPassword | resetPassword | createUser | setUserRoles | createRole
    | updateRole | deleteRole => exact absurd hc id
  · exact ready_other hall.1 hc

/-- After a read, a call that is about to write says the truth. -/
theorem ready_read {i : Nat} {c : Call} {as : List (Option Nat)} {next : Database → Rest} {x : Write}
    {nx : Option Nat → Rest} (hi : w.accounts.calls[i]? = some ⟨c, as, .read next⟩)
    (hall : (next w.accounts.store).All (fun _ => True) (Issued env (fun _ => True) c))
    (hphase : Call.SignsIn c → Phase env c (.read next)) (hnext : next w.accounts.store = .write x nx)
    (hchecked : ∀ u, x = .loginOk u → w'.checked i = checkedAfter w (.advance i) i)
    (hstore : w'.accounts.store = w.accounts.store) : Ready w' i x := by
  rw [hnext] at hall
  by_cases hc : Call.SignsIn c
  · have hread := (phase_read hc (hphase hc) w.accounts.store).2 x nx hnext
    cases x with
    | loginOk u =>
      obtain ⟨email, password, user, rfl, hfound⟩ := hread
      refine ⟨user, ?_, ?_⟩
      · rw [hstore]
        exact userByEmail_users hfound
      · rw [hchecked u rfl, checkedAfter_login hi hfound]
    | changePassword u hash =>
      show w'.accounts.store.users u ≠ none
      rw [hstore]
      exact hread
    | failedLogin | setStatus | adminReset | resetPassword | insertUser | insertUserRole | deleteTier
    | insertTier | assignRoles | createRole | changeRole | deleteRole => trivial
  · exact ready_other hall.1 hc

theorem Ready.same {x : Write} {i : Nat} (h : Ready w i x) (hstore : w'.accounts.store = w.accounts.store)
    (hchecked : w'.checked i = w.checked i) : Ready w' i x := by
  cases x with
  | loginOk u =>
    obtain ⟨user, hu, hhash⟩ := h
    exact ⟨user, by rw [hstore, hu], by rw [hhash, hchecked]⟩
  | changePassword u hash =>
    show w'.accounts.store.users u ≠ none
    rw [hstore]
    exact h
  | failedLogin | setStatus | adminReset | resetPassword | insertUser | insertUserRole | deleteTier
  | insertTier | assignRoles | createRole | changeRole | deleteRole => trivial

/-- A write that sets no password of theirs leaves the other calls what they say. -/
theorem Ready.after {x y : Write} {i : Nat} {d : Option Nat} (hfresh : w.accounts.store.Fresh)
    (h : Ready w i x) (hrun : y.run env w.accounts.store = some (w'.accounts.store, d))
    (hchecked : w'.checked i = w.checked i)
    (hset : ∀ u, x = .loginOk u → ∀ v new, setsPassword y = some (v, new) → v ≠ u) : Ready w' i x := by
  cases x with
  | loginOk u =>
    obtain ⟨user, hu, hhash⟩ := Holds.after hfresh h hrun
    rw [passwordAfter_other (hset u rfl)] at hhash
    exact ⟨user, hu, by rw [hhash, hchecked]⟩
  | changePassword u hash =>
    obtain ⟨user, hu⟩ := Option.ne_none_iff_exists'.mp h
    obtain ⟨user', hu', -⟩ := password_of_write hfresh hrun hu
    show w'.accounts.store.users u ≠ none
    rw [hu']
    exact Option.some_ne_none _
  | failedLogin | setStatus | adminReset | resetPassword | insertUser | insertUserRole | deleteTier
  | insertTier | assignRoles | createRole | changeRole | deleteRole => trivial

/-- What a store step leaves of the calls' words. -/
theorem Current.phases_step {accounts : Accounts.State} (hi : Current env w)
    (hstep : Accounts.step env w.accounts a = some accounts) :
    ∀ r ∈ accounts.calls, Call.SignsIn r.call → Phase env r.call r.rest := by
  have hset : ∀ (i : Nat) (r : Running), (Call.SignsIn r.call → Phase env r.call r.rest) →
      ∀ q ∈ w.accounts.calls.set i r, Call.SignsIn q.call → Phase env q.call q.rest := by
    intro i r hr q hq
    rcases List.mem_or_eq_of_mem_set hq with hq | rfl
    · exact hi.phases q hq
    · exact hr
  cases Calls.step_cases hstep with
  | call c ha heq =>
    subst heq
    intro r hr
    rcases List.mem_append.mp hr with hr | hr
    · exact hi.phases r hr
    · rw [List.mem_singleton.mp hr]
      exact fun _ => .reads
  | read i c as next ha hget heq =>
    subst heq
    have hr := List.mem_of_getElem? hget
    exact hset i _ fun hc => (phase_read hc (hi.phases _ hr hc) w.accounts.store).1
  | fail i c as x next ha hget hw heq =>
    subst heq
    exact hset i _ fun _ => .done _
  | write i c as x next s' d ha hget hw heq =>
    subst heq
    have hr := List.mem_of_getElem? hget
    refine hset i _ fun hc => ?_
    obtain ⟨result, hresult⟩ := phase_write hc (hi.phases _ hr hc) d
    exact hresult ▸ .done result

/-- The statements that end or open a session do not fail. -/
theorem quiet_of_failed {db : Database} {x : Write} (h : x.run env db = none) :
    setsPassword x = none ∧ ∀ u, x ≠ .loginOk u := by
  cases x with
  | failedLogin | loginOk | setStatus | adminReset | changePassword | resetPassword | insertUserRole
  | deleteTier => cases h
  | insertUser | insertTier | assignRoles | createRole | changeRole | deleteRole =>
    exact ⟨rfl, fun u heq => by cases heq⟩

theorem signingAfter_other {i : Nat} {x : Write} (hwrite : Calls.writeAt w.accounts (.advance i) = some x)
    (hset : setsPassword x = none) (hlogin : ∀ u, x ≠ .loginOk u) : signingAfter w (.advance i) = w.signing := by
  simp only [signingAfter, hwrite]
  cases x with
  | loginOk u => exact absurd rfl (hlogin u)
  | adminReset | changePassword | resetPassword => cases hset
  | failedLogin | setStatus | insertUser | insertUserRole | deleteTier | insertTier | assignRoles | createRole
  | changeRole | deleteRole => rfl

theorem mem_signingAfter {i : Nat} {x : Write} {y : Signing} (hwrite : Calls.writeAt w.accounts (.advance i) = some x)
    (hy : y ∈ signingAfter w (.advance i)) : y ∈ w.signing ∨ (∃ u, x = .loginOk u ∧ y = ⟨i, u, w.checked i⟩) ∨
      ∃ u hash, x = .changePassword u hash ∧ y = ⟨i, u, hash⟩ := by
  simp only [signingAfter, hwrite] at hy
  cases x with
  | loginOk u =>
    rcases List.mem_append.mp hy with hy | hy
    · exact .inl hy
    · exact .inr (.inl ⟨u, rfl, List.mem_singleton.mp hy⟩)
  | changePassword u hash =>
    rcases List.mem_append.mp hy with hy | hy
    · exact .inl hy
    · exact .inr (.inr ⟨u, hash, rfl, List.mem_singleton.mp hy⟩)
  | failedLogin | setStatus | adminReset | resetPassword | insertUser | insertUserRole | deleteTier | insertTier
  | assignRoles | createRole | changeRole | deleteRole => exact .inl hy

theorem stampsAfter_own {x : Write} {u : Nat} {new : String} (h : setsPassword x = some (u, new)) (second : Nat)
    (s : Stamps) : (stampsAfter x second u s).passwordChangedAt = some second := by
  cases x with
  | adminReset v hash | changePassword v hash | resetPassword v hash =>
    cases h
    simp [stampsAfter]
  | failedLogin | loginOk | setStatus | insertUser | insertUserRole | deleteTier | insertTier | assignRoles
  | createRole | changeRole | deleteRole => cases h

theorem stampsAfter_kept (x : Write) {u iat second : Nat} {s : Stamps}
    (h : ∃ y, s.passwordChangedAt = some y ∧ iat ≤ y) (hiat : iat ≤ second) :
    ∃ y, (stampsAfter x second u s).passwordChangedAt = some y ∧ iat ≤ y := by
  by_cases hown : ∃ new, setsPassword x = some (u, new)
  · obtain ⟨new, hown⟩ := hown
    exact ⟨second, stampsAfter_own hown _ _, hiat⟩
  · rw [not_setsPassword]
    · exact h
    · rintro v new hx rfl
      exact hown ⟨new, hx⟩

theorem Current.account {accounts : Accounts.State} (hi : Current env w) (hok : Undisturbed w (.account a))
    (hstep : Accounts.step env w.accounts a = some accounts) (hst : happen env w (.account a) = some w')
    (hw' : w' = { w with
      accounts := accounts
      stamps := fun u => match Calls.writeAt w.accounts a with
        | some x => stampsAfter x w.second u (w.stamps u)
        | none => w.stamps u
      checked := checkedAfter w a
      signing := signingAfter w a }) : Current env w' := by
  have hkeeps : Calls.Keeps (fun _ => True) (Issued env fun _ => True) accounts :=
    hi.keeps.step (fun _ _ => True) (fun c => body_issued c) (fun _ _ _ _ _ _ _ _ _ => trivial)
      (fun _ _ => trivial) hstep
  have hfresh : accounts.store.Fresh := by
    rcases Calls.store_of_step hstep with heq | ⟨x, y, -, hrun⟩
    · exact heq ▸ hi.fresh
    · exact fresh_of_write hi.fresh hrun
  have htimely := hi.timely.step hst
  have hphases := hi.phases_step hstep
  cases Calls.step_cases hstep with
  | call c ha heq =>
    subst ha heq hw'
    refine ⟨htimely, hfresh, hkeeps, hphases, fun i r x hget hx => ?_, hi.signing, hi.issued⟩
    rcases Calls.get_concat hget with hget | ⟨-, rfl⟩
    · exact hi.ready i r x hget hx
    · exact ready_body hx
  | read i c as next ha hget heq =>
    subst ha heq hw'
    have hwrite : Calls.writeAt w.accounts (.advance i) = none := by simp only [Calls.writeAt, hget]
    have hsigning : signingAfter w (.advance i) = w.signing := by simp only [signingAfter, hwrite]
    refine ⟨htimely, hfresh, hkeeps, hphases, fun j r x hj hx => ?_, ?_, ?_⟩
    · rcases Calls.get_set hj with ⟨rfl, rfl⟩ | ⟨hne, hj⟩
      · have hr := List.mem_of_getElem? hget
        obtain ⟨nx, hnext⟩ := writing_eq hx
        exact ready_read hget (hi.keeps.calls _ hr _ trivial) (hi.phases _ hr) hnext (fun _ _ => rfl) rfl
      · exact (hi.ready j r x hj hx).same rfl (checkedAfter_ne hne)
    · intro x hx
      rw [hsigning] at hx
      exact hi.signing x hx
    · intro x hx
      rw [hwrite]
      exact hi.issued x hx
  | fail i c as x next ha hget hw heq =>
    subst ha heq hw'
    obtain ⟨hset, hlogin⟩ := quiet_of_failed hw
    have hwrite := Calls.writeAt_of_get hget
    have hsigning : signingAfter w (.advance i) = w.signing := signingAfter_other hwrite hset hlogin
    refine ⟨htimely, hfresh, hkeeps, hphases, fun j r y hj hy => ?_, ?_, ?_⟩
    · rcases Calls.get_set hj with ⟨rfl, rfl⟩ | ⟨hne, hj⟩
      · cases hy
      · exact (hi.ready j r y hj hy).same rfl (checkedAfter_ne hne)
    · intro y hy
      rw [hsigning] at hy
      exact hi.signing y hy
    · intro y hy
      rw [hwrite]
      dsimp only
      rw [not_setsPassword fun v new hx => absurd (hset.symm.trans hx) (Option.some_ne_none _).symm]
      exact hi.issued y hy
  | write i c as x next s' d ha hget hw heq =>
    subst ha heq hw'
    have hrun : Write.run env w.accounts.store x = some (s', d) := hw
    have hwrite := Calls.writeAt_of_get hget
    have hr := List.mem_of_getElem? hget
    have hset : ∀ v new, setsPassword x = some (v, new) → (∀ y ∈ w.signing, y.userId ≠ v) ∧
        ∀ r ∈ w.accounts.calls, writing r ≠ some (.loginOk v) := by
      intro v new hx
      refine hok (v, new) ?_
      show (Calls.writeAt w.accounts (.advance i)).bind setsPassword = some (v, new)
      rw [hwrite]
      exact hx
    refine ⟨htimely, hfresh, hkeeps, hphases, fun j r y hj hy => ?_, fun y hy => ?_, fun y hy => ?_⟩
    · rcases Calls.get_set hj with ⟨rfl, rfl⟩ | ⟨hne, hj⟩
      · obtain ⟨nx, hnext⟩ := writing_eq hy
        by_cases hc : Call.SignsIn c
        · obtain ⟨result, hresult⟩ := phase_write hc (hi.phases _ hr hc) d
          rw [hresult] at hnext
          cases hnext
        · have hall := (hi.keeps.calls _ hr).2 d
          rw [hnext] at hall
          exact ready_other hall.1 hc
      · refine (hi.ready j r y hj hy).after hi.fresh hrun (checkedAfter_ne hne) ?_
        rintro u rfl v new hx rfl
        exact (hset v new hx).2 r (List.mem_of_getElem? hj) hy
    · rcases mem_signingAfter hwrite hy with hy | ⟨u, rfl, rfl⟩ | ⟨u, hash, rfl, rfl⟩
      · obtain ⟨user, hu, hhash⟩ := (hi.signing y hy).after hi.fresh hrun
        rw [passwordAfter_other fun v new hx heq => (hset v new hx).1 y hy heq.symm] at hhash
        exact ⟨user, hu, hhash⟩
      · exact Holds.after hi.fresh (hi.ready i _ _ hget rfl) hrun
      · obtain ⟨user, hu⟩ := Option.ne_none_iff_exists'.mp (hi.ready i _ _ hget rfl)
        obtain ⟨user', hu', hhash⟩ := password_of_write hi.fresh hrun hu
        exact ⟨user', hu', hhash.trans (if_pos rfl)⟩
    · rw [hwrite]
      dsimp only
      have hiat := hi.timely.issued y hy
      rcases hi.issued y hy with hholds | hstamp
      · by_cases hown : ∃ new, setsPassword x = some (y.token.userId, new)
        · obtain ⟨new, hown⟩ := hown
          exact .inr ⟨w.second, stampsAfter_own hown _ _, hiat⟩
        · obtain ⟨user, hu, hhash⟩ := hholds.after hi.fresh hrun
          rw [passwordAfter_other (u := y.token.userId) fun v new hx heq => hown ⟨new, hx.trans (by rw [heq])⟩] at hhash
          exact .inl ⟨user, hu, hhash⟩
      · exact .inr (stampsAfter_kept x hstamp hiat)

theorem Current.step {e : Event} (hi : Current env w) (hok : Undisturbed w e) (h : happen env w e = some w') :
    Current env w' := by
  have htimely := hi.timely.step h
  cases event_cases h with
  | account a accounts hstep heq => exact hi.account hok hstep h heq
  | sleep ms heq =>
    subst heq
    exact ⟨htimely, hi.fresh, hi.keeps, hi.phases, hi.ready, hi.signing, hi.issued⟩
  | sign x i jti hx hjti heq =>
    subst heq
    refine ⟨htimely, hi.fresh, hi.keeps, hi.phases, hi.ready, fun y hy => ?_, fun y hy => ?_⟩
    · exact hi.signing y (List.mem_filter.mp hy).1
    · rcases List.mem_append.mp hy with hy | hy
      · exact hi.issued y hy
      · rw [List.mem_singleton.mp hy]
        exact .inl (hi.signing x hx)
  | logout jti hjti heq =>
    subst heq
    exact ⟨htimely, hi.fresh, hi.keeps, hi.phases, hi.ready, hi.signing, hi.issued⟩
  | revokeNobody u hu heq => exact heq ▸ hi
  | revokeSessions u hu heq =>
    subst heq
    refine ⟨htimely, hi.fresh, hi.keeps, hi.phases, hi.ready, hi.signing, fun y hy => ?_⟩
    refine (hi.issued y hy).imp_right ?_
    rintro ⟨s, hs, hle⟩
    refine ⟨s, ?_, hle⟩
    dsimp only
    by_cases hv : y.token.userId = u
    · rw [hv, update_self, ← hv]
      exact hs
    · rw [update_of_ne hv]
      exact hs

end

/-- **No session on an old password**: along events in which no password is set while a
sign-in of its account is under way, a token that opens a request stands for the
account's password, or the password was set in the second of the token. -/
theorem accepted_current {env : Env} {w₀ w w' : World} {es es' : List Event} {x : Signed} (h₀ : Init w₀)
    (hbefore : Run (happen env) Undisturbed w₀ es w) (hrequest : Run (happen env) Undisturbed w es' w')
    (hx : x ∈ w.issued) (haccepted : Accepted w w' x.token) :
    Holds w' x.token.userId x.passwordHash ∨
      (w'.stamps x.token.userId).passwordChangedAt = some x.token.iat := by
  have hi : Current env w' := (hbefore.append hrequest).invariant (fun _ _ _ hi hok hst => hi.step hok hst)
    h₀.current
  obtain ⟨-, -, -, -, hpassword⟩ := accepted_iff.mp haccepted
  refine (hi.issued x ((signed_run hrequest.free).2 x hx)).imp_right ?_
  rintro ⟨s, hs, hle⟩
  rw [hs, ← Bool.not_eq_true, issuedBefore_some, Nat.not_lt] at hpassword
  rw [hs, le_antisymm hpassword hle]

/-! ### A sign-in and a reset -/

/-- What decides whether a token opens a request that takes no time, with the password of
its account. -/
def passwordOf (w : World) (t : AccessToken) : Option String :=
  (w.accounts.store.users t.userId).bind fun user =>
    if verifyAccessToken w t && !isTokenRevoked w t.jti && user.status.canSignIn &&
      !issuedBefore t.iat (w.stamps t.userId).sessionsRevokedAt &&
      !issuedBefore t.iat (w.stamps t.userId).passwordChangedAt then some user.passwordHash else none

theorem passwordOf_some {w : World} {t : AccessToken} {hash : String} (h : passwordOf w t = some hash) :
    Accepted w w t ∧ Holds w t.userId hash := by
  obtain ⟨user, hu, hif⟩ := Option.bind_eq_some_iff.mp h
  split at hif
  · next hall =>
    simp only [Bool.and_eq_true, Bool.not_eq_true'] at hall
    obtain ⟨⟨⟨⟨hverify, hrevoked⟩, hstatus⟩, hsessions⟩, hpassword⟩ := hall
    exact ⟨accepted_iff.mpr ⟨hverify, hrevoked, ⟨user, hu, hstatus⟩, hsessions, hpassword⟩, user, hu,
      Option.some.inj hif⟩
  · cases hif

/-- A sign-in, a token, and a request in the next minute. -/
theorem accepted_current_minute : ∃ w, Run (happen plainEnv) Undisturbed noSessions
    (signIn ++ [.sign 0 7, .sleep 60000]) w ∧ Accepted w w firstToken ∧
      (Holds w 0 "right" ∨ (w.stamps 0).passwordChangedAt = some 0) := by
  have hrun : (exec (happen plainEnv) Undisturbed noSessions (signIn ++ [.sign 0 7, .sleep 60000])).map
      (fun w => decide (w.issued = [⟨firstToken, "right"⟩]) && decide (passwordOf w firstToken = some "right")) =
      some true := by decide +kernel
  obtain ⟨w, hw, hrun⟩ := Option.map_eq_some_iff.mp hrun
  rw [Bool.and_eq_true, decide_eq_true_eq, decide_eq_true_eq] at hrun
  have hbefore := (exec_eq_some _ _ _ _ _).mp hw
  have haccepted := (passwordOf_some hrun.2).1
  have hx : (⟨firstToken, "right"⟩ : Signed) ∈ w.issued := hrun.1 ▸ List.mem_singleton_self _
  exact ⟨w, hbefore, haccepted, accepted_current noSessions_init hbefore (.nil w) hx haccepted⟩

/-- A sign-in checks the password, an administrator resets it, and a second later the
sign-in signs its token: it opens requests, and its password is the old one. -/
theorem stale_sign_in : ∃ w, FreeRun (happen plainEnv) noSessions
    [.account (.call (.login "ana" "right")), .account (.advance 0),
      .account (.call (.adminResetPassword 0 "temporary1" "reset")), .account (.advance 1), .account (.advance 1),
      .sleep 1000, .account (.advance 0), .sign 0 7] w ∧
    ∃ t, ⟨t, "right"⟩ ∈ w.issued ∧ Accepted w w t ∧ Holds w t.userId "reset" := by
  have hrun : (run noSessions
      [.account (.call (.login "ana" "right")), .account (.advance 0),
        .account (.call (.adminResetPassword 0 "temporary1" "reset")), .account (.advance 1),
        .account (.advance 1), .sleep 1000, .account (.advance 0), .sign 0 7]).map
      (fun w => decide (w.issued = [⟨⟨0, 7, 1, 1 + ACCESS_TOKEN_TTL⟩, "right"⟩]) &&
        decide (passwordOf w ⟨0, 7, 1, 1 + ACCESS_TOKEN_TTL⟩ = some "reset")) = some true := by decide +kernel
  obtain ⟨w, hw, hrun⟩ := Option.map_eq_some_iff.mp hrun
  rw [Bool.and_eq_true, decide_eq_true_eq, decide_eq_true_eq] at hrun
  obtain ⟨haccepted, hholds⟩ := passwordOf_some hrun.2
  exact ⟨w, run_eq.mp hw, _, hrun.1 ▸ List.mem_singleton_self _, haccepted, hholds⟩

end SalesDashboard.Sessions
