import SalesDashboard.Accounts.Effects

/-! The lock state of one account: what concurrent attempts, administrators and resets
make of its status and its counter of failed attempts. -/

namespace SalesDashboard.Accounts
open Transition Calls

/-- No call is running yet. -/
structure Init (st : State) : Prop where
  fresh : st.store.Fresh
  calls : st.calls = []

/-! ## Writes to one account -/

/-- The account, counter and status of a failed attempt. -/
def Write.attempt : Write → Option (Nat × Nat × UserStatus)
  | .failedLogin u count status => some (u, count, status)
  | _ => none

/-- The account that `setUserStatus` opens. -/
def Write.opens : Write → Option Nat
  | .setStatus u status => if status.canSignIn then some u else none
  | _ => none

/-- The account whose counter goes to 0. -/
def Write.resets : Write → Option Nat
  | .setStatus u _ | .adminReset u _ | .resetPassword u _ | .loginOk u => some u
  | _ => none

/-- A failed attempt brings no locked or inactive account back, makes none inactive, and
counts on from at least the current counter. -/
def KeepsLock (u : Nat) (db : Database) (w : Write) : Prop :=
  ∀ x ∈ w.attempt, x.1 = u → ∀ user ∈ db.users u,
    (x.2.2.canSignIn = true → user.status.canSignIn = true) ∧
      (x.2.2 = .INACTIVE → user.status = .INACTIVE) ∧ user.failedLoginCount < x.2.1

instance (u : Nat) (db : Database) (w : Write) : Decidable (KeepsLock u db w) :=
  inferInstanceAs (Decidable (∀ x ∈ w.attempt, x.1 = u → ∀ user ∈ db.users u,
    (x.2.2.canSignIn = true → user.status.canSignIn = true) ∧
      (x.2.2 = .INACTIVE → user.status = .INACTIVE) ∧ user.failedLoginCount < x.2.1))

/-- A wrong attempt on the account completes. -/
def fails (u : Nat) (st : State) (a : Action) : Bool :=
  match (writeAt st a).bind Write.attempt with
  | some x => decide (x.1 = u)
  | none => false

/-- At the threshold a wrong attempt leaves the account closed. -/
def CountsUp (env : Env) (w : Write) : Prop :=
  ∀ x ∈ w.attempt, env.threshold ≤ x.2.1 → x.2.2.canSignIn = false

theorem countsUp_of_issued {env : Env} {J : Database → Prop} {c : Call} {w : Write}
    (h : Issued env J c w) : CountsUp env w := by
  cases w with
  | failedLogin v count status =>
    cases c with
    | login email password =>
      rcases h with ⟨u, user, heq⟩ | ⟨u, heq⟩
      · cases heq
        intro x hx hle
        cases hx
        simp only [hle, decide_true, Bool.true_and]
        cases hs : user.status <;> rfl
      · cases heq
    | setUserStatus | adminResetPassword | changePassword | createRole => cases h
    | resetPassword => obtain ⟨_, h⟩ := h; cases h
    | setUserRoles | updateRole => obtain ⟨_, h, -⟩ := h; cases h
    | createUser input => rcases h with ⟨_, _, h⟩ | ⟨_, ⟨_, h⟩ | h | ⟨_, h⟩⟩ <;> cases h
    | deleteRole => obtain ⟨⟨_, h, -⟩, -⟩ := h; cases h
  | _ => exact fun x hx => by cases hx

/-- The discipline of the attempts. -/
abbrev Counting (env : Env) (st : State) : Prop :=
  Keeps Database.Fresh (fun _ => CountsUp env) st

theorem counting_step {env : Env} {st st' : State} {a : Action} (hk : Counting env st)
    (h : step env st a = some st') : Counting env st' :=
  hk.step (fun _ _ => True) (fun c => (body_issued c).mono fun _ hw => countsUp_of_issued hw)
    (fun _ _ _ _ _ hs _ _ hw => fresh_of_write hs hw) (fun _ _ => trivial) h

theorem counting_run {env : Env} {st₀ s : State} {as : List Action} (h₀ : Init st₀)
    (h : FreeRun (step env) st₀ as s) : Counting env s :=
  h.invariant (fun _ _ _ hk _ hst => counting_step hk hst) (.of_nil h₀.fresh h₀.calls)

theorem attempt_of_failed {env : Env} {db : Database} {w : Write} (h : w.run env db = none) :
    w.attempt = none := by
  cases w with
  | failedLogin u count status => cases h
  | _ => rfl

/-- A step leaves an account as it is, with at most a write that fails, or it is a write
of the discipline. -/
theorem account_of_step {env : Env} {st st' : State} {a : Action} {u : Nat} {user : AppUser}
    (hk : Counting env st) (h : step env st a = some st')
    (hu : st.store.users u = some user) :
    st'.store.users u = some user ∧ (∀ w ∈ writeAt st a, w.run env st.store = none) ∨
      ∃ w user', writeAt st a = some w ∧ CountsUp env w ∧ st'.store.users u = some user' ∧
        (user'.status, user'.failedLoginCount) = accountAfter w u user := by
  cases step_cases h with
  | call c ha h =>
    subst h ha
    exact .inl ⟨hu, fun w hw => by cases hw⟩
  | read i c as next ha hi h =>
    subst h ha
    refine .inl ⟨hu, fun w hw => ?_⟩
    simp only [writeAt, hi] at hw
    cases hw
  | fail i c as w next ha hi hw h =>
    subst h ha
    refine .inl ⟨hu, fun w' hw' => ?_⟩
    rw [writeAt_of_get hi] at hw'
    cases hw'
    exact hw
  | write i c as w next s' x ha hi hw h =>
    subst h ha
    obtain ⟨user', hu', hacc⟩ := account_of_write hk.store hw hu
    exact .inr ⟨w, user', writeAt_of_get hi, (hk.calls _ (List.mem_of_getElem? hi)).1, hu', hacc⟩

/-! ## Closed accounts -/

theorem closed_ne {status : UserStatus} (h : status.canSignIn = false) :
    status ≠ .ACTIVE ∧ status ≠ .PENDING_PASSWORD_CHANGE := by
  constructor <;> rintro rfl <;> cases h

/-- A write that keeps the lock and opens nothing leaves a closed account closed. -/
theorem closed_after {u : Nat} {db : Database} {w : Write} {user : AppUser}
    (hu : db.users u = some user) (hkeep : KeepsLock u db w) (hopen : w.opens ≠ some u)
    (hclosed : user.status.canSignIn = false) : (accountAfter w u user).1.canSignIn = false := by
  cases w with
  | failedLogin v count status =>
    simp only [accountAfter]
    split
    · next hv =>
      have hback := (hkeep _ rfl hv user hu).1
      rw [hclosed] at hback
      exact Bool.eq_false_iff.mpr fun h => Bool.false_ne_true (hback h)
    · exact hclosed
  | setStatus v status =>
    simp only [accountAfter]
    split
    · next hv =>
      simp only [Write.opens] at hopen
      exact Bool.eq_false_iff.mpr fun h => hopen (by rw [if_pos h, hv])
    · exact hclosed
  | adminReset v hash | changePassword v hash | resetPassword v hash =>
    obtain ⟨hactive, hpending⟩ := closed_ne hclosed
    simp only [accountAfter, hactive, hpending, and_false, if_false]
    first
      | exact hclosed
      | split <;> exact hclosed
  | _ => exact hclosed

def Closed (u : Nat) (st : State) : Prop :=
  ∃ user, st.store.users u = some user ∧ user.status.canSignIn = false

theorem Closed.step {env : Env} {u : Nat} {st st' : State} {a : Action}
    (hk : Counting env st) (hc : Closed u st)
    (hok : AtWrites (fun db w => KeepsLock u db w ∧ w.opens ≠ some u) st a)
    (h : step env st a = some st') : Closed u st' := by
  obtain ⟨user, hu, hclosed⟩ := hc
  rcases account_of_step hk h hu with ⟨hu', -⟩ | ⟨w, user', hw, -, hu', hacc⟩
  · exact ⟨user, hu', hclosed⟩
  · obtain ⟨hkeep, hopen⟩ := hok w hw
    refine ⟨user', hu', ?_⟩
    rw [show user'.status = (accountAfter w u user).1 from congrArg Prod.fst hacc]
    exact closed_after hu hkeep hopen hclosed

/-! ## Counted attempts -/

/-- After `n` wrong attempts the counter is at least `n`, and the account is locked
once that reaches the threshold. -/
def Counted (env : Env) (u n : Nat) (st : State) : Prop :=
  ∃ user, st.store.users u = some user ∧ n ≤ user.failedLoginCount ∧ user.status ≠ .INACTIVE ∧
    (0 < n → env.threshold ≤ n → user.status = .LOCKED)

theorem locked_of_closed {status : UserStatus} (h : status.canSignIn = false)
    (hne : status ≠ .INACTIVE) : status = .LOCKED := by
  cases status with
  | LOCKED => rfl
  | INACTIVE => exact absurd rfl hne
  | ACTIVE | PENDING_PASSWORD_CHANGE => cases h

theorem counted_after {env : Env} {u n : Nat} {db : Database} {w : Write} {user : AppUser}
    (hu : db.users u = some user) (hkeep : KeepsLock u db w) (hreset : w.resets ≠ some u)
    (hup : CountsUp env w) (hn : n ≤ user.failedLoginCount) (hne : user.status ≠ .INACTIVE)
    (hlock : 0 < n → env.threshold ≤ n → user.status = .LOCKED) :
    let m := n + if (w.attempt.any fun x => decide (x.1 = u)) = true then 1 else 0
    m ≤ (accountAfter w u user).2 ∧ (accountAfter w u user).1 ≠ .INACTIVE ∧
      (0 < m → env.threshold ≤ m → (accountAfter w u user).1 = .LOCKED) := by
  cases w with
  | failedLogin v count status =>
    by_cases hv : v = u
    · obtain ⟨-, hinactive, hcount⟩ := hkeep _ rfl hv user hu
      dsimp only at hinactive hcount
      have hne' : status ≠ .INACTIVE := fun h => hne (hinactive h)
      simp only [Write.attempt, Option.any_some, hv, decide_true, if_true, accountAfter]
      refine ⟨by omega, hne', fun _ hle => locked_of_closed (hup _ rfl ?_) hne'⟩
      dsimp only
      omega
    · simp only [Write.attempt, Option.any_some, hv, decide_false, accountAfter, if_false,
        Bool.false_eq_true, Nat.add_zero]
      exact ⟨hn, hne, hlock⟩
  | setStatus v status | adminReset v hash | resetPassword v hash | loginOk v =>
    have hv : ¬ v = u := fun h => hreset (congrArg some h)
    simp only [Write.attempt, Option.any_none, accountAfter, hv, if_false, Bool.false_eq_true,
      Nat.add_zero]
    exact ⟨hn, hne, hlock⟩
  | changePassword v hash =>
    simp only [Write.attempt, Option.any_none, accountAfter, if_false, Bool.false_eq_true,
      Nat.add_zero]
    refine ⟨hn, ?_, fun hpos hle => ?_⟩
    · split
      · exact fun h => by cases h
      · exact hne
    · rw [hlock hpos hle]
      exact if_neg fun h => by cases h.2
  | _ => exact ⟨hn, hne, hlock⟩

theorem Counted.step {env : Env} {u n : Nat} {st st' : State} {a : Action}
    (hk : Counting env st) (hc : Counted env u n st)
    (hok : AtWrites (fun db w => KeepsLock u db w ∧ w.resets ≠ some u) st a)
    (h : step env st a = some st') :
    Counted env u (n + if fails u st a then 1 else 0) st' := by
  obtain ⟨user, hu, hn, hne, hlock⟩ := hc
  rcases account_of_step hk h hu with ⟨hu', hnone⟩ | ⟨w, user', hw, hup, hu', hacc⟩
  · have hfails : fails u st a = false := by
      unfold fails
      cases hw : writeAt st a with
      | none => rfl
      | some w => rw [Option.bind_some, attempt_of_failed (hnone w hw)]
    rw [hfails]
    exact ⟨user, hu', hn, hne, hlock⟩
  · obtain ⟨hkeep, hreset⟩ := hok w hw
    have hfails : fails u st a = w.attempt.any fun x => decide (x.1 = u) := by
      simp only [fails, hw, Option.bind_some]
      cases w.attempt <;> rfl
    obtain ⟨h₁, h₂, h₃⟩ := counted_after hu hkeep hreset hup hn hne hlock
    rw [← hacc, ← hfails] at *
    exact ⟨user', hu', h₁, h₂, h₃⟩

/-- **Lock state is kept** along steps in which every failed attempt on the account
writes a status and a counter that are not behind the current ones: (1) an account that
`setUserStatus` closed stays closed until `setUserStatus` opens it; (2) from a state in
which it is open with counter 0, and without a reset, as many wrong attempts as the
threshold lock it. -/
theorem lock_state_kept {env : Env} {st₀ s t : State} {as bs : List Action} {u : Nat}
    {user : AppUser} (h₀ : Init st₀) (hbefore : FreeRun (step env) st₀ as s)
    (hu : s.store.users u = some user) :
    (∀ a status s', writeAt s a = some (.setStatus u status) → status.canSignIn = false →
      step env s a = some s' →
      Run (step env) (AtWrites fun db w => KeepsLock u db w ∧ w.opens ≠ some u) s' bs t →
      ∃ user', t.store.users u = some user' ∧
        (user'.status = .INACTIVE ∨ user'.status = .LOCKED)) ∧
    (user.status.canSignIn = true → user.failedLoginCount = 0 →
      Run (step env) (AtWrites fun db w => KeepsLock u db w ∧ w.resets ≠ some u) s bs t →
      0 < countAlong (step env) (fails u) s bs →
      env.threshold ≤ countAlong (step env) (fails u) s bs →
      ∃ user', t.store.users u = some user' ∧ user'.status = .LOCKED) := by
  have hk := counting_run h₀ hbefore
  constructor
  · intro a status s' hw hstatus hs' hrun
    have hclosed : Closed u s' := by
      rcases account_of_step hk hs' hu with ⟨-, hnone⟩ | ⟨w, user', hw', -, hu', hacc⟩
      · cases hnone _ hw
      · rw [hw] at hw'
        cases hw'
        refine ⟨user', hu', ?_⟩
        rw [show user'.status = _ from congrArg Prod.fst hacc]
        simpa [accountAfter] using hstatus
    have hstep : ∀ st a st', Counting env st ∧ Closed u st →
        AtWrites (fun db w => KeepsLock u db w ∧ w.opens ≠ some u) st a →
        step env st a = some st' → Counting env st' ∧ Closed u st' :=
      fun _ _ _ hi hok hst => ⟨counting_step hi.1 hst, hi.2.step hi.1 hok hst⟩
    obtain ⟨user', hu', hc⟩ := (Run.invariant hstep hrun ⟨counting_step hk hs', hclosed⟩).2
    refine ⟨user', hu', ?_⟩
    by_cases hne : user'.status = .INACTIVE
    · exact .inl hne
    · exact .inr (locked_of_closed hc hne)
  · intro hopen hzero hrun hpos hle
    have hstep : ∀ n st a st', Counting env st ∧ Counted env u n st →
        AtWrites (fun db w => KeepsLock u db w ∧ w.resets ≠ some u) st a →
        step env st a = some st' → Counting env st' ∧
          Counted env u (n + if fails u st a then 1 else 0) st' :=
      fun _ _ _ _ hi hok hst => ⟨counting_step hi.1 hst, hi.2.step hi.1 hok hst⟩
    have hstart : Counted env u 0 s := by
      refine ⟨user, hu, Nat.zero_le _, ?_, fun h => absurd h (Nat.lt_irrefl 0)⟩
      intro hinactive
      rw [hinactive] at hopen
      cases hopen
    obtain ⟨user', hu', -, -, hlock⟩ := (Run.counting hstep hrun ⟨hk, hstart⟩).2
    rw [Nat.zero_add] at hlock
    exact ⟨user', hu', hlock hpos hle⟩

/-! ### One account, threshold 2 -/

def oneAccount : State where
  store :=
    { users := fun u => if u = 0 then some ⟨"ana", "right", .ACTIVE, false, 0, none, none⟩ else none
      nextUserId := 1
      roles := fun _ => none
      nextRoleId := 0
      userRoles := fun _ => []
      userRole := fun _ => []
      roleTiers := [] }
  calls := []

theorem oneAccount_init : Init oneAccount where
  fresh u hu := by
    have hu : 1 ≤ u := hu
    exact if_neg (by omega)
  calls := rfl

def statusOf (st : State) (u : Nat) : Option UserStatus := (st.store.users u).map (·.status)

def guessedTwice : List Action :=
  [.call (.login "ana" "wrong"), .advance 0, .advance 0, .call (.login "ana" "guess"),
    .advance 1, .advance 1]

def guessedAtOnce : List Action :=
  [.call (.login "ana" "wrong"), .call (.login "ana" "guess"), .advance 0, .advance 1,
    .advance 0, .advance 1]

/-- One after the other nothing is lost: a guess leaves an account that was locked by
hand locked, and two guesses lock an open one. -/
theorem lock_state_kept_in_turn :
    (∃ s s' t user', FreeRun (step plainEnv) oneAccount
        [.call (.setUserStatus 0 .LOCKED), .advance 0] s ∧
      step plainEnv s (.advance 0) = some s' ∧
      FreeRun (step plainEnv) s' [.call (.login "ana" "wrong"), .advance 1, .advance 1] t ∧
      t.store.users 0 = some user' ∧ (user'.status = .INACTIVE ∨ user'.status = .LOCKED)) ∧
    ∃ t user', FreeRun (step plainEnv) oneAccount guessedTwice t ∧
      t.store.users 0 = some user' ∧ user'.status = .LOCKED := by
  constructor
  · have hrun : ((exec (step plainEnv) (fun _ _ => True) oneAccount
        [.call (.setUserStatus 0 .LOCKED), .advance 0]).bind fun s =>
        (step plainEnv s (.advance 0)).bind fun s' =>
          (exec (step plainEnv) (AtWrites fun db w => KeepsLock 0 db w ∧ w.opens ≠ some 0) s'
            [.call (.login "ana" "wrong"), .advance 1, .advance 1]).map fun _ =>
            decide (writeAt s (.advance 0) = some (.setStatus 0 .LOCKED)) &&
              decide (statusOf s 0 ≠ none)) = some true := by decide +kernel
    obtain ⟨s, hs, hrun⟩ := Option.bind_eq_some_iff.mp hrun
    obtain ⟨s', hs', hrun⟩ := Option.bind_eq_some_iff.mp hrun
    obtain ⟨t, ht, hboth⟩ := Option.map_eq_some_iff.mp hrun
    rw [Bool.and_eq_true, decide_eq_true_eq, decide_eq_true_eq] at hboth
    obtain ⟨hw, hsome⟩ := hboth
    obtain ⟨user, hu⟩ := Option.ne_none_iff_exists'.mp fun h => hsome (Option.map_eq_none_iff.mpr h)
    have hbefore := (exec_eq_some _ _ _ _ _).mp hs
    have hafter := (exec_eq_some _ _ _ _ _).mp ht
    obtain ⟨user', hu', hlocked⟩ :=
      (lock_state_kept oneAccount_init hbefore hu).1 _ _ s' hw rfl hs' hafter
    exact ⟨s, s', t, user', hbefore, hs', hafter.free, hu', hlocked⟩
  · have hrun : (exec (step plainEnv) (AtWrites fun db w => KeepsLock 0 db w ∧ w.resets ≠ some 0)
        oneAccount guessedTwice).map (fun _ =>
          decide (countAlong (step plainEnv) (fails 0) oneAccount guessedTwice = 2)) =
        some true := by decide +kernel
    obtain ⟨t, ht, hcount⟩ := Option.map_eq_some_iff.mp hrun
    have hcount := of_decide_eq_true hcount
    have hafter := (exec_eq_some _ _ _ _ _).mp ht
    obtain ⟨user', hu', hlocked⟩ :=
      (lock_state_kept oneAccount_init (.nil _) (u := 0) rfl).2 rfl rfl hafter
        (by rw [hcount]; decide) (by rw [hcount]; decide)
    exact ⟨t, user', hafter.free, hu', hlocked⟩

/-- The guess that read the account before it was locked opens it again, and two guesses
that read the counter at once count as one. -/
theorem lock_state_lost :
    (∃ s s' t, FreeRun (step plainEnv) oneAccount [.call (.login "ana" "wrong"), .advance 0,
        .call (.setUserStatus 0 .LOCKED), .advance 1] s ∧
      writeAt s (.advance 1) = some (.setStatus 0 .LOCKED) ∧
      step plainEnv s (.advance 1) = some s' ∧ step plainEnv s' (.advance 0) = some t ∧
      statusOf t 0 = some .ACTIVE) ∧
    ∃ t, FreeRun (step plainEnv) oneAccount guessedAtOnce t ∧
      countAlong (step plainEnv) (fails 0) oneAccount guessedAtOnce = plainEnv.threshold ∧
      statusOf t 0 = some .ACTIVE := by
  constructor
  · have hrun : ((exec (step plainEnv) (fun _ _ => True) oneAccount
        [.call (.login "ana" "wrong"), .advance 0, .call (.setUserStatus 0 .LOCKED),
          .advance 1]).bind fun s => (step plainEnv s (.advance 1)).bind fun s' =>
          (step plainEnv s' (.advance 0)).map fun t =>
            decide (writeAt s (.advance 1) = some (.setStatus 0 .LOCKED)) &&
              decide (statusOf t 0 = some .ACTIVE)) = some true := by decide +kernel
    obtain ⟨s, hs, hrun⟩ := Option.bind_eq_some_iff.mp hrun
    obtain ⟨s', hs', hrun⟩ := Option.bind_eq_some_iff.mp hrun
    obtain ⟨t, ht, hboth⟩ := Option.map_eq_some_iff.mp hrun
    rw [Bool.and_eq_true, decide_eq_true_eq, decide_eq_true_eq] at hboth
    exact ⟨s, s', t, (exec_eq_some _ _ _ _ _).mp hs, hboth.1, hs', ht, hboth.2⟩
  · have hrun : (exec (step plainEnv) (fun _ _ => True) oneAccount guessedAtOnce).map (fun t =>
        decide (countAlong (step plainEnv) (fails 0) oneAccount guessedAtOnce =
          plainEnv.threshold) && decide (statusOf t 0 = some .ACTIVE)) = some true := by
      decide +kernel
    obtain ⟨t, ht, hboth⟩ := Option.map_eq_some_iff.mp hrun
    rw [Bool.and_eq_true, decide_eq_true_eq, decide_eq_true_eq] at hboth
    exact ⟨t, (exec_eq_some _ _ _ _ _).mp ht, hboth.1, hboth.2⟩

end SalesDashboard.Accounts
