import SalesDashboard.Accounts.Sessions

/-! Which tokens open a request, over every order of statements, signatures, revocations
and requests. -/

namespace SalesDashboard.Sessions
open Accounts Function Transition

/-! ## Events -/

theorem accountStep_ok {env : Env} {w w' : World} {a : Action} (h : accountStep env w a = some w') :
    ∃ accounts, Accounts.step env w.accounts a = some accounts ∧ w' = { w with
      accounts := accounts
      stamps := fun u => match Calls.writeAt w.accounts a with
        | some x => stampsAfter x w.second u (w.stamps u)
        | none => w.stamps u
      checked := checkedAfter w a
      signing := signingAfter w a } := by
  obtain ⟨accounts, hstep, heq⟩ := Option.map_eq_some_iff.mp h
  exact ⟨accounts, hstep, heq.symm⟩

/-- Everything an event can be. -/
inductive EventCase (env : Env) (w w' : World) : Event → Prop
  | account (a : Action) (accounts : Accounts.State) (hstep : Accounts.step env w.accounts a = some accounts)
      (h : w' = { w with
        accounts := accounts
        stamps := fun u => match Calls.writeAt w.accounts a with
          | some x => stampsAfter x w.second u (w.stamps u)
          | none => w.stamps u
        checked := checkedAfter w a
        signing := signingAfter w a }) : EventCase env w w' (.account a)
  | sleep (ms : Nat) (h : w' = { w with now := w.now + ms }) : EventCase env w w' (.sleep ms)
  | sign (x : Signing) (i jti : Nat) (hx : x ∈ w.signing) (hjti : jti ∉ w.jtis)
      (h : w' = { w with
        signing := w.signing.filter fun y => decide (y.call ≠ i)
        issued := w.issued ++ [⟨issueAccessToken w x.userId jti, x.passwordHash⟩] }) :
      EventCase env w w' (.sign i jti)
  | logout (jti : Nat) (hjti : jti ∈ w.jtis)
      (h : w' = { w with revokedTokens := jti :: w.revokedTokens }) : EventCase env w w' (.logout jti)
  | revokeNobody (u : Nat) (hu : w.accounts.store.users u = none) (h : w' = w) :
      EventCase env w w' (.revokeSessions u)
  | revokeSessions (u : Nat) (hu : w.accounts.store.users u ≠ none)
      (h : w' = { w with
        stamps := update w.stamps u { w.stamps u with sessionsRevokedAt := some w.second } }) :
      EventCase env w w' (.revokeSessions u)

theorem event_cases {env : Env} {w w' : World} {e : Event} (h : happen env w e = some w') :
    EventCase env w w' e := by
  cases e with
  | account a =>
    obtain ⟨accounts, hstep, heq⟩ := accountStep_ok h
    exact .account a accounts hstep heq
  | sleep ms => exact .sleep ms (Option.some.inj h).symm
  | sign i jti =>
    simp only [happen] at h
    split at h
    · cases h
    · next x hx =>
      split at h
      · cases h
      · next hjti => exact .sign x i jti (List.mem_of_find?_eq_some hx) hjti (Option.some.inj h).symm
  | logout jti =>
    simp only [happen] at h
    split at h
    · next hjti => exact .logout jti hjti (Option.some.inj h).symm
    · cases h
  | revokeSessions u =>
    simp only [happen] at h
    split at h
    · next hu => exact .revokeNobody u hu (Option.some.inj h).symm
    · next hu => exact .revokeSessions u hu (Option.some.inj h).symm

/-- Nothing has happened yet. -/
structure Init (w : World) : Prop where
  accounts : Accounts.Init w.accounts
  stamps : ∀ u, w.stamps u = ⟨none, none⟩
  revokedTokens : w.revokedTokens = []
  signing : w.signing = []
  issued : w.issued = []

/-! ## The clock -/

/-- The stamps of an account are in the past. -/
def Past (second : Nat) (s : Stamps) : Prop :=
  (∀ x ∈ s.passwordChangedAt, x ≤ second) ∧ ∀ x ∈ s.sessionsRevokedAt, x ≤ second

theorem Past.later {second second' : Nat} {s : Stamps} (h : Past second s) (hle : second ≤ second') :
    Past second' s :=
  ⟨fun x hx => le_trans (h.1 x hx) hle, fun x hx => le_trans (h.2 x hx) hle⟩

theorem Past.after {second u : Nat} {s : Stamps} (h : Past second s) (x : Write) :
    Past second (stampsAfter x second u s) := by
  have hnow : ∀ y ∈ some second, y ≤ second := fun y hy => le_of_eq (Option.mem_some_iff.mp hy).symm
  cases x with
  | adminReset v hash | resetPassword v hash =>
    simp only [stampsAfter]
    split
    · exact ⟨hnow, hnow⟩
    · exact h
  | changePassword v hash =>
    simp only [stampsAfter]
    split
    · exact ⟨hnow, h.2⟩
    · exact h
  | failedLogin | loginOk | setStatus | insertUser | insertUserRole | deleteTier | insertTier | assignRoles
  | createRole | changeRole | deleteRole => exact h

/-- What every event keeps: no stamp and no token is of a later second, and only tokens
that were signed are revoked. -/
structure Timely (w : World) : Prop where
  stamps : ∀ u, Past w.second (w.stamps u)
  issued : ∀ x ∈ w.issued, x.token.iat ≤ w.second
  revoked : ∀ jti ∈ w.revokedTokens, jti ∈ w.jtis

theorem Init.timely {w : World} (h : Init w) : Timely w where
  stamps u := by
    rw [h.stamps u]
    constructor <;> (intro x hx; cases hx)
  issued x hx := by
    rw [h.issued] at hx
    cases hx
  revoked jti hjti := by
    rw [h.revokedTokens] at hjti
    cases hjti

theorem Timely.step {env : Env} {w w' : World} {e : Event} (hi : Timely w) (h : happen env w e = some w') :
    Timely w' := by
  cases event_cases h with
  | account a accounts hstep heq =>
    subst heq
    refine ⟨fun u => ?_, hi.issued, hi.revoked⟩
    dsimp only
    split
    · exact (hi.stamps u).after _
    · exact hi.stamps u
  | sleep ms heq =>
    subst heq
    have hle : w.second ≤ (w.now + ms) / 1000 := Nat.div_le_div_right (Nat.le_add_right _ _)
    exact ⟨fun u => (hi.stamps u).later hle, fun x hx => le_trans (hi.issued x hx) hle, hi.revoked⟩
  | sign x i jti hx hjti heq =>
    subst heq
    refine ⟨hi.stamps, fun y hy => ?_, fun jti' hjti' => ?_⟩
    · rcases List.mem_append.mp hy with hy | hy
      · exact hi.issued y hy
      · rw [List.mem_singleton.mp hy]
        exact le_refl _
    · obtain ⟨y, hy, heq⟩ := List.mem_map.mp (hi.revoked jti' hjti')
      exact List.mem_map.mpr ⟨y, List.mem_append_left _ hy, heq⟩
  | logout jti hjti heq =>
    subst heq
    refine ⟨hi.stamps, hi.issued, fun jti' hjti' => ?_⟩
    rcases List.mem_cons.mp hjti' with rfl | hjti'
    · exact hjti
    · exact hi.revoked jti' hjti'
  | revokeNobody u hu heq => exact heq ▸ hi
  | revokeSessions u hu heq =>
    subst heq
    refine ⟨fun v => ?_, hi.issued, hi.revoked⟩
    by_cases hv : v = u
    · subst hv
      dsimp only
      rw [update_self]
      exact ⟨(hi.stamps v).1, fun x hx => le_of_eq (Option.mem_some_iff.mp hx).symm⟩
    · dsimp only
      rw [update_of_ne hv]
      exact hi.stamps v

theorem Timely.run {env : Env} {w w' : World} {es : List Event} (hi : Timely w)
    (h : FreeRun (happen env) w es w') : Timely w' :=
  h.invariant (fun _ _ _ hi _ hst => Timely.step hi hst) hi

/-- Tokens stay signed, and the clock does not go back. -/
theorem kept_of_step {env : Env} {w w' : World} {e : Event} (h : happen env w e = some w') :
    w.second ≤ w'.second ∧ ∀ x ∈ w.issued, x ∈ w'.issued := by
  cases event_cases h with
  | account a accounts hstep heq => subst heq; exact ⟨le_refl _, fun x hx => hx⟩
  | sleep ms heq =>
    subst heq
    exact ⟨Nat.div_le_div_right (Nat.le_add_right _ _), fun x hx => hx⟩
  | sign x i jti hx hjti heq => subst heq; exact ⟨le_refl _, fun y hy => List.mem_append_left _ hy⟩
  | logout jti hjti heq => subst heq; exact ⟨le_refl _, fun x hx => hx⟩
  | revokeNobody u hu heq => subst heq; exact ⟨le_refl _, fun x hx => hx⟩
  | revokeSessions u hu heq => subst heq; exact ⟨le_refl _, fun x hx => hx⟩

/-! ## The end of a session -/

/-- A later second of the account's password or revocation ends the sessions of an earlier one. -/
def Ended (iat : Nat) (s : Stamps) : Prop :=
  issuedBefore iat s.sessionsRevokedAt = true ∨ issuedBefore iat s.passwordChangedAt = true

theorem issuedBefore_some {iat second : Nat} : issuedBefore iat (some second) = true ↔ iat < second := by
  simp [issuedBefore]

theorem issuedBefore_le {iat second : Nat} {stamp : Option Nat} (h : ∀ x ∈ stamp, x ≤ second)
    (hbefore : issuedBefore iat stamp = true) : iat < second := by
  cases stamp with
  | none => cases hbefore
  | some x => exact lt_of_lt_of_le (issuedBefore_some.mp hbefore) (h x rfl)

theorem Ended.lt {iat second : Nat} {s : Stamps} (hpast : Past second s) (h : Ended iat s) : iat < second := by
  rcases h with h | h
  · exact issuedBefore_le hpast.2 h
  · exact issuedBefore_le hpast.1 h

theorem not_setsPassword {x : Write} {u : Nat} (h : ∀ v hash, setsPassword x = some (v, hash) → v ≠ u)
    (second : Nat) (s : Stamps) : stampsAfter x second u s = s := by
  cases x with
  | adminReset v hash | resetPassword v hash | changePassword v hash => exact if_neg (h v hash rfl)
  | failedLogin | loginOk | setStatus | insertUser | insertUserRole | deleteTier | insertTier | assignRoles
  | createRole | changeRole | deleteRole => rfl

/-- Setting a password in a later second ends a session. -/
theorem ended_after {iat second u : Nat} {s : Stamps} (hpast : Past second s) (x : Write) :
    Ended iat (stampsAfter x second u s) ↔
      Ended iat s ∨ (∃ hash, setsPassword x = some (u, hash)) ∧ iat < second := by
  by_cases hset : ∃ hash, setsPassword x = some (u, hash)
  · have hlater : Ended iat (stampsAfter x second u s) ↔ Ended iat s ∨ iat < second := by
      obtain ⟨hash, hx⟩ := hset
      cases x with
      | adminReset v hash' | resetPassword v hash' =>
        cases hx
        simp only [stampsAfter, if_true, Ended, issuedBefore_some, or_self]
        exact ⟨.inr, fun h => h.elim (Ended.lt hpast) id⟩
      | changePassword v hash' =>
        cases hx
        simp only [stampsAfter, if_true, Ended, issuedBefore_some]
        constructor
        · rintro (h | h)
          · exact .inl (.inl h)
          · exact .inr h
        · rintro ((h | h) | h)
          · exact .inl h
          · exact .inr (issuedBefore_le hpast.1 h)
          · exact .inr h
      | failedLogin | loginOk | setStatus | insertUser | insertUserRole | deleteTier | insertTier
      | assignRoles | createRole | changeRole | deleteRole => cases hx
    rw [hlater, and_iff_right hset]
  · have hnot : ∀ v hash, setsPassword x = some (v, hash) → v ≠ u := by
      rintro v hash hx rfl
      exact hset ⟨hash, hx⟩
    rw [not_setsPassword hnot, or_iff_left fun h => hset h.1]

/-- The event ends the session of the token: its account's password is set, or its
sessions are revoked, in a later second. -/
def ends (t : AccessToken) (w : World) : Event → Bool
  | .account a => ((Calls.writeAt w.accounts a).bind setsPassword).any fun p =>
      decide (p.1 = t.userId ∧ t.iat < w.second)
  | .revokeSessions u =>
      decide (u = t.userId ∧ w.accounts.store.users u ≠ none ∧ t.iat < w.second)
  | _ => false

def signsOut (t : AccessToken) (_ : World) : Event → Bool
  | .logout jti => decide (jti = t.jti)
  | _ => false

section
variable {env : Env} {w w' : World} {e : Event} {t : AccessToken}

theorem ended_of_step (hi : Timely w) (h : happen env w e = some w') :
    Ended t.iat (w'.stamps t.userId) ↔ Ended t.iat (w.stamps t.userId) ∨ ends t w e = true := by
  cases event_cases h with
  | account a accounts hstep heq =>
    subst heq
    simp only [ends]
    cases hw : Calls.writeAt w.accounts a with
    | none => simp
    | some x =>
      dsimp only
      rw [ended_after (hi.stamps t.userId)]
      refine or_congr_right ?_
      cases hset : setsPassword x with
      | none => simp [hset]
      | some p => simp [hset, Prod.ext_iff]
  | sleep ms heq => subst heq; simp [ends]
  | sign x i jti hx hjti heq => subst heq; simp [ends]
  | logout jti hjti heq => subst heq; simp [ends]
  | revokeNobody u hu heq => subst heq; simp [ends, hu]
  | revokeSessions u hu heq =>
    subst heq
    simp only [ends, decide_eq_true_eq]
    by_cases hu' : u = t.userId
    · subst hu'
      rw [update_self]
      simp only [Ended, issuedBefore_some, hu, ne_eq, not_false_eq_true, true_and]
      constructor
      · rintro (h | h)
        · exact .inr h
        · exact .inl (.inr h)
      · rintro ((h | h) | h)
        · exact .inl (issuedBefore_le (hi.stamps _).2 h)
        · exact .inr h
        · exact .inl h
    · rw [update_of_ne fun h => hu' h.symm]
      simp [hu']

theorem signedOut_of_step (h : happen env w e = some w') :
    t.jti ∈ w'.revokedTokens ↔ t.jti ∈ w.revokedTokens ∨ signsOut t w e = true := by
  cases event_cases h with
  | account a accounts hstep heq => subst heq; simp [signsOut]
  | sleep ms heq => subst heq; simp [signsOut]
  | sign x i jti hx hjti heq => subst heq; simp [signsOut]
  | logout jti hjti heq =>
    subst heq
    simp only [signsOut, decide_eq_true_eq, List.mem_cons]
    exact ⟨fun h => h.elim (fun heq => .inr heq.symm) .inl, fun h => h.elim .inr fun heq => .inl heq.symm⟩
  | revokeNobody u hu heq => subst heq; simp [signsOut]
  | revokeSessions u hu heq => subst heq; simp [signsOut]

theorem positive_add {n : Nat} {b : Bool} : 0 < n + (if b then 1 else 0) ↔ 0 < n ∨ b = true := by
  cases b <;> simp

/-- The stamps say whether an event of the run has ended the session. -/
theorem ended_of_run {es : List Event} (hi : Timely w)
    (hstart : ¬ Ended t.iat (w.stamps t.userId)) (h : FreeRun (happen env) w es w') :
    Ended t.iat (w'.stamps t.userId) ↔ 0 < countAlong (happen env) (ends t) w es := by
  have hstep : ∀ n st a st', (Timely st ∧ (Ended t.iat (st.stamps t.userId) ↔ 0 < n)) → True →
      happen env st a = some st' → Timely st' ∧
        (Ended t.iat (st'.stamps t.userId) ↔ 0 < n + if ends t st a then 1 else 0) := by
    rintro n st a st' ⟨hi, hn⟩ - hst
    exact ⟨hi.step hst, by rw [ended_of_step hi hst, hn, positive_add]⟩
  have hend := (Run.counting hstep h ⟨hi, iff_of_false hstart (Nat.lt_irrefl 0)⟩).2
  rwa [Nat.zero_add] at hend

theorem signedOut_of_run {es : List Event} (hstart : t.jti ∉ w.revokedTokens)
    (h : FreeRun (happen env) w es w') :
    t.jti ∈ w'.revokedTokens ↔ 0 < countAlong (happen env) (signsOut t) w es := by
  have hstep : ∀ n st a st', (t.jti ∈ st.revokedTokens ↔ 0 < n) → True → happen env st a = some st' →
      (t.jti ∈ st'.revokedTokens ↔ 0 < n + if signsOut t st a then 1 else 0) := by
    intro n st a st' hn _ hst
    rw [signedOut_of_step hst, hn, positive_add]
  have hend := Run.counting hstep h (iff_of_false hstart (Nat.lt_irrefl 0))
  rwa [Nat.zero_add] at hend

theorem signed_run {es : List Event} (h : FreeRun (happen env) w es w') :
    w.second ≤ w'.second ∧ ∀ x ∈ w.issued, x ∈ w'.issued := by
  have hstep : ∀ st a st', (w.second ≤ st.second ∧ ∀ x ∈ w.issued, x ∈ st.issued) → True →
      happen env st a = some st' → w.second ≤ st'.second ∧ ∀ x ∈ w.issued, x ∈ st'.issued := by
    rintro st a st' ⟨hle, hmem⟩ - hst
    obtain ⟨hle', hmem'⟩ := kept_of_step hst
    exact ⟨le_trans hle hle', fun x hx => hmem' x (hmem x hx)⟩
  exact h.invariant hstep ⟨le_refl _, fun x hx => hx⟩

end

/-- **What a token opens**: from its signature on, in every order of what follows, a
request is let in exactly when the account may sign in, the token has not expired, and
neither a logout before the request nor a later second's password or revocation before
the account is read has ended the session. -/
theorem accepted_exact {env : Env} {w₀ w w₁ u u' : World} {es₀ es es' : List Event} {i jti : Nat}
    {x : Signed} (h₀ : Init w₀) (hbefore : FreeRun (happen env) w₀ es₀ w)
    (hsign : happen env w (.sign i jti) = some w₁) (hx : w₁.issued = w.issued ++ [x])
    (hafter : FreeRun (happen env) w₁ es u) (hrequest : FreeRun (happen env) u es' u') :
    Accepted u u' x.token ↔
      (∃ user, u'.accounts.store.users x.token.userId = some user ∧ user.status.canSignIn = true) ∧
      u.second < x.token.iat + ACCESS_TOKEN_TTL ∧
      countAlong (happen env) (signsOut x.token) w₁ es = 0 ∧
      countAlong (happen env) (ends x.token) w₁ (es ++ es') = 0 := by
  have hi := h₀.timely.run hbefore
  have hi₁ := hi.step hsign
  have hmem : x ∈ u.issued := (signed_run hafter).2 x (hx ▸ List.mem_append_right _ List.mem_cons_self)
  obtain ⟨hexp, hiat, hfresh⟩ : x.token.exp = x.token.iat + ACCESS_TOKEN_TTL ∧ x.token.iat = w₁.second ∧
      x.token.jti ∉ w₁.revokedTokens := by
    cases event_cases hsign with
    | sign y i jti hy hjti heq =>
      subst heq
      obtain rfl : _ = x := (List.cons.inj (List.append_cancel_left hx)).1
      exact ⟨rfl, rfl, fun h => hjti (hi.revoked _ h)⟩
  have hstart : ¬ Ended x.token.iat (w₁.stamps x.token.userId) := fun h =>
    Nat.lt_irrefl _ (hiat ▸ h.lt (hi₁.stamps _))
  have hout := signedOut_of_run hfresh hafter
  have hended := ended_of_run hi₁ hstart (hafter.append hrequest)
  have hverify : verifyAccessToken u x.token = true ↔ u.second < x.token.iat + ACCESS_TOKEN_TTL := by
    unfold verifyAccessToken
    rw [Bool.and_eq_true, decide_eq_true_eq, decide_eq_true_eq, hexp]
    exact and_iff_right (List.mem_map_of_mem hmem)
  have hrevoked : isTokenRevoked u x.token.jti = false ↔
      countAlong (happen env) (signsOut x.token) w₁ es = 0 := by
    unfold isTokenRevoked
    rw [decide_eq_false_iff_not, hout, Nat.not_lt, Nat.le_zero]
  have hkept : (issuedBefore x.token.iat (u'.stamps x.token.userId).sessionsRevokedAt = false ∧
      issuedBefore x.token.iat (u'.stamps x.token.userId).passwordChangedAt = false) ↔
      countAlong (happen env) (ends x.token) w₁ (es ++ es') = 0 := by
    rw [← Nat.le_zero, ← Nat.not_lt, ← hended, Ended, not_or, Bool.not_eq_true, Bool.not_eq_true]
  rw [accepted_iff, hverify, hrevoked, hkept]
  constructor
  · rintro ⟨hsecond, hout, huser, hend⟩
    exact ⟨huser, hsecond, hout, hend⟩
  · rintro ⟨huser, hsecond, hout, hend⟩
    exact ⟨hsecond, hout, huser, hend⟩

/-! ### A session of one account -/

def noSessions : World := ⟨oneAccount, 0, fun _ => ⟨none, none⟩, [], fun _ => "", [], []⟩

theorem noSessions_init : Init noSessions := ⟨oneAccount_init, fun _ => rfl, rfl, rfl, rfl⟩

/-- A sign-in with its three statements, up to its token. -/
def signIn : List Event := [.account (.call (.login "ana" "right")), .account (.advance 0), .account (.advance 0)]

def run (w : World) (es : List Event) : Option World := exec (happen plainEnv) (fun _ _ => True) w es

theorem run_eq {w w' : World} {es : List Event} : run w es = some w' ↔ FreeRun (happen plainEnv) w es w' :=
  exec_eq_some _ _ _ _ _

def firstToken : AccessToken := ⟨0, 7, 0, ACCESS_TOKEN_TTL⟩

/-- A minute later the token opens a request. -/
theorem accepted_exact_minute : ∃ u, FreeRun (happen plainEnv) noSessions
    (signIn ++ .sign 0 7 :: [.sleep 60000]) u ∧ Accepted u u firstToken := by
  have hrun : ((run noSessions signIn).bind fun w => (happen plainEnv w (.sign 0 7)).bind fun w₁ =>
      (run w₁ [.sleep 60000]).map fun u =>
        decide (w.issued = []) && decide (w₁.issued = [⟨firstToken, "right"⟩]) &&
        decide ((u.accounts.store.users 0).map (·.status) = some .ACTIVE) && decide (u.second = 60) &&
        decide (countAlong (happen plainEnv) (signsOut firstToken) w₁ [.sleep 60000] = 0) &&
        decide (countAlong (happen plainEnv) (ends firstToken) w₁ ([.sleep 60000] ++ []) = 0)) =
      some true := by decide +kernel
  obtain ⟨w, hw, hrun⟩ := Option.bind_eq_some_iff.mp hrun
  obtain ⟨w₁, hw₁, hrun⟩ := Option.bind_eq_some_iff.mp hrun
  obtain ⟨u, hu, hrun⟩ := Option.map_eq_some_iff.mp hrun
  simp only [Bool.and_eq_true, decide_eq_true_eq] at hrun
  obtain ⟨⟨⟨⟨⟨hnone, hissued⟩, hstatus⟩, hsecond⟩, hout⟩, hended⟩ := hrun
  have hbefore := run_eq.mp hw
  have hafter := run_eq.mp hu
  obtain ⟨user, huser, hactive⟩ := Option.map_eq_some_iff.mp hstatus
  refine ⟨u, hbefore.append (.cons trivial hw₁ hafter), ?_⟩
  have hx : w₁.issued = w.issued ++ [⟨firstToken, "right"⟩] := by rw [hnone, hissued]; rfl
  refine (accepted_exact noSessions_init hbefore hw₁ hx hafter (.nil u)).mpr ⟨⟨user, huser, ?_⟩, ?_, hout, hended⟩
  · rw [hactive]
    rfl
  · rw [hsecond]
    decide

end SalesDashboard.Sessions
