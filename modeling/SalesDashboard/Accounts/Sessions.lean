import SalesDashboard.Accounts.Lock

/-! Bearer tokens over the accounts (`token.ts`, `middleware/auth.ts`, the token side of
`authService.ts`): a call that signs a user in has written when it signs its token, and a
request reads the account again. The clock is the database's and the server's. Only the
tokens that were signed here verify, and no identifier is drawn twice. -/

namespace SalesDashboard.Sessions
open Accounts Function

/-- `365d`, in seconds. -/
def ACCESS_TOKEN_TTL : Nat := 365 * 24 * 60 * 60

structure AccessToken where
  userId : Nat
  jti : Nat
  iat : Nat
  exp : Nat
  deriving DecidableEq

/-- Two columns of an account, whole seconds; no row is inserted with one of them. -/
structure Stamps where
  passwordChangedAt : Option Nat
  sessionsRevokedAt : Option Nat

/-- A call between its last statement and its token, with the hash that it checked the
password against, or set. -/
structure Signing where
  call : Nat
  userId : Nat
  passwordHash : String

/-- A token with the hash that its call checked or set; no request can see the hash. -/
structure Signed where
  token : AccessToken
  passwordHash : String
  deriving DecidableEq

/-- The clock is in milliseconds. `checked` is the hash that each sign-in has read. -/
structure World where
  accounts : Accounts.State
  now : Nat
  stamps : Nat → Stamps
  revokedTokens : List Nat
  checked : Nat → String
  signing : List Signing
  issued : List Signed

def World.second (w : World) : Nat := w.now / 1000

def World.jtis (w : World) : List Nat := w.issued.map (·.token.jti)

/-! ## Events -/

/-- The account whose password a write sets. -/
def setsPassword : Write → Option (Nat × String)
  | .adminReset u hash | .changePassword u hash | .resetPassword u hash => some (u, hash)
  | _ => none

/-- What a write makes of the two columns of an account. -/
def stampsAfter (x : Write) (second u : Nat) (s : Stamps) : Stamps :=
  match x with
  | .adminReset v _ | .resetPassword v _ => if v = u then ⟨some second, some second⟩ else s
  | .changePassword v _ => if v = u then { s with passwordChangedAt := some second } else s
  | _ => s

def checkedAfter (w : World) : Action → Nat → String
  | .call _ => w.checked
  | .advance i =>
      match w.accounts.calls[i]? with
      | some ⟨.login email _, _, .read _⟩ =>
          match w.accounts.store.userByEmail email with
          | some (_, user) => update w.checked i user.passwordHash
          | none => w.checked
      | _ => w.checked

def signingAfter (w : World) : Action → List Signing
  | .call _ => w.signing
  | .advance i =>
      match Calls.writeAt w.accounts (.advance i) with
      | some (.loginOk u) => w.signing ++ [⟨i, u, w.checked i⟩]
      | some (.changePassword u hash) => w.signing ++ [⟨i, u, hash⟩]
      | _ => w.signing

inductive Event
  | account (a : Action)
  | sleep (ms : Nat)
  | sign (call jti : Nat)
  | logout (jti : Nat)
  | revokeSessions (userId : Nat)

/-- A statement of an account call. -/
def accountStep (env : Env) (w : World) (a : Action) : Option World :=
  (Accounts.step env w.accounts a).map fun accounts =>
    { w with
      accounts := accounts
      stamps := fun u => match Calls.writeAt w.accounts a with
        | some x => stampsAfter x w.second u (w.stamps u)
        | none => w.stamps u
      checked := checkedAfter w a
      signing := signingAfter w a }

def issueAccessToken (w : World) (userId jti : Nat) : AccessToken :=
  ⟨userId, jti, w.second, w.second + ACCESS_TOKEN_TTL⟩

def happen (env : Env) (w : World) : Event → Option World
  | .account a => accountStep env w a
  | .sleep ms => some { w with now := w.now + ms }
  | .sign i jti =>
      match w.signing.find? fun x => decide (x.call = i) with
      | none => none
      | some x =>
          if jti ∈ w.jtis then none
          else some { w with
            signing := w.signing.filter fun y => decide (y.call ≠ i)
            issued := w.issued ++ [⟨issueAccessToken w x.userId jti, x.passwordHash⟩] }
  | .logout jti => if jti ∈ w.jtis then some { w with revokedTokens := jti :: w.revokedTokens } else none
  | .revokeSessions u =>
      if w.accounts.store.users u = none then some w
      else some { w with stamps := update w.stamps u { w.stamps u with sessionsRevokedAt := some w.second } }

/-! ## Requests -/

structure Denial where
  status : Nat
  error : String
  deriving DecidableEq, Repr

/-- `stamp && verified.issuedAt < stamp` -/
def issuedBefore (iat : Nat) (stamp : Option Nat) : Bool := stamp.any fun s => decide (iat < s)

def verifyAccessToken (w : World) (token : AccessToken) : Bool :=
  decide (token ∈ w.issued.map (·.token)) && decide (w.second < token.exp)

def isTokenRevoked (w : World) (jti : Nat) : Bool := decide (jti ∈ w.revokedTokens)

/-- The token is looked up in one world, and the account in a later one. -/
def requireAuth (w w' : World) (token : Option AccessToken) : Except Denial (Nat × AppUser) :=
  match token with
  | none => .error ⟨401, "Missing bearer token"⟩
  | some verified =>
      if verifyAccessToken w verified = false then .error ⟨401, "Invalid or expired session"⟩
      else if isTokenRevoked w verified.jti = true then .error ⟨401, "Session has been signed out"⟩
      else match w'.accounts.store.users verified.userId with
        | none => .error ⟨401, "Invalid or expired session"⟩
        | some user =>
            if user.status.canSignIn = false then
              .error ⟨401, "Your account is no longer active. Contact your administrator."⟩
            else if issuedBefore verified.iat (w'.stamps verified.userId).sessionsRevokedAt = true then
              .error ⟨401, "Session has been revoked. Please sign in again."⟩
            else if issuedBefore verified.iat (w'.stamps verified.userId).passwordChangedAt = true then
              .error ⟨401, "Session is no longer valid. Please sign in again."⟩
            else .ok (verified.userId, user)

/-- The token opens the request for its user. -/
def Accepted (w w' : World) (t : AccessToken) : Prop :=
  ∃ user, requireAuth w w' (some t) = .ok (t.userId, user)

/-! ## Accepted tokens -/

theorem accepted_iff {w w' : World} {t : AccessToken} : Accepted w w' t ↔
    verifyAccessToken w t = true ∧ isTokenRevoked w t.jti = false ∧
      (∃ user, w'.accounts.store.users t.userId = some user ∧ user.status.canSignIn = true) ∧
      issuedBefore t.iat (w'.stamps t.userId).sessionsRevokedAt = false ∧
      issuedBefore t.iat (w'.stamps t.userId).passwordChangedAt = false := by
  unfold Accepted requireAuth
  cases hverify : verifyAccessToken w t with
  | false => simp [hverify]
  | true =>
    cases hrevoked : isTokenRevoked w t.jti with
    | true => simp [hverify, hrevoked]
    | false =>
      cases huser : w'.accounts.store.users t.userId with
      | none => simp [hverify, hrevoked, huser]
      | some user =>
        simp only [hverify, hrevoked, huser, Bool.true_eq_false, Bool.false_eq_true, if_false, true_and,
          Option.some.injEq, exists_eq_left']
        cases user.status.canSignIn with
        | false => simp
        | true =>
          cases issuedBefore t.iat (w'.stamps t.userId).sessionsRevokedAt with
          | true => simp
          | false => cases issuedBefore t.iat (w'.stamps t.userId).passwordChangedAt <;> simp

end SalesDashboard.Sessions
