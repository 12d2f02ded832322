/-
Scadium.Auth.Service — sessions (`auth/auth.service.ts`) and the blocks of
responsible gambling that end them (`responsible-gambling/rg.service.ts`).

A call is what a login, a refresh, a logout or a block has still to do, and
each of its statements is one step. The values a login or a refresh draws (a
session's id, a jti, a refresh token) never occur twice: one draw stands for
all of them, and a token for its SHA-256.

`issued`, `exchanged`, `answered` and `excluded` record what has happened; no
statement reads them. Left out: what a token carries, user agents and
addresses, and the flips that a block cancels (they may fail the request).
-/
import Scadium.Lib.Calls
import Scadium.Prisma.Schema

namespace Scadium.Auth

open Scadium.Lib Scadium.Prisma

abbrev SessionId := Nat
abbrev Token := Nat

/-- What the gates read of a user. -/
structure Standing where
  banned : Bool
  selfExcludedUntil : Option Time
  coolOffUntil : Option Time
  deriving DecidableEq

structure Session where
  userId : UserId
  jwtId : Nat
  refreshToken : Token
  prevRefreshToken : Option Token
  expiresAt : Time
  deriving DecidableEq

structure State where
  users : Table UserId Standing
  sessions : Table SessionId Session
  now : Time
  drawn : Nat
  /-- every token, with the session it was issued for -/
  issued : List (SessionId × Token)
  /-- the tokens that were exchanged -/
  exchanged : List Token
  /-- the answers to tokens that were not current, with the live session the
  token had been issued for -/
  answered : List (Option SessionId)
  /-- the self-exclusions that were answered -/
  excluded : List (UserId × Time)

/-- `u.selfExcludedUntil && u.selfExcludedUntil > new Date()` -/
def Standing.isExcluded (u : Standing) (now : Time) : Bool :=
  u.selfExcludedUntil.any fun until_ => now < until_

/-- A new account. -/
def Standing.fresh : Standing := ⟨false, none, none⟩

/-- What a call has still to do. -/
inductive Call where
  /-- `verifyAndIssueToken`, `verifyPrivyAndIssueToken`, after verification -/
  | login (userId : UserId)
  /-- `seen` are the exclusions that were answered before the user was read -/
  | gate (userId : UserId) (user : Standing) (seen : List (UserId × Time))
  | issueSession (userId : UserId) (seen : List (UserId × Time))
  | refresh (token : Token)
  | checkExclusion (id : SessionId) (current : Session)
  | rotate (id : SessionId) (current : Session)
  | delete (id : SessionId)
  /-- `replayed` is the live session the token was issued for -/
  | findReplay (token : Token) (replayed : Option SessionId)
  | revoke (id : SessionId) (replayed : Option SessionId)
  | logout (jti : Nat)
  | logoutAll (userId : UserId)
  | setCoolOff (userId : UserId) (until_ : Time)
  | setSelfExclusion (userId : UserId) (until_ : Time)
  | cancelOpenFlips (userId : UserId) (until_ : Time)
  | deleteSessions (userId : UserId) (until_ : Time)
  /-- an administrator -/
  | setBanned (userId : UserId) (banned : Bool)
  /-- time passes -/
  | tick (now : Time)
  deriving DecidableEq

/-- What the environment answers in a step. -/
structure Answer where
  /-- `JWT_REFRESH_TTL` -/
  refreshTtlMs : Nat
  /-- cancelling the open flips failed -/
  failed : Bool

namespace State

variable (a : State)

/-- `session.findUnique({ where: { refreshToken } })` -/
def findCurrent (token : Token) : Option (SessionId × Session) :=
  a.sessions.find fun _ row => row.refreshToken == token

/-- `session.findFirst({ where: { prevRefreshToken } })` -/
def findReplayed (token : Token) : Option (SessionId × Session) :=
  a.sessions.find fun _ row => row.prevRefreshToken == some token

/-- The session the token was issued for, while it is live. -/
def liveSession (token : Token) : Option SessionId :=
  ((a.issued.find? fun p => p.2 == token).map Prod.fst).filter fun id => (a.sessions.get id).isSome

/-- `session.create` -/
def createSession (userId : UserId) (expiresAt : Time) : State :=
  { a with
    sessions := a.sessions.set a.drawn ⟨userId, a.drawn, a.drawn, none, expiresAt⟩
    issued := (a.drawn, a.drawn) :: a.issued
    drawn := a.drawn + 1 }

/-- `session.update` by id, with the row `current` that was read. -/
def rotate (id : SessionId) (current : Session) (expiresAt : Time) : Option State :=
  (a.sessions.get id).map fun row =>
    { a with
      sessions := a.sessions.set id
        { row with
          jwtId := a.drawn
          prevRefreshToken := some current.refreshToken
          refreshToken := a.drawn
          expiresAt := expiresAt }
      issued := (id, a.drawn) :: a.issued
      exchanged := current.refreshToken :: a.exchanged
      drawn := a.drawn + 1 }

/-- `session.deleteMany` -/
def deleteMany (P : Session → Bool) : State :=
  { a with sessions := a.sessions.filter fun _ row => !P row }

/-- `user.updateMany` of `extend`: only a block that is not shortened. -/
def extend (userId : UserId) (until_ : Time) (get : Standing → Option Time)
    (set : Standing → Standing) : Option State :=
  if until_ ≤ a.now then none
  else
    match a.users.get userId with
    | none => none
    | some user =>
        if (get user).all fun old => old ≤ until_ then
          some { a with users := a.users.set userId (set user) }
        else none

end State

/-- One step of a call. -/
def Call.step (a : State) (answer : Answer) : Call → State × Option Call
  | .login userId =>
      match a.users.get userId with
      | some user => (a, some (.gate userId user a.excluded))
      | none =>
          ({ a with users := a.users.set userId .fresh }, some (.gate userId .fresh a.excluded))
  | .gate userId user seen =>
      if user.banned ∨ user.isExcluded a.now then (a, none)
      else (a, some (.issueSession userId seen))
  | .issueSession userId _ => (a.createSession userId (a.now + answer.refreshTtlMs), none)
  | .refresh token =>
      match a.findCurrent token with
      | some (id, current) =>
          if current.expiresAt < a.now then (a, some (.delete id))
          else (a, some (.checkExclusion id current))
      | none => (a, some (.findReplay token (a.liveSession token)))
  | .checkExclusion id current =>
      if (a.users.get current.userId).any fun user => user.isExcluded a.now then
        (a, some (.delete id))
      else (a, some (.rotate id current))
  | .rotate id current => ((a.rotate id current (a.now + answer.refreshTtlMs)).getD a, none)
  | .delete id => ({ a with sessions := a.sessions.erase id }, none)
  | .findReplay token replayed =>
      match a.findReplayed token with
      | some (id, _) => (a, some (.revoke id replayed))
      | none => ({ a with answered := replayed :: a.answered }, none)
  | .revoke id replayed =>
      ({ a with sessions := a.sessions.erase id, answered := replayed :: a.answered }, none)
  | .logout jti => (a.deleteMany fun row => row.jwtId == jti, none)
  | .logoutAll userId => (a.deleteMany fun row => row.userId == userId, none)
  | .setCoolOff userId until_ =>
      ((a.extend userId until_ (·.coolOffUntil)
        fun user => { user with coolOffUntil := some until_ }).getD a, none)
  | .setSelfExclusion userId until_ =>
      match a.extend userId until_ (·.selfExcludedUntil)
          fun user => { user with selfExcludedUntil := some until_ } with
      | some a => (a, some (.cancelOpenFlips userId until_))
      | none => (a, none)
  | .cancelOpenFlips userId until_ =>
      if answer.failed then (a, none) else (a, some (.deleteSessions userId until_))
  | .deleteSessions userId until_ =>
      ({ a.deleteMany fun row => row.userId == userId with
          excluded := (userId, until_) :: a.excluded }, none)
  | .setBanned userId banned =>
      match a.users.get userId with
      | none => (a, none)
      | some user => ({ a with users := a.users.set userId { user with banned := banned } }, none)
  | .tick now => ({ a with now := max a.now now }, none)

/-- A call may begin so. Only tokens that were issued are presented. -/
def Call.isEntry (a : State) : Call → Bool
  | .refresh token => token < a.drawn
  | .login .. | .logout .. | .logoutAll .. | .setCoolOff .. | .setSelfExclusion .. | .setBanned ..
  | .tick .. => true
  | _ => false

def service : Calls.Service State Call Answer where
  begins a call := call.isEntry a
  step a answer call := some (call.step a answer)

/-- No account and no session. -/
def State.initial : State := ⟨.empty, .empty, 0, 0, [], [], [], []⟩

end Scadium.Auth
