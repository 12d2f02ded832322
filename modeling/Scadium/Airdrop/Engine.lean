/-
Scadium.Airdrop.Engine — the hourly airdrop (`airdrop/airdrop.engine.ts`).

Each hour has a pool, seeded when its row is created and grown by tips.
`distribute` splits the pool of the last completed hour among the users that
played and chatted in it, or carries it into a later hour. A tip and a
distribution are calls of several steps: what a step reads (the clock, the
pool) may be stale when the transaction commits.

`seeds` and `Tip.late` record what has happened; no statement reads them.
Left out: the audit row of a forced run, and what is broadcast.
-/
import Scadium.Lib.Calls
import Scadium.Queue.Periods

namespace Scadium.Airdrop

open Scadium.Lib Scadium.Prisma Scadium.Queue

structure Account where
  fundedAt : Option Time
  ageConfirmedAt : Option Time
  signupIpHash : Option String
  playBalanceLamports : Nat
  deriving DecidableEq

structure AirdropPool where
  baseLamports : Nat
  tipLamports : Nat
  tipsCount : Nat
  distributed : Bool
  deriving DecidableEq

structure AirdropEvent where
  totalLamports : Nat
  participantCount : Nat
  deriving DecidableEq

/-- A ledger row with reason `airdrop_tip`. -/
structure Tip where
  userId : UserId
  lamports : Nat
  period : Hour
  /-- the pool was distributed already -/
  late : Bool
  deriving DecidableEq

/-- A claim, and its ledger row with reason `airdrop_credit`. -/
structure Credit where
  userId : UserId
  lamports : Nat
  deriving DecidableEq

structure State where
  now : Time
  users : Table UserId Account
  pools : Table Hour AirdropPool
  tips : List Tip
  events : List AirdropEvent
  credits : List Credit
  /-- what new pools were seeded with -/
  seeds : Nat

/-- What the environment answers in a step. -/
structure Answer where
  /-- `AIRDROP_BASE_LAMPORTS` -/
  baseLamports : Nat
  /-- `economyEnforced()` -/
  enforced : Bool
  /-- a check of the request refuses, or its transaction fails -/
  failed : Bool
  /-- what each user wagered in the hour -/
  wagers : List (UserId × Nat)
  /-- who chatted in the hour -/
  chatters : List UserId

/-- What a call has still to do. -/
inductive Call where
  | tip (userId : UserId) (amountLamports : Nat)
  | tipPool (userId : UserId) (amountLamports : Nat) (period : Hour)
  /-- with the pool that was read -/
  | tipCommit (userId : UserId) (amountLamports : Nat) (period : Hour) (pool : AirdropPool)
  /-- the job, or an administrator -/
  | distribute
  | eligible (period : Hour) (total : Nat)
  | claimPool (period : Hour) (total : Nat) (eligible : List UserId)
  | settlePool (period : Hour) (total : Nat) (eligible : List UserId) (nextPeriod : Hour)
  | poolSnapshot
  /-- whatever else writes an account -/
  | writeUser (userId : UserId) (user : Account)
  | tick (now : Time)
  deriving DecidableEq

def AirdropPool.contents (pool : AirdropPool) : Nat := pool.baseLamports + pool.tipLamports

/-- `upsert` with this `create`. -/
def AirdropPool.fresh (baseLamports : Nat) : AirdropPool := ⟨baseLamports, 0, 0, false⟩

namespace State

variable (a : State)

/-- `airdropPool.upsert` -/
def upsertPool (period : Hour) (create : Nat) (seed : Nat) (update : AirdropPool → AirdropPool) :
    State :=
  match a.pools.get period with
  | some pool => { a with pools := a.pools.set period (update pool) }
  | none => { a with pools := a.pools.set period (.fresh create), seeds := a.seeds + seed }

/-- `ensureCurrentPool` -/
def ensureCurrentPool (baseLamports : Nat) : State :=
  a.upsertPool (periodForHour a.now) baseLamports baseLamports id

def rollOver (baseLamports total : Nat) (nextPeriod : Hour) : State :=
  a.upsertPool nextPeriod (baseLamports + total) baseLamports fun pool =>
    { pool with baseLamports := pool.baseLamports + total }

/-- The transaction of `tip`. -/
def tipCommit (answer : Answer) (userId : UserId) (amountLamports : Nat) (period : Hour) :
    Option State :=
  match a.users.get userId, a.pools.get period with
  | some user, some pool =>
      if answer.failed ∨ (answer.enforced && user.fundedAt.isSome) ∨
          user.playBalanceLamports < amountLamports then none
      else
        some { a with
          users := a.users.set userId
            { user with playBalanceLamports := user.playBalanceLamports - amountLamports }
          pools := a.pools.set period
            { pool with
              tipLamports := pool.tipLamports + amountLamports
              tipsCount := pool.tipsCount + 1 }
          tips := ⟨userId, amountLamports, period, pool.distributed⟩ :: a.tips }
  | _, _ => none

/-- At least 0.001 SOL wagered, and a chat message. -/
def candidates (answer : Answer) : List UserId :=
  ((answer.wagers.filter fun w => 1000000 ≤ w.2).map Prod.fst).filter answer.chatters.contains

/-- `filterEligibleForSybil` -/
def filterEligibleForSybil (enforced : Bool) (candidates : List UserId) : List UserId :=
  let users := a.users.entries.filter fun p =>
    candidates.contains p.1 && (!enforced || p.2.fundedAt.isNone)
  let ageOk := users.filter fun p => p.2.ageConfirmedAt.isSome
  let ipCount := fun ip => (ageOk.filter fun p => p.2.signupIpHash == some ip).length
  (ageOk.filter fun p => p.2.signupIpHash.all fun ip => ip = "" ∨ ipCount ip ≤ 1).map Prod.fst

/-- `stillPlay` -/
def stillPlay (userId : UserId) (enforced : Bool) : Bool :=
  !enforced || (a.users.get userId).any fun user => user.fundedAt.isNone

/-- A claim and a credit per payee. -/
def creditAll (share : Nat) (users : Table UserId Account) (payees : List UserId) :
    Option (Table UserId Account) :=
  users.updateAll id
    (fun _ user => { user with playBalanceLamports := user.playBalanceLamports + share }) payees

def pay (total : Nat) (payees : List UserId) : Option State :=
  let share := total / payees.length
  (creditAll share a.users payees).map fun users =>
    { a with
      users := users
      events := ⟨total, payees.length⟩ :: a.events
      credits := payees.map (⟨·, share⟩) ++ a.credits }

/-- The transaction of `distribute`. -/
def settlePool (answer : Answer) (period : Hour) (total : Nat) (eligible : List UserId)
    (nextPeriod : Hour) : Option State :=
  match a.pools.get period with
  | none => none
  | some pool =>
      if answer.failed ∨ pool.distributed then none
      else
        let claimed := { a with pools := a.pools.set period { pool with distributed := true } }
        let payees := eligible.filter fun userId => a.stillPlay userId answer.enforced
        if payees = [] then some (claimed.rollOver answer.baseLamports total nextPeriod)
        else claimed.pay total payees

end State

/-- One step of a call. -/
def Call.step (a : State) (answer : Answer) : Call → State × Option Call
  | .tip userId amountLamports =>
      if amountLamports = 0 ∨ answer.failed then (a, none)
      else (a, some (.tipPool userId amountLamports (periodForHour a.now)))
  | .tipPool userId amountLamports period =>
      let ensured := a.ensureCurrentPool answer.baseLamports
      match ensured.pools.get (periodForHour a.now) with
      | some pool =>
          if pool.distributed then (ensured, none)
          else (ensured, some (.tipCommit userId amountLamports period pool))
      | none => (ensured, none)
  | .tipCommit userId amountLamports period _ =>
      match a.tipCommit answer userId amountLamports period with
      | some a => (a, some .poolSnapshot)
      | none => (a, none)
  | .distribute =>
      let period := lastCompletedHourPeriod a.now
      match a.pools.get period with
      | none => (a, some .poolSnapshot)
      | some pool =>
          if pool.distributed ∨ pool.contents = 0 then (a, some .poolSnapshot)
          else (a, some (.eligible period pool.contents))
  | .eligible period total =>
      (a, some (.claimPool period total
        (a.filterEligibleForSybil answer.enforced (State.candidates answer))))
  | .claimPool period total users =>
      (a, some (.settlePool period total users (periodForHour (a.now + 3600000 - 60000))))
  | .settlePool period total users nextPeriod =>
      ((a.settlePool answer period total users nextPeriod).getD a, some .poolSnapshot)
  | .poolSnapshot => (a.ensureCurrentPool answer.baseLamports, none)
  | .writeUser userId user => ({ a with users := a.users.set userId user }, none)
  | .tick now => ({ a with now := max a.now now }, none)

/-- A call may begin so. -/
def Call.isEntry : Call → Bool
  | .tipPool .. | .tipCommit .. | .eligible .. | .claimPool .. | .settlePool .. => false
  | .tip .. | .distribute | .poolSnapshot | .writeUser .. | .tick .. => true

def service : Calls.Service State Call Answer where
  begins _ call := call.isEntry
  step a answer call := some (call.step a answer)

/-- No account and no pool, after the first hour of the epoch. -/
def State.initial : State := ⟨HOUR_MS, .empty, .empty, [], [], [], 0⟩

end Scadium.Airdrop
