/-
Scadium.Engine.Distribution — the hourly dividends
(`engine/distribution.service.ts`).

A run reads the round of the last completed hour, the hour's net revenue and
the stakers, one after the other, and then settles the round: with zero, or
in a transaction that credits every staker. What the bets of the hour sum up
to is an answer of the environment.
-/
import Scadium.Lib.Calls
import Scadium.Queue.Periods
import Scadium.Shared.VaultMath

namespace Scadium.Engine

open Scadium.Lib Scadium.Prisma Scadium.Queue Scadium.Shared

namespace Distribution

structure Account where
  scadiumStaked : Nat
  usdsBalance : Nat
  deriving DecidableEq

structure DistributionRound where
  ngrLamports : Int
  poolUsds : Nat
  totalStakedSnapshot : Nat
  participantCount : Nat
  distributed : Bool
  deriving DecidableEq

/-- A claim, and its ledger row with reason `dividend_credit`. -/
structure DistributionClaim where
  period : Hour
  userId : UserId
  stakedAmount : Nat
  shareUsds : Nat
  deriving DecidableEq

structure State where
  now : Time
  users : Table UserId Account
  rounds : Table Hour DistributionRound
  claims : List DistributionClaim

/-- What the environment answers in a step. -/
structure Answer where
  /-- stakes less payouts of the hour -/
  ngr : Int
  /-- the transaction fails -/
  failed : Bool

/-- What a call has still to do. -/
inductive Call where
  | distribute
  | aggregate (period : Hour)
  | findStakers (period : Hour) (ngr : Int)
  | settle (period : Hour) (ngr : Int) (stakers : List (UserId × Account))
  /-- whatever else writes an account -/
  | writeUser (userId : UserId) (user : Account)
  | tick (now : Time)
  deriving DecidableEq

def totalStaked (stakers : List (UserId × Account)) : Nat := weight (fun s => s.2.scadiumStaked) stakers

/-- Nothing to pay. -/
def noDividend (ngr : Int) (stakers : List (UserId × Account)) : Bool :=
  dividendPoolUsdsBase ngr < ENGINE.MIN_DIVIDEND_POOL_USDS_BASE || stakers.isEmpty ||
    totalStaked stakers == 0

/-- The claims of the round, without the stakers whose share is zero. -/
def shares (period : Hour) (ngr : Int) (stakers : List (UserId × Account)) :
    List DistributionClaim :=
  (stakers.map fun s => ⟨period, s.1, s.2.scadiumStaked,
    dividendPoolUsdsBase ngr * s.2.scadiumStaked / totalStaked stakers⟩).filter
      fun c => 0 < c.shareUsds

namespace State

variable (a : State)

def settled (period : Hour) : Bool := (a.rounds.get period).any (·.distributed)

/-- The round is settled with zero. -/
def settleZero (period : Hour) (ngr : Int) (stakers : List (UserId × Account)) : State :=
  { a with rounds := a.rounds.set period ⟨ngr, 0, totalStaked stakers, 0, true⟩ }

/-- `applyBalanceDelta` per claim. -/
def creditAll (users : Table UserId Account) (claims : List DistributionClaim) :
    Option (Table UserId Account) :=
  users.updateAll DistributionClaim.userId
    (fun c user => { user with usdsBalance := user.usdsBalance + c.shareUsds }) claims

/-- The transaction that credits the stakers. -/
def settleRound (period : Hour) (ngr : Int) (stakers : List (UserId × Account)) : Option State :=
  if a.settled period then none
  else
    let claims := shares period ngr stakers
    (creditAll a.users claims).map fun users =>
      { a with
        users := users
        claims := claims ++ a.claims
        rounds := a.rounds.set period
          ⟨ngr, dividendPoolUsdsBase ngr, totalStaked stakers, claims.length, true⟩ }

def settle (answer : Answer) (period : Hour) (ngr : Int) (stakers : List (UserId × Account)) :
    Option State :=
  if answer.failed then none
  else if noDividend ngr stakers then some (a.settleZero period ngr stakers)
  else a.settleRound period ngr stakers

end State

/-- One step of a call. -/
def Call.step (a : State) (answer : Answer) : Call → State × Option Call
  | .distribute =>
      let period := lastCompletedHourPeriod a.now
      if a.settled period then (a, none) else (a, some (.aggregate period))
  | .aggregate period => (a, some (.findStakers period answer.ngr))
  | .findStakers period ngr =>
      (a, some (.settle period ngr (a.users.filter fun _ user => 0 < user.scadiumStaked).entries))
  | .settle period ngr stakers => ((a.settle answer period ngr stakers).getD a, none)
  | .writeUser userId user => ({ a with users := a.users.set userId user }, none)
  | .tick now => ({ a with now := max a.now now }, none)

/-- A call may begin so. -/
def Call.isEntry : Call → Bool
  | .aggregate .. | .findStakers .. | .settle .. => false
  | .distribute | .writeUser .. | .tick .. => true

def service : Calls.Service State Call Answer where
  begins _ call := call.isEntry
  step a answer call := some (call.step a answer)

/-- No account and no round. -/
def State.initial : State := ⟨0, .empty, .empty, []⟩

end Distribution

end Scadium.Engine
